import Stopan.Lib.Protobuf
import Stopan.Restore.ErasureFetch

/-!
The messages that carry a shard to a node and back, as they stand on the wire, and the sizes that
`remote_client.py` predicts for them.
-/

namespace Stopan.Erasure

open Stopan.Lib Stopan.Lib.Protobuf Stopan.Common Stopan.Restore

/-- A `uint32` field refuses a larger number. -/
def pbRef (ref : ShardRef) : Coded RefMessage :=
  if ref.shardIndex < 2 ^ 32 then
    .ok { packHash := ref.packHash, shardIndex := .ofNat ref.shardIndex,
          shardHash := ref.shardHash }
  else .error (.value s!"Value out of range: {ref.shardIndex}")

/-- `ReplicateDataPackShardRequest`. -/
structure ReplicateShardRequest where
  ref : RefMessage
  shardData : Bytes
  deriving DecidableEq, Repr

def pbReplicateRequest (item : ShardPayload) : Coded ReplicateShardRequest := do
  return { ref := ← pbRef item.ref, shardData := item.data }

/-- `_retrieved_stored_shard` of the node that has the shard. -/
def retrievedStoredShard (item : ShardPayload) : Coded ShardRetrieveMessage := do
  return { ref := ← pbRef item.ref, status := .found, shardData := item.data, detail := "ok" }

def refFields (ref : RefMessage) : List Field :=
  [{ number := 1, value := .bytes (encodeUtf8 ref.packHash) },
    { number := 2, value := .number ref.shardIndex.toNat },
    { number := 3, value := .bytes (encodeUtf8 ref.shardHash) }]

def ReplicateShardRequest.encode (request : ReplicateShardRequest) : Bytes :=
  encodeMessage (refFields request.ref ++ [{ number := 4, value := .bytes request.shardData }])

def retrieveStatusNumber : ShardRetrieveStatus → Int
  | .unspecified => 0
  | .found => 1
  | .notFound => 2
  | .hashMismatch => 3
  | .error => 4
  | .unrecognized number => number

/-- `RetrievedDataPackShard`. A negative number of an enumeration is written as a 64-bit one. -/
def encodeRetrievedShard (message : ShardRetrieveMessage) : Bytes :=
  encodeMessage (refFields message.ref ++ [
    { number := 4, value := .number (retrieveStatusNumber message.status % 2 ^ 64).toNat },
    { number := 5, value := .bytes message.shardData },
    { number := 6, value := .bytes (encodeUtf8 message.detail.toList) }])

/-- `RetrieveDataPackShardBatchResponse`. -/
def encodeRetrieveResponse (results : List ShardRetrieveMessage) : Bytes :=
  encodeMessage (results.map fun message =>
    { number := 1, value := .message (encodeRetrievedShard message) })

theorem varintSize_eq_length (value : Nat) : varintSize value = (varint value).length := by
  induction value using varintSize.induct with
  | case1 value small => rw [varintSize, if_pos small, length_varint_of_lt small]
  | case2 value large ih =>
      rw [varintSize, if_neg large, length_varint_of_le (Nat.le_of_not_lt large), ih,
        Nat.shiftRight_eq_div_pow]

/-- What `is_valid_blake3_hex` leaves of a hash for its size. -/
structure AsciiHash (hash : Text) : Prop where
  length : hash.length = 64
  ascii : ∀ char ∈ hash, char.toNat < 128

theorem length_encodeUtf8_of_ascii {text : Text} (ascii : ∀ char ∈ text, char.toNat < 128) :
    (encodeUtf8 text).length = text.length := by
  induction text with
  | nil => rfl
  | cons char rest ih =>
      have one : (String.utf8EncodeChar char).length = 1 := by
        rw [String.length_utf8EncodeChar, Char.utf8Size_eq_one_iff, UInt32.le_iff_toNat_le]
        exact Nat.le_of_lt_succ (ascii char List.mem_cons_self)
      rw [encodeUtf8, List.flatMap_cons, List.length_append, one, List.length_cons, Nat.add_comm]
      exact congrArg (· + 1) (ih fun other member => ascii other (List.mem_cons_of_mem _ member))

section Shard

variable {item : ShardPayload} {message : RefMessage}

theorem pbRef_of_lt (index : item.ref.shardIndex < 2 ^ 32) : pbRef item.ref = .ok {
    packHash := item.ref.packHash, shardIndex := .ofNat item.ref.shardIndex, shardHash :=
      item.ref.shardHash } := by
  rw [pbRef, if_pos index]

theorem length_hashField {hash : Text} (sound : AsciiHash hash) {number : Nat} (few : number < 16) :
    (Field.encode { number, value := .bytes (encodeUtf8 hash) }).length = 66 := by
  have size := (length_encodeUtf8_of_ascii sound.ascii).trans sound.length
  have present : (FieldValue.bytes (encodeUtf8 hash)).isDefault = false := by
    cases encoded : encodeUtf8 hash with
    | nil => simp [encoded] at size
    | cons byte rest => rfl
  rw [Field.length_encode few present, FieldValue.payload, List.length_append,
    length_varint_of_lt (by omega), size]

theorem length_numberField (value : Nat) {number : Nat} (few : number < 16) :
    (Field.encode { number, value := .number value }).length = indexFieldSize value := by
  rw [indexFieldSize]
  split
  · rename_i zero
    rw [Field.length_encode_default (by simpa [FieldValue.isDefault] using zero)]
  · rename_i present
    rw [Field.length_encode few (by simpa [FieldValue.isDefault] using present),
      varintSize_eq_length]
    rfl

theorem length_dataField {data : Bytes} (nonempty : data ≠ []) {number : Nat} (few : number < 16) :
    (Field.encode { number, value := .bytes data }).length =
      1 + varintSize data.length + data.length := by
  have present : (FieldValue.bytes data).isDefault = false := by
    simpa [FieldValue.isDefault] using nonempty
  rw [Field.length_encode few present, FieldValue.payload, List.length_append,
    varintSize_eq_length, Nat.add_assoc]

/-- What both messages hold of the ref. -/
theorem length_refFields (packHash : AsciiHash item.ref.packHash)
    (shardHash : AsciiHash item.ref.shardHash)
    (index : item.ref.shardIndex < 2 ^ 32) (rest : List Field) :
    (encodeMessage (refFields {
      packHash := item.ref.packHash, shardIndex := .ofNat item.ref.shardIndex, shardHash :=
        item.ref.shardHash } ++
      rest)).length = 66 + 66 + indexFieldSize item.ref.shardIndex +
        (encodeMessage rest).length := by
  have sameIndex : (UInt32.ofNat item.ref.shardIndex).toNat = item.ref.shardIndex :=
    UInt32.toNat_ofNat_of_lt' index
  simp only [length_encodeMessage, refFields, List.cons_append, List.nil_append, List.map_cons,
    List.sum_cons, sameIndex]
  rw [length_hashField packHash (by decide), length_hashField shardHash (by decide),
    length_numberField _ (by decide)]
  omega

/-- `replicate_data_pack_shard_request_size_bytes` is exact. -/
theorem length_replicateRequest (packHash : AsciiHash item.ref.packHash)
    (shardHash : AsciiHash item.ref.shardHash)
    (index : item.ref.shardIndex < 2 ^ 32) (nonempty : item.data ≠ []) :
    ∃ request, pbReplicateRequest item = .ok request ∧
      request.encode.length = replicateRequestSize item := by
  refine ⟨_, by rw [pbReplicateRequest, pbRef_of_lt index]; rfl, ?_⟩
  rw [ReplicateShardRequest.encode, length_refFields packHash shardHash index,
    length_encodeMessage, List.map_singleton,
    List.sum_singleton, length_dataField nonempty (by decide), replicateRequestSize]

/-- `retrieve_data_pack_shard_response_size_bytes` is exact for a response with this shard alone. -/
theorem length_retrieveResponse (packHash : AsciiHash item.ref.packHash)
    (shardHash : AsciiHash item.ref.shardHash)
    (index : item.ref.shardIndex < 2 ^ 32) (nonempty : item.data ≠ []) :
    ∃ response, retrievedStoredShard item = .ok response ∧
      (encodeRetrieveResponse [response]).length = retrieveResponseSize item := by
  refine ⟨_, by rw [retrievedStoredShard, pbRef_of_lt index]; rfl, ?_⟩
  have status : (Field.encode
      { number := 4, value := .number (retrieveStatusNumber .found % 2 ^ 64).toNat }).length =
        2 := by
    have found : (retrieveStatusNumber .found % 2 ^ 64).toNat = 1 := by decide
    rw [found, length_numberField 1 (by decide), indexFieldSize, varintSize]
    rfl
  have detail : (Field.encode { number := 6, value := .bytes (encodeUtf8 "ok".toList) }).length =
    4 := by
    have two : (encodeUtf8 "ok".toList).length = 2 := by decide
    rw [length_dataField (by decide) (by decide), two, varintSize]
    rfl
  rw [encodeRetrieveResponse, List.map_singleton, length_encodeMessage,
    List.map_singleton, List.sum_singleton,
    Field.length_encode (by simp) rfl, FieldValue.payload, List.length_append,
    ← varintSize_eq_length,
    encodeRetrievedShard, length_refFields packHash shardHash index, length_encodeMessage]
  simp only [List.map_cons, List.map_nil, List.sum_cons, List.sum_nil, status, detail]
  rw [length_dataField nonempty (by decide), retrieveResponseSize]
  simp only [Nat.add_assoc, Nat.reduceAdd]

theorem size_le_of_ensureShardFitsTransport {maxMessageBytes : Int}
    (accepted : ensureShardFitsTransport maxMessageBytes item = .ok ()) :
    replicateRequestSize item ≤ maxMessageBytes ∧ retrieveResponseSize item ≤ maxMessageBytes := by
  simp only [ensureShardFitsTransport, ensure_bind_eq_ok_iff, ensure_eq_ok_iff,
    decide_eq_true_eq] at accepted
  exact accepted.2

/-- The predicted sizes are those of the messages on the wire, so a shard that is accepted for the
transport fits into a message both ways. -/
theorem shardMessages_exactSizes (item : ShardPayload) (packHash : AsciiHash item.ref.packHash)
    (shardHash : AsciiHash item.ref.shardHash) (index : item.ref.shardIndex < 2 ^ 32)
    (nonempty : item.data ≠ []) :
    ∃ request response, pbReplicateRequest item = .ok request ∧
      retrievedStoredShard item = .ok response ∧ replicateRequestSize item = request.encode.length ∧
      retrieveResponseSize item = (encodeRetrieveResponse [response]).length ∧
      ∀ maxMessageBytes, ensureShardFitsTransport maxMessageBytes item = .ok () →
        request.encode.length ≤ maxMessageBytes ∧
          (encodeRetrieveResponse [response]).length ≤ maxMessageBytes := by
  obtain ⟨request, created, requestSize⟩ :=
    length_replicateRequest packHash shardHash index nonempty
  obtain ⟨response, answered, responseSize⟩ :=
    length_retrieveResponse packHash shardHash index nonempty
  refine ⟨request, response, created, answered, requestSize.symm, responseSize.symm,
    fun maxMessageBytes accepted => ?_⟩
  rw [requestSize, responseSize]
  exact size_le_of_ensureShardFitsTransport accepted

theorem asciiHash_replicate {digit : Char} (ascii : digit.toNat < 128) :
    AsciiHash (List.replicate 64 digit) where
  length := List.length_replicate
  ascii _ member := List.eq_of_mem_replicate member ▸ ascii

/-- A shard whose index takes two bytes. -/
theorem index300_exactSizes :
    let item : ShardPayload := {
      ref := { packHash := List.replicate 64 'a', shardIndex := 300,
               shardHash := List.replicate 64 'b' }
      data := [7] }
    ∃ request response, pbReplicateRequest item = .ok request ∧
      retrievedStoredShard item = .ok response ∧ replicateRequestSize item = request.encode.length ∧
      retrieveResponseSize item = (encodeRetrieveResponse [response]).length ∧
      ∀ maxMessageBytes, ensureShardFitsTransport maxMessageBytes item = .ok () →
        request.encode.length ≤ maxMessageBytes ∧
          (encodeRetrieveResponse [response]).length ≤ maxMessageBytes :=
  shardMessages_exactSizes _ (asciiHash_replicate (by decide)) (asciiHash_replicate (by decide))
    (by decide) (by decide)

end Shard

end Stopan.Erasure
