import Stopan.Cluster.Placement
import Stopan.Packs.DistributedStore

/-!
Discovery of the metadata packs that the nodes of a cluster list
(`stopan/metadata/packs/discovery.py`, with the listing of one target in `remote.py`). What a node
answers and the order in which the answers arrive are arbitrary.
-/

namespace Stopan.Packs

open Stopan.Lib Stopan.Common Stopan.Cluster

/-- One pack of a `ListMetadataPacks` response. -/
structure ListedPack where
  ownerId : Text
  packHash : Text
  sizeBytes : Nat
  storedAtUnix : PyFloat
  signature : PackSignature
  deriving DecidableEq, Repr

structure MetadataPackSource where
  nodeId : Text
  address : Text
  packHash : Text
  sizeBytes : Nat
  storedAtUnix : PyFloat
  signature : PackSignature
  deriving DecidableEq, Repr

/-- A listed pack as evidence, if its hash, owner and signature are right. -/
def acceptListedPack (verifier : PackVerifier) (ownerId : Text) (target : ClusterMember)
    (item : ListedPack) :
    Option MetadataPackSource :=
  match validatePackHash item.packHash with
  | .error _ => none
  | .ok packHash =>
      if item.ownerId = ownerId ∧ verifier.verifies { ownerId, packHash } item.signature = true then
        some {
          nodeId := target.nodeId
          address := target.address
          packHash
          sizeBytes := item.sizeBytes
          storedAtUnix := item.storedAtUnix
          signature := item.signature }
      else none

/-- What the call to a target gives: a listing, or the text of the failure. -/
abbrev Listing := Except String (List ListedPack)

def listMetadataPacksFromTarget (verifier : PackVerifier) (ownerId : Text) (target : ClusterMember)
    (answer : Listing) :
    List MetadataPackSource × Option String :=
  if target.address.isEmpty then ([], some "target sin address")
  else match answer with
    | .error detail =>
        let node := if target.nodeId.isEmpty then "desconocido"
          else String.ofList (target.nodeId.take 8)
        ([], some s!"{node}@{String.ofList target.address}: {detail}")
    | .ok packs => (packs.filterMap (acceptListedPack verifier ownerId target), none)

def isRemoteMetadataPackMember (selfAddr : Text) (selfNodeId : Option Text)
    (nodeMember : ClusterMember) : Bool :=
  let address := strip nodeMember.address
  if address.isEmpty then false
  else if !(strip selfAddr).isEmpty && decide (address = strip selfAddr) then false
  else if !(strip (selfNodeId.getD [])).isEmpty &&
    decide (strip nodeMember.nodeId = strip (selfNodeId.getD [])) then false
  else true

def remoteTargets (cluster : ClusterView) (selfAddr : Text) : List ClusterMember :=
  cluster.members.filter (isRemoteMetadataPackMember selfAddr cluster.selfNodeId)

/-- `collect_metadata_pack_sources` when the targets complete in the order of `completed`. -/
def collectMetadataPackSources (query : ClusterMember → List MetadataPackSource × Option String)
    (completed : List ClusterMember) : List MetadataPackSource × List String :=
  (completed.flatMap fun target => (query target).1,
    completed.filterMap fun target => (query target).2)

inductive PresenceState where
  | unknown
  | verified
  | degraded
  | failed
  deriving DecidableEq, Repr

def metadataPackPresenceState (copiesSeen : Nat) : Option Int → Except String PresenceState
  | none => .ok .unknown
  | some desired =>
      if desired < 1 then .error "metadata pack presence requiere desired_copies >= 1"
      else if desired ≤ copiesSeen then .ok .verified
      else if 0 < copiesSeen then .ok .degraded
      else .ok .failed

structure MetadataPackDiscoveryEntry where
  packHash : Text
  presenceState : PresenceState
  copiesSeen : Nat
  desiredCopies : Option Int
  desiredCopiesSource : String
  sources : List MetadataPackSource
  deriving DecidableEq, Repr

/-- The order of the tuples `(address, node_id, pack_hash)`. -/
def sourceLe (left right : MetadataPackSource) : Bool :=
  decide (toLex (left.address, toLex (left.nodeId, left.packHash)) ≤
    toLex (right.address, toLex (right.nodeId, right.packHash)))

def discoveryEntry (desiredCopies : Dict Text Int) (group : Text × List MetadataPackSource) :
    Except String MetadataPackDiscoveryEntry := do
  let sources := group.2.insertionSort fun left right => sourceLe left right = true
  let desired := desiredCopies.get? group.1
  let presenceState ← metadataPackPresenceState sources.length desired
  return {
    packHash := group.1
    presenceState
    copiesSeen := sources.length
    desiredCopies := desired
    desiredCopiesSource := if desired.isSome then "publication_record" else "unknown"
    sources }

def groupSources (sources : List MetadataPackSource) : Dict Text (List MetadataPackSource) :=
  sources.foldl (fun grouped source => grouped.modify source.packHash [] (· ++ [source])) .empty

def groupMetadataPackSources (sources : List MetadataPackSource) (desiredCopies : Dict Text Int)
    (maxCandidates : Option Int) : Except String (List MetadataPackDiscoveryEntry) := do
  let entries ← (groupSources sources).entries.mapM (discoveryEntry desiredCopies)
  let ordered := entries.insertionSort fun left right => left.packHash ≤ right.packHash
  return match maxCandidates with
    | some limit => if 0 < limit then ordered.take limit.toNat else ordered
    | none => ordered

/-- `discover_metadata_packs_from_network`, from the view on. -/
def discoverMetadataPacks (verifier : PackVerifier) (ownerId : Text)
    (answers : ClusterMember → Listing)
    (completed : List ClusterMember) (desiredCopies : Dict Text Int) (maxCandidates : Option Int) :
    Except String (List MetadataPackDiscoveryEntry) :=
  let query target := listMetadataPacksFromTarget verifier ownerId target (answers target)
  groupMetadataPackSources
    (collectMetadataPackSources query completed).1 desiredCopies maxCandidates

/-- How often the listing of a target shows a pack. -/
def timesListed (verifier : PackVerifier) (ownerId : Text) (answers : ClusterMember → Listing)
    (packHash : Text) (target : ClusterMember) : Nat :=
  (listMetadataPacksFromTarget verifier ownerId target (answers target)).1.countP
    fun source => source.packHash = packHash

/-- The remote nodes that report a pack. -/
def holders (verifier : PackVerifier) (ownerId : Text) (answers : ClusterMember → Listing)
    (targets : List ClusterMember) (packHash : Text) : Finset Text :=
  ((targets.filter fun target => 0 < timesListed verifier ownerId answers packHash target).map
    ClusterMember.nodeId).toFinset

theorem countP_pos_le_sum {α : Type} (items : List α) (count : α → Nat) :
    items.countP (fun item => 0 < count item) ≤ (items.map count).sum := by
  induction items with
  | nil => exact Nat.le_refl 0
  | cons item rest ih =>
      rw [List.countP_cons, List.map_cons, List.sum_cons]
      by_cases positive : 0 < count item
      · simp only [positive, decide_true, if_true]
        omega
      · simp only [positive, decide_false, Bool.false_eq_true, if_false]
        omega

/-- A sum of counts is the number of positive ones exactly if no count is more than one. -/
theorem sum_eq_countP_pos_iff {α : Type} (items : List α) (count : α → Nat) :
    (items.map count).sum = items.countP (fun item => 0 < count item) ↔
      ∀ item ∈ items, count item ≤ 1 := by
  induction items with
  | nil => simp
  | cons item rest ih =>
      have atLeast := countP_pos_le_sum rest count
      rw [List.forall_mem_cons, ← ih, List.countP_cons, List.map_cons, List.sum_cons]
      by_cases positive : 0 < count item
      · simp only [positive, decide_true, if_true]
        omega
      · simp only [positive, decide_false, Bool.false_eq_true, if_false]
        omega

theorem groupSources_get? (sources : List MetadataPackSource) {packHash : Text}
    {group : List MetadataPackSource} (found : (groupSources sources).get? packHash = some group) :
    group = sources.filter fun source => source.packHash = packHash := by
  have grouped := Dict.get?_foldl_group MetadataPackSource.packHash
    (fun source => [source]) sources .empty packHash
  rw [groupSources] at found
  rw [found, Dict.get?_empty, List.flatMap_singleton'] at grouped
  exact grouped

theorem metadataPackPresenceState_verified {copiesSeen : Nat} {desired : Option Int}
    (state : metadataPackPresenceState copiesSeen desired = .ok .verified) :
    ∃ copies, desired = some copies ∧ copies ≤ copiesSeen := by
  cases desired with
  | none => cases state
  | some copies =>
      refine ⟨copies, rfl, ?_⟩
      rw [metadataPackPresenceState] at state
      split at state
      · cases state
      · split at state
        · assumption
        · split at state <;> cases state

/-- What an entry of the result says about the collected sources. -/
theorem groupMetadataPackSources_entry {sources : List MetadataPackSource}
    {desiredCopies : Dict Text Int} {maxCandidates : Option Int}
    {entries : List MetadataPackDiscoveryEntry} {entry : MetadataPackDiscoveryEntry}
    (grouped : groupMetadataPackSources sources desiredCopies maxCandidates = .ok entries)
    (member : entry ∈ entries) :
    entry.copiesSeen = sources.countP (fun source => source.packHash = entry.packHash) ∧
      metadataPackPresenceState entry.copiesSeen entry.desiredCopies = .ok entry.presenceState := by
  rw [groupMetadataPackSources, bind_eq_ok_iff] at grouped
  obtain ⟨built, mapped, made⟩ := grouped
  have listed : entry ∈ built := by
    rw [pure_eq_ok_iff] at made
    subst made
    cases maxCandidates with
    | none => exact (List.mem_insertionSort _).mp member
    | some limit =>
        dsimp only at member
        split at member
        · exact (List.mem_insertionSort _).mp (List.mem_of_mem_take member)
        · exact (List.mem_insertionSort _).mp member
  obtain ⟨⟨packHash, group⟩, present, described⟩ :=
    forall₂_mem_right (mapM_eq_ok_iff.mp mapped) listed
  have members := groupSources_get? sources (Dict.get?_eq_some_iff.mpr present)
  rw [discoveryEntry, bind_eq_ok_iff] at described
  obtain ⟨state, presence, entryMade⟩ := described
  cases pure_eq_ok_iff.mp entryMade
  refine ⟨?_, presence⟩
  dsimp only
  rw [List.length_insertionSort, members, List.countP_eq_length_filter]

/-- The copies of a pack are counted per node exactly if no node lists the pack more than once; then
a verified pack has as many holders as are desired. -/
theorem copiesSeen_eq_holders_iff (verifier : PackVerifier) (ownerId : Text)
    (answers : ClusterMember → Listing) (cluster : ClusterView) (selfAddr : Text)
    (completed : List ClusterMember) (desiredCopies : Dict Text Int) (maxCandidates : Option Int)
    (entries : List MetadataPackDiscoveryEntry) (entry : MetadataPackDiscoveryEntry)
    (order : completed.Perm (remoteTargets cluster selfAddr))
    (discovered : discoverMetadataPacks verifier ownerId answers completed desiredCopies
      maxCandidates = .ok entries)
    (member : entry ∈ entries) :
    (entry.copiesSeen =
      (holders verifier ownerId answers (remoteTargets cluster selfAddr) entry.packHash).card ↔
      ∀ target ∈ remoteTargets cluster selfAddr,
        timesListed verifier ownerId answers entry.packHash target ≤ 1) ∧
    ((∀ target ∈ remoteTargets cluster selfAddr,
      timesListed verifier ownerId answers entry.packHash target ≤ 1) →
      entry.presenceState = .verified → ∃ desired, entry.desiredCopies = some desired ∧
        desired ≤ (holders verifier ownerId answers
          (remoteTargets cluster selfAddr) entry.packHash).card) := by
  obtain ⟨copies, presence⟩ := groupMetadataPackSources_entry discovered member
  have summed : entry.copiesSeen = ((remoteTargets cluster selfAddr).map
      (timesListed verifier ownerId answers entry.packHash)).sum := by
    rw [copies, collectMetadataPackSources, List.countP_flatMap, ← (order.map _).sum_eq]
    rfl
  have distinct : ((remoteTargets cluster selfAddr).map ClusterMember.nodeId).Nodup :=
    cluster.distinct.sublist (List.filter_sublist.map _)
  have counted : (holders verifier ownerId answers
      (remoteTargets cluster selfAddr) entry.packHash).card =
      (remoteTargets cluster selfAddr).countP fun target =>
        0 < timesListed verifier ownerId answers entry.packHash target := by
    rw [holders, List.toFinset_card_of_nodup (distinct.sublist (List.filter_sublist.map _)),
      List.length_map, List.countP_eq_length_filter]
  have agree : entry.copiesSeen =
      (holders verifier ownerId answers (remoteTargets cluster selfAddr) entry.packHash).card ↔
      ∀ target ∈ remoteTargets cluster selfAddr,
        timesListed verifier ownerId answers entry.packHash target ≤ 1 := by
    rw [summed, counted]
    exact sum_eq_countP_pos_iff _ _
  refine ⟨agree, ?_⟩
  intro single verified
  rw [verified] at presence
  obtain ⟨desired, known, enough⟩ := metadataPackPresenceState_verified presence
  rw [agree.mpr single] at enough
  exact ⟨desired, known, enough⟩

namespace RepeatedListing

def packHash : Text := List.replicate 64 'a'

def ownerId : Text := List.replicate 64 'b'

def listed : ListedPack where
  ownerId
  packHash
  sizeBytes := 10
  storedAtUnix := ⟨0⟩
  signature := { publicKeyB64 := "k".toList, signatureB64 := "s".toList }

/-- Only the signature that the owner made for the pack is valid. -/
def verifier : PackVerifier :=
  ⟨fun key signature => decide (key = { ownerId, packHash } ∧ signature = listed.signature)⟩

/-- One node besides the one that asks. -/
def cluster : ClusterView where
  selfNodeId := some "n0".toList
  members := [{ nodeId := "n0".toList, address := "a0".toList },
    { nodeId := "n1".toList, address := "a1".toList }]
  distinct := by decide

def desiredCopies : Dict Text Int := .ofList [(packHash, 2)]

def entry (copies : Nat) (presenceState : PresenceState) : MetadataPackDiscoveryEntry where
  packHash
  presenceState
  copiesSeen := copies
  desiredCopies := some 2
  desiredCopiesSource := "publication_record"
  sources := List.replicate copies {
    nodeId := "n1".toList
    address := "a1".toList
    packHash
    sizeBytes := 10
    storedAtUnix := ⟨0⟩
    signature := listed.signature }

end RepeatedListing

/-- A node that lists a pack twice makes it verified with a single holder. -/
theorem repeatedListing_verified :
    discoverMetadataPacks RepeatedListing.verifier RepeatedListing.ownerId
        (fun _ => .ok [RepeatedListing.listed, RepeatedListing.listed])
        (remoteTargets RepeatedListing.cluster "a0".toList) RepeatedListing.desiredCopies none =
      .ok [RepeatedListing.entry 2 .verified] ∧
    (holders RepeatedListing.verifier RepeatedListing.ownerId
      (fun _ => .ok [RepeatedListing.listed, RepeatedListing.listed])
      (remoteTargets RepeatedListing.cluster "a0".toList) RepeatedListing.packHash).card = 1 := by
  decide +kernel

namespace SeparateListings

open RepeatedListing

def otherHash : Text := List.replicate 64 'c'

/-- Both packs are the owner's, under one stand-in for the signature. -/
def verifier : PackVerifier :=
  ⟨fun key signature => decide (key.ownerId = ownerId ∧ signature = listed.signature)⟩

def forged : ListedPack :=
  { listed with signature := { publicKeyB64 := "k".toList, signatureB64 := "x".toList } }

def member (digit : Char) : ClusterMember := { nodeId := ['n', digit], address := ['a', digit] }

def cluster : ClusterView where
  selfNodeId := some "n0".toList
  members := ['0', '1', '2', '3', '4'].map member
  distinct := by decide

/-- One node lists two packs, one lists a pack, one lists it with a forged signature and one is
down. -/
def answers (target : ClusterMember) : Listing :=
  if target = member '1' then .ok [listed, { listed with packHash := otherHash }]
  else if target = member '2' then .ok [listed]
  else if target = member '3' then .ok [forged]
  else .error "UNAVAILABLE"

def completed : List ClusterMember := ['4', '2', '3', '1'].map member

/-- The pack and the state in which the discovery shows it. -/
def seen (entry : MetadataPackDiscoveryEntry) : Text × PresenceState × Nat :=
  (entry.packHash, entry.presenceState, entry.copiesSeen)

end SeparateListings

open SeparateListings RepeatedListing in
/-- Every listing shows a pack at most once, and the pack that two nodes hold is verified. -/
theorem separateListings_counted :
    ∃ entries entry, discoverMetadataPacks SeparateListings.verifier ownerId answers completed
        desiredCopies none = .ok entries ∧
      entry ∈ entries ∧ seen entry = (packHash, .verified, 2) ∧
      entry.copiesSeen = (holders SeparateListings.verifier ownerId answers
        (remoteTargets SeparateListings.cluster "a0".toList) packHash).card ∧
      ∃ desired, entry.desiredCopies = some desired ∧
        desired ≤ (holders SeparateListings.verifier ownerId answers
        (remoteTargets SeparateListings.cluster "a0".toList) packHash).card := by
  have shown : (discoverMetadataPacks SeparateListings.verifier ownerId answers completed
      desiredCopies none).toOption.map
      (fun entries => entries.map seen) = some [(packHash, .verified, 2),
        (otherHash, .unknown, 1)] := by decide +kernel
  cases discovered : discoverMetadataPacks SeparateListings.verifier ownerId answers completed
    desiredCopies none with
  | error reason =>
      rw [discovered] at shown
      cases shown
  | ok entries =>
      rw [discovered] at shown
      have listed : entries.map seen = [(packHash, .verified, 2), (otherHash, .unknown, 1)] :=
        Option.some.inj shown
      obtain ⟨entry, inside, same⟩ := List.mem_map.mp (listed ▸ List.mem_cons_self)
      obtain ⟨named, verified, -⟩ : entry.packHash = packHash ∧ entry.presenceState = .verified ∧
        entry.copiesSeen = 2 := by
        simpa [seen] using same
      obtain ⟨counted, enough⟩ :=
        copiesSeen_eq_holders_iff SeparateListings.verifier ownerId answers SeparateListings.cluster
        "a0".toList completed desiredCopies none entries entry (by decide +kernel) discovered inside
      rw [named] at counted enough
      have single : ∀ target ∈ remoteTargets SeparateListings.cluster "a0".toList,
          timesListed SeparateListings.verifier ownerId answers packHash target ≤ 1 := by
            decide +kernel
      exact ⟨entries, entry, rfl, inside, same, counted.mpr single, enough single verified⟩

end Stopan.Packs
