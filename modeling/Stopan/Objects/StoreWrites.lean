import Stopan.Objects.Store

namespace Stopan.Objects

open Stopan.Lib Stopan.Common

def lastChar (path : StorePath) : Option Char := (path.getLastD []).getLast?

/-- The names that `atomic_write_bytes` uses while it writes end in `.tmp`. -/
def isTemp (path : StorePath) : Bool := lastChar path == some 'p'

theorem isTemp_tempPath (environment : StoreEnvironment) (path : StorePath) :
    isTemp (tempPath environment path) = true := by
  have named : (tempPath environment path).getLastD [] = '.' :: (path.getLastD [] ++ '.' ::
      (Nat.toDigits 10 environment.pid ++ '.' :: (environment.random path ++ ".tmp".toList))) := by
    simp [tempPath]
  have split : '.' :: (path.getLastD [] ++ '.' :: (Nat.toDigits 10 environment.pid ++ '.' ::
      (environment.random path ++ ".tmp".toList))) =
      ('.' :: (path.getLastD [] ++ '.' ::
        (Nat.toDigits 10 environment.pid ++ '.' :: (environment.random path ++ ".tm".toList)))) ++
        ['p'] := by simp
  simp only [isTemp, lastChar, named, split, List.getLast?_concat, beq_self_eq_true]

theorem isTemp_objectPath (id : Text) : isTemp (objectPath id) = false := by
  have split : id ++ objectSuffix = (id ++ ".stob".toList) ++ ['j'] := by simp [objectSuffix]
  simp only [isTemp, lastChar, objectPath, List.getLastD_cons, List.getLastD_nil, split,
    List.getLast?_concat]
  rfl

/-- The two agree on every name that is not temporary. -/
def Agrees (files after : StoreFiles) : Prop := ∀ path, isTemp path = false →
    after.get? path = files.get? path

theorem Agrees.refl (files : StoreFiles) : Agrees files files := fun _ _ => rfl

theorem Agrees.trans {first second third : StoreFiles} (left : Agrees first second)
    (right : Agrees second third) :
    Agrees first third := fun path named => (right path named).trans (left path named)

theorem agrees_set {files : StoreFiles} {temp : StorePath} (temporary : isTemp temp = true)
    (entry : StoredEntry) :
    Agrees files (files.set temp entry) := by
  intro path named
  rw [Dict.get?_set, if_neg]
  rintro rfl
  rw [temporary] at named
  cases named

theorem agrees_erase {files : StoreFiles} {temp : StorePath} (temporary : isTemp temp = true) :
    Agrees files (files.erase temp) := by
  intro path named
  rw [Dict.get?_erase, if_neg]
  rintro rfl
  rw [temporary] at named
  cases named

theorem Agrees.set {files after : StoreFiles} (agrees : Agrees files after) (path : StorePath)
    (entry : StoredEntry) :
    Agrees (files.set path entry) (after.set path entry) := by
  intro other named
  rw [Dict.get?_set, Dict.get?_set, agrees other named]

/-- A condition that temporary files do not affect. -/
def IgnoresTemps (condition : StoreFiles → Prop) : Prop := ∀ files after, Agrees files after →
    condition files → condition after

section AtomicWrite

variable {environment : StoreEnvironment} {path : StorePath} {data : Bytes}
  {always pre : StoreFiles → Prop}
  {post : Unit → StoreFiles → Prop}

theorem keeps_perform {operation : FileOperation} {reason : String → ObjectsError}
    {change : StoreFiles → StoreFiles} (start : ∀ files, pre files → always files)
    (holds : ∀ files, pre files → always (change files) ∧ post () (change files)) :
    Task.Keeps always pre (environment.perform operation reason change) post := by
  rw [StoreEnvironment.perform]
  cases environment.fails operation with
  | some text => exact Task.keeps_raise start
  | none => exact Task.keeps_operate holds

theorem keeps_prepare {operation : FileOperation} {reason : String → ObjectsError}
    (holds : ∀ files, pre files → always files ∧ post () files) :
    Task.Keeps always pre (environment.prepare operation reason) post := by
  rw [StoreEnvironment.prepare]
  cases environment.fails operation with
  | some text => exact Task.keeps_raise fun files start => (holds files start).1
  | none => exact Task.keeps_done holds

/-- The path holds what it held, or the whole of the new data. -/
theorem keeps_atomicWriteBytes {after : StoreFiles → Prop} (syncParentDir : Bool)
    (alwaysIgnores : IgnoresTemps always) (preIgnores : IgnoresTemps pre)
    (afterIgnores : IgnoresTemps after) (start : ∀ files, pre files → always files)
    (published : ∀ files inode, pre files →
      always (files.set path (.file { data, mtime := environment.now, inode })) ∧
      after (files.set path (.file { data, mtime := environment.now, inode }))) :
    Task.Keeps always pre (atomicWriteBytes environment path data syncParentDir)
      fun _ => after := by
  have temporary := isTemp_tempPath environment path
  have named : ∀ files, pre files → always files ∧ pre files :=
    fun files holds => ⟨start files holds, holds⟩
  have written : ∀ files entry, pre files →
      always (files.set (tempPath environment path) entry) ∧
        pre (files.set (tempPath environment path) entry) := by
    intro files entry holds
    have kept := preIgnores _ _ (agrees_set temporary entry) holds
    exact ⟨start _ kept, kept⟩
  apply Task.Keeps.bind (fun _ => pre) (keeps_prepare named)
  intro _
  apply Task.Keeps.bind (fun _ files => always files ∧ after files)
  · apply Task.Keeps.cleaning
    · apply Task.Keeps.bind (fun _ => pre)
      · apply Task.Keeps.bind (fun _ => pre)
        · exact Task.keeps_inspect fun files holds => ⟨start files holds, fun _ _ => holds⟩
        · exact fun _ => keeps_perform start fun files holds => written files _ holds
      intro _
      apply Task.Keeps.bind (fun _ => pre)
      · apply Task.Keeps.bind (fun _ => pre)
        · exact Task.keeps_operate fun files holds => written files _ holds
        · exact fun _ => keeps_perform start fun files holds => written files _ holds
      intro _
      apply Task.Keeps.bind (fun _ files => always files ∧ after files)
      · apply Task.Keeps.bind (fun _ => pre)
        · exact Task.keeps_inspect fun files holds => ⟨start files holds, fun _ _ => holds⟩
        · intro _
          apply keeps_perform start
          intro files holds
          have both := published files (environment.inode (tempPath environment path)) holds
          have agrees := (@agrees_erase files _ temporary).set path
            (environment.fileOf (tempPath environment path) data)
          have kept := alwaysIgnores _ _ agrees both.1
          exact ⟨kept, kept, afterIgnores _ _ agrees both.2⟩
      · exact fun _ => keeps_prepare fun files holds => ⟨holds.1, holds⟩
    · exact keeps_perform (fun _ holds => holds) fun files holds =>
        ⟨alwaysIgnores _ _ (agrees_erase temporary) holds, trivial⟩
  · intro _
    cases syncParentDir with
    | false => exact Task.keeps_done fun files holds => holds
    | true => exact keeps_prepare fun files holds => holds

end AtomicWrite

@[simp] theorem b64encode_encodable (data : Bytes) : Encodable (b64encode data) := .str _

@[simp] theorem sorted_b64encode (data : Bytes) : (b64encode data).sorted = b64encode data := rfl

@[simp] theorem b64decode_b64encode (name : String) (data : Bytes) :
    b64decode name (some (b64encode data)) = .ok data := by
  simp [b64decode, b64encode, Base64.decode_encode]

theorem aeadPayload_writes (nonce : Bytes) : Writes ["name", "nonce"] (aeadPayload nonce) :=
  ⟨rfl, by simp [fieldsOf, aeadPayload, field], by simp⟩

@[simp] theorem aeadPayload_encodable (nonce : Bytes) : Encodable (aeadPayload nonce) := by
  apply (aeadPayload_writes nonce).encodable
  simp [fieldsOf, aeadPayload, field]

theorem loadJsonFile_canonical {files : StoreFiles} {path : StorePath}
    {file : StoredFile} {payload : PyJson}
    {allowed : List String} (written : Writes allowed payload) (encodable : Encodable payload)
    (found : files.get? path = some (.file file))
    (contents : file.data = canonicalJsonBytes payload) :
    loadJsonFile files path = .ok (readBack payload) := by
  have same : payload.sorted = .obj (readBack payload) := by
    rw [written.object, Json.sorted_obj]
    rfl
  simp only [loadJsonFile, found, contents, loadJsonBytes_canonical encodable, same]

/-- What was encrypted under the keys of the store is decrypted again. -/
theorem openCiphertext_encrypted (keys : StoreKeys) {nonce : Bytes}
    (nonceLength : nonce.length = 12) {raw : Fields} {data : Bytes}
    {associated : Bytes} (label : String) (badAead tampered : ObjectsError)
    (aead : raw.lookup "aead".toList = some (aeadPayload nonce).sorted)
    (ciphertext : raw.lookup "ciphertext".toList = some
      (b64encode (keys.aead.encrypt nonce data associated))) :
    openCiphertext keys raw label associated badAead tampered = .ok data := by
  have written := aeadPayload_writes nonce
  have shape : (aeadPayload nonce).sorted = .obj (readBack (aeadPayload nonce)) := Json.sorted_obj _
  have name := written.found 0 rfl
  have nonceField := written.found 1 rfl
  have opened := keys.aead.decrypt_encrypt nonce data associated nonceLength
  rw [shape] at aead
  simp only [openCiphertext, aead, name, sorted_str, decide_true, ensure, if_true, bind_ok,
    nonceField, sorted_b64encode, b64decode_b64encode, ciphertext, opened]

theorem encryptedObject_writes (keys : StoreKeys) (nonce : Bytes) (id : Text) (data : Bytes) :
    Writes ["format", "version", "storage_id", "aead", "ciphertext"]
      (encryptedObject keys nonce id data) :=
  ⟨rfl, by simp [fieldsOf, encryptedObject, field], by simp⟩

@[simp] theorem encryptedObject_encodable (keys : StoreKeys) (nonce : Bytes)
    (id : Text) (data : Bytes) :
    Encodable (encryptedObject keys nonce id data) := by
  apply (encryptedObject_writes keys nonce id data).encodable
  simp [fieldsOf, encryptedObject, field]

@[simp] theorem equalsNat_natJson (number : Nat) :
    equalsNat number (some (natJson number)) = true := by
  simp [equalsNat, natJson]

def idOf (keys : StoreKeys) (objectHash : Text) : Text :=
  blake3HexDigest keys.keyed (encodeUtf8 objectHash)

theorem storageId_of_valid (keys : StoreKeys) {objectHash : Text}
    (valid : isValidBlake3Hex objectHash = true) :
    storageId keys objectHash = .ok (idOf keys objectHash) := by
  simp [storageId, valid, ensure, idOf]

/-- The path of an object. -/
def pathOf (keys : StoreKeys) (objectHash : Text) : StorePath := objectPath (idOf keys objectHash)

theorem isTemp_pathOf (keys : StoreKeys) (objectHash : Text) :
    isTemp (pathOf keys objectHash) = false := isTemp_objectPath _

section Reading

variable {blake3 : Blake3} {keys : StoreKeys} {files after : StoreFiles}
  {objectHash : Text} {data : Bytes}

theorem readObject_valid (found : readObject blake3 keys files objectHash = .ok data) :
    isValidBlake3Hex objectHash = true := by
  obtain ⟨id, identified, -⟩ := bind_eq_ok_iff.mp found
  exact (ensure_bind_eq_ok_iff.mp identified).1

/-- Only the file of the object matters. -/
theorem readObject_congr
    (same : after.get? (pathOf keys objectHash) = files.get? (pathOf keys objectHash)) :
    readObject blake3 keys after objectHash = readObject blake3 keys files objectHash := by
  by_cases valid : isValidBlake3Hex objectHash = true
  · rw [readObject, readObject, storageId_of_valid keys valid, bind_ok, bind_ok]
    change after.get? (objectPath (idOf keys objectHash)) = files.get?
      (objectPath (idOf keys objectHash)) at same
    simp only [loadJsonFile, same]
  · have refused : storageId keys objectHash = .error
      (.store "object_hash debe ser hex lowercase de 64 caracteres") := by
      simp only [storageId, ensure, valid]
      rfl
    rw [readObject, readObject, refused]
    rfl

theorem readObject_present (found : readObject blake3 keys files objectHash = .ok data) :
    (files.get? (pathOf keys objectHash)).isSome = true := by
  rw [readObject, storageId_of_valid keys (readObject_valid found), bind_ok] at found
  exact (ensure_bind_eq_ok_iff.mp found).1

theorem readObject_hash (found : readObject blake3 keys files objectHash = .ok data) :
    blake3HexDigest blake3 data = objectHash := by
  obtain ⟨id, -, rest⟩ := bind_eq_ok_iff.mp found
  obtain ⟨-, rest⟩ := ensure_bind_eq_ok_iff.mp rest
  obtain ⟨raw, -, rest⟩ := bind_eq_ok_iff.mp rest
  obtain ⟨-, rest⟩ := ensure_bind_eq_ok_iff.mp rest
  obtain ⟨-, rest⟩ := ensure_bind_eq_ok_iff.mp rest
  obtain ⟨-, rest⟩ := ensure_bind_eq_ok_iff.mp rest
  obtain ⟨plaintext, -, rest⟩ := bind_eq_ok_iff.mp rest
  obtain ⟨hashed, returned⟩ := ensure_bind_eq_ok_iff.mp rest
  cases pure_eq_ok_iff.mp returned
  exact of_decide_eq_true hashed

/-- An object that was written is read back. -/
theorem readObject_written {nonce : Bytes} {mtime : Int} {inode : Nat}
    (nonceLength : nonce.length = 12) (hashed : blake3HexDigest blake3 data = objectHash)
    (stored : files.get? (pathOf keys objectHash) = some (.file
      { data := canonicalJsonBytes (encryptedObject keys nonce (idOf keys objectHash) data),
        mtime, inode })) :
    readObject blake3 keys files objectHash = .ok data := by
  have valid : isValidBlake3Hex objectHash = true := hashed ▸ blake3HexDigest_valid blake3 data
  have written := encryptedObject_writes keys nonce (idOf keys objectHash) data
  have loaded := loadJsonFile_canonical written
    (encryptedObject_encodable keys nonce (idOf keys objectHash) data) stored rfl
  have format := written.found 0 rfl
  have version := written.found 1 rfl
  have id := written.found 2 rfl
  have aead := written.found 3 rfl
  have ciphertext := written.found 4 rfl
  rw [sorted_b64encode] at ciphertext
  change loadJsonFile files (objectPath (idOf keys objectHash)) = _ at loaded
  change files.get? (objectPath (idOf keys objectHash)) = _ at stored
  rw [readObject, storageId_of_valid keys valid, bind_ok]
  simp only [stored, Option.isSome_some, ensure, if_true, bind_ok, loaded, format, version, id,
    sorted_str, sorted_natJson,
    decide_true, equalsNat_natJson, openCiphertext_encrypted keys nonceLength _ _ _ aead ciphertext,
      hashed]
  rfl

end Reading

theorem IgnoresTemps.and {left right : StoreFiles → Prop} (first : IgnoresTemps left)
    (second : IgnoresTemps right) :
    IgnoresTemps fun files => left files ∧ right files :=
  fun files after agrees holds => ⟨first files after agrees holds.1,
    second files after agrees holds.2⟩

section Putting

variable {blake3 : Blake3} {keys : StoreKeys} {environment : StoreEnvironment}
  {encoded : EncodedMetadataObject}
  {always pre after : StoreFiles → Prop}

/-- The file that a new object gets. -/
def StoreEnvironment.objectEntry (environment : StoreEnvironment) (keys : StoreKeys)
    (encoded : EncodedMetadataObject) (inode : Nat) :
    StoredEntry :=
  .file {
    data := canonicalJsonBytes
      (encryptedObject keys (environment.nonce (pathOf keys encoded.objectHash))
      (idOf keys encoded.objectHash) encoded.canonicalBytes)
    mtime := environment.now
    inode }

theorem keeps_putObjectNoParentFsync (alwaysIgnores : IgnoresTemps always)
    (preIgnores : IgnoresTemps pre)
    (afterIgnores : IgnoresTemps after) (start : ∀ files, pre files → always files)
    (reused : ∀ files, pre files →
      blake3HexDigest blake3 encoded.canonicalBytes = encoded.objectHash →
      (files.get? (pathOf keys encoded.objectHash)).isSome = true → after files)
    (written : ∀ files inode, pre files →
      blake3HexDigest blake3 encoded.canonicalBytes = encoded.objectHash →
      files.get? (pathOf keys encoded.objectHash) = none →
      always (files.set (pathOf keys encoded.objectHash)
        (environment.objectEntry keys encoded inode)) ∧
      after (files.set (pathOf keys encoded.objectHash)
        (environment.objectEntry keys encoded inode))) :
    Task.Keeps always pre (putObjectNoParentFsync blake3 keys environment encoded)
      fun _ => after := by
  apply Task.Keeps.bind (fun _ files => pre files ∧
    blake3HexDigest blake3 encoded.canonicalBytes = encoded.objectHash)
  · apply Task.keeps_inspect
    intro files holds
    refine ⟨start files holds, fun _ validated => ⟨holds, ?_⟩⟩
    by_contra different
    simp [validateEncodedObject, different, ensure] at validated
  intro _
  apply Task.Keeps.bind (fun id files => id = idOf keys encoded.objectHash ∧ pre files ∧
    blake3HexDigest blake3 encoded.canonicalBytes = encoded.objectHash)
  · apply Task.keeps_inspect
    intro files holds
    refine ⟨start files holds.1, fun id identified => ⟨?_, holds⟩⟩
    have valid : isValidBlake3Hex encoded.objectHash = true :=
      holds.2 ▸ blake3HexDigest_valid blake3 _
    rw [storageId_of_valid keys valid] at identified
    exact (Except.ok.inj identified).symm
  intro id
  apply Task.Keeps.bind (fun present files => (id = idOf keys encoded.objectHash ∧ pre files ∧
    blake3HexDigest blake3 encoded.canonicalBytes = encoded.objectHash) ∧
      (files.get? (objectPath id)).isSome = present)
  · apply Task.keeps_inspect
    intro files holds
    exact ⟨start files holds.2.1, fun present looked => ⟨holds, Except.ok.inj looked⟩⟩
  intro present
  cases present with
  | true =>
      apply Task.keeps_done
      rintro files ⟨⟨rfl, holds, hashed⟩, exists_⟩
      exact ⟨start files holds, reused files holds hashed exists_⟩
  | false =>
      have ignoring : IgnoresTemps fun files => id = idOf keys encoded.objectHash ∧ pre files ∧
          blake3HexDigest blake3 encoded.canonicalBytes = encoded.objectHash ∧
            files.get? (objectPath id) = none :=
        fun files other agrees holds => ⟨holds.1, preIgnores files other agrees holds.2.1,
          holds.2.2.1, (agrees _ (isTemp_objectPath id)).trans holds.2.2.2⟩
      apply Task.Keeps.bind (fun _ files => id = idOf keys encoded.objectHash ∧ pre files ∧
        blake3HexDigest blake3 encoded.canonicalBytes = encoded.objectHash ∧
          files.get? (objectPath id) = none)
      · apply keeps_prepare
        rintro files ⟨⟨same, holds, hashed⟩, absent⟩
        exact ⟨start files holds, same, holds, hashed, by simpa using absent⟩
      intro _
      apply Task.Keeps.bind (fun _ files => always files ∧ after files)
      · apply keeps_atomicWriteBytes false alwaysIgnores ignoring (alwaysIgnores.and afterIgnores)
          (fun files holds => start files holds.2.1)
        rintro files inode ⟨rfl, holds, hashed, absent⟩
        have both := written files inode holds hashed absent
        exact ⟨both.1, both⟩
      intro _
      exact Task.keeps_done fun files holds => holds

end Putting

end Stopan.Objects
