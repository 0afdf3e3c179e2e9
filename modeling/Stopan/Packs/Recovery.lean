import Stopan.Lib.Runs
import Stopan.Common.Basic

/-!
Generations of metadata packs over the life of an owner: exports and pushes, losses of the machine,
and recoveries from the custodians that can be reached (`stopan/metadata/packs/object_pack.py` and
`recover.py`).
-/

namespace Stopan.Packs

open Stopan.Lib Stopan.Common

/-- What recovery compares of a decrypted pack. -/
structure MetadataPack where
  packHash : Text
  vaultId : Text
  generation : Nat
  deriving DecidableEq, Repr

/-- The machine of the owner: the vault that `latest.json` names, the generation files of its object
store, and its local packs. -/
structure Machine where
  vaultId : Text
  generations : Dict Text Nat
  packs : List MetadataPack

def readPackGeneration (machine : Machine) (vaultId : Text) : Nat :=
  (machine.generations.get? vaultId).getD 0

def writePackGeneration (machine : Machine) (vaultId : Text) (generation : Nat) : Machine :=
  { machine with generations := machine.generations.set vaultId generation }

def nextPackGeneration (machine : Machine) (vaultId : Text) : Machine × Nat :=
  let generation := readPackGeneration machine vaultId + 1
  (writePackGeneration machine vaultId generation, generation)

def rememberPackGeneration (machine : Machine) (vaultId : Text) (generation : Nat) : Machine :=
  if readPackGeneration machine vaultId < generation then
    writePackGeneration machine vaultId generation else machine

/-- `export_latest_pack`. The encryption draws its nonce anew, which decides the hash of the
pack. -/
def exportLatestPack (machine : Machine) (packHash : Text) : Machine × MetadataPack :=
  let advanced := nextPackGeneration machine machine.vaultId
  let pack : MetadataPack := { packHash, vaultId := machine.vaultId, generation := advanced.2 }
  ({ advanced.1 with packs := advanced.1.packs ++ [pack] }, pack)

/-- `import_pack`, on a machine that may be new. -/
def importPack (machine : Option Machine) (pack : MetadataPack) : Machine :=
  let existing := machine.getD { vaultId := pack.vaultId, generations := .empty, packs := [] }
  rememberPackGeneration { existing with vaultId := pack.vaultId,
                                         packs := existing.packs ++ [pack] }
    pack.vaultId pack.generation

inductive RecoverError where
  | noPacks (targetHash : Option Text)
  | noneValid
  | noneForVault (vaultId : Text)
  | severalVaults (vaultIds : List Text)
  deriving DecidableEq, Repr

/-- A pack stored at a custodian. -/
structure Copy where
  nodeId : Text
  pack : MetadataPack
  deriving DecidableEq, Repr

/-- The custodians that answer the listing, and the copies that can be retrieved and validated. -/
structure Reach where
  lists : Text → Bool
  retrieves : Copy → Bool

def Reach.everything : Reach where
  lists := fun _ => true
  retrieves := fun _ => true

def listedCopies (reach : Reach) (copies : List Copy) (targetHash : Option Text) : List Copy :=
  copies.filter fun copy => reach.lists copy.nodeId && targetHash.all fun hash => decide
    (copy.pack.packHash = hash)

/-- The packs of which some copy is retrieved, in the order of their hashes. -/
def validDownloads (reach : Reach) (listed : List Copy) : List MetadataPack :=
  (orderedUnique ((listed.filter reach.retrieves).map Copy.pack)).insertionSort
    fun left right => left.packHash ≤ right.packHash

/-- The order of `(vault_generation, pack_hash)`. -/
def precedes (left right : MetadataPack) : Bool :=
  decide (left.generation < right.generation) ||
    (decide (left.generation = right.generation) && decide (left.packHash < right.packHash))

/-- `max` with the key `(vault_generation, pack_hash)`. -/
def bestPack : List MetadataPack → Option MetadataPack
  | [] => none
  | first :: rest =>
      some (rest.foldl (fun best item => if precedes best item then item else best) first)

/-- The choice made by `recover_metadata_from_network`. -/
def selectPack (reach : Reach) (copies : List Copy) (vaultId targetHash : Option Text) :
    Except RecoverError MetadataPack :=
  let listed := listedCopies reach copies targetHash
  if listed.isEmpty then .error (.noPacks targetHash)
  else
    let downloads := validDownloads reach listed
    match vaultId with
    | some requested =>
        match bestPack (downloads.filter fun pack => decide (pack.vaultId = requested)) with
        | some best => .ok best
        | none => if downloads.isEmpty then .error .noneValid else .error (.noneForVault requested)
    | none =>
        let vaultIds := orderedUnique (downloads.map MetadataPack.vaultId)
        if targetHash.isNone && decide (1 < vaultIds.length) then .error (.severalVaults vaultIds)
        else match bestPack downloads with
          | some best => .ok best
          | none => .error .noneValid

structure Owner where
  /-- `none` between a loss and the next recovery. -/
  machine : Option Machine
  copies : List Copy
  /-- Every pack ever exported, in real order. -/
  exported : List MetadataPack

inductive OwnerEvent where
  | export (packHash : Text)
  /-- A local pack reaches the given custodians. -/
  | push (pack : MetadataPack) (nodeIds : List Text)
  | loseMachine
  | recover (reach : Reach) (vaultId targetHash : Option Text)

def Owner.start (vaultId : Text) : Owner where
  machine := some { vaultId, generations := .empty, packs := [] }
  copies := []
  exported := []

/-- One step; `none` when the event cannot happen. An export has a hash that no other pack has, and
a recovery that raises changes nothing. -/
def ownerStep (owner : Owner) : OwnerEvent → Option Owner
  | .export packHash =>
      match owner.machine with
      | none => none
      | some machine =>
          if owner.exported.any fun pack => decide (pack.packHash = packHash) then none
          else some { owner with
            machine := some (exportLatestPack machine packHash).1
            exported := owner.exported ++ [(exportLatestPack machine packHash).2] }
  | .push pack nodeIds =>
      match owner.machine with
      | none => none
      | some machine =>
          if machine.packs.contains pack then
            some { owner with copies := owner.copies ++ nodeIds.map fun nodeId => { nodeId, pack } }
          else none
  | .loseMachine => some { owner with machine := none }
  | .recover reach vaultId targetHash =>
      match selectPack reach owner.copies vaultId targetHash with
      | .error _ => some owner
      | .ok pack => some { owner with machine := some (importPack owner.machine pack) }

def Owner.stores (owner : Owner) (pack : MetadataPack) : Bool :=
  owner.copies.any fun copy => decide (copy.pack = pack)

/-- The pack exported last among those that the custodians hold. -/
def Owner.newest? (owner : Owner) : Option MetadataPack :=
  (owner.exported.filter owner.stores).getLast?

theorem mem_validDownloads {reach : Reach} {listed : List Copy} {pack : MetadataPack} :
    pack ∈ validDownloads reach listed ↔ ∃ copy ∈ listed, reach.retrieves copy = true ∧
      copy.pack = pack := by
  simp [validDownloads, mem_orderedUnique, and_assoc]

/-- One comparison of `max` keeps a generation at least as large as both. -/
private theorem keepBest_generation (best item : MetadataPack) :
    best.generation ≤ (if precedes best item then item else best).generation ∧
      item.generation ≤ (if precedes best item then item else best).generation := by
  cases order : precedes best item with
  | true =>
      simp only [precedes, Bool.or_eq_true, Bool.and_eq_true, decide_eq_true_eq] at order
      simp only [if_true]
      omega
  | false =>
      simp only [precedes, Bool.or_eq_false_iff, decide_eq_false_iff_not] at order
      simp only [Bool.false_eq_true, if_false]
      omega

private theorem foldl_keepBest (first : MetadataPack) (rest : List MetadataPack) :
    rest.foldl (fun best item => if precedes best item then item else best) first ∈ first :: rest ∧
      ∀ item ∈ first :: rest, item.generation ≤
        (rest.foldl (fun best item => if precedes best item then item
          else best) first).generation := by
  induction rest generalizing first with
  | nil => simp
  | cons next rest ih =>
      have kept := keepBest_generation first next
      obtain ⟨member, largest⟩ := ih (if precedes first next then next else first)
      have bound := largest _ (List.mem_cons_self ..)
      rw [List.foldl_cons]
      constructor
      · rcases List.mem_cons.mp member with chosen | later
        · rw [chosen]
          split <;> simp
        · exact List.mem_cons_of_mem _ (List.mem_cons_of_mem _ later)
      · intro item inside
        rcases List.mem_cons.mp inside with rfl | inside
        · exact le_trans kept.1 bound
        · rcases List.mem_cons.mp inside with rfl | inside
          · exact le_trans kept.2 bound
          · exact largest item (List.mem_cons_of_mem _ inside)

theorem bestPack_spec {packs : List MetadataPack} {best : MetadataPack}
    (chosen : bestPack packs = some best) :
    best ∈ packs ∧ ∀ pack ∈ packs, pack.generation ≤ best.generation := by
  cases packs with
  | nil => cases chosen
  | cons first rest =>
      rw [bestPack, Option.some.injEq] at chosen
      rw [← chosen]
      exact foldl_keepBest first rest

/-- A pack whose generation is above that of every other candidate is the choice. -/
theorem bestPack_eq_of_above {packs : List MetadataPack} {newest : MetadataPack}
    (member : newest ∈ packs)
    (above : ∀ pack ∈ packs, pack ≠ newest → pack.generation < newest.generation) :
    bestPack packs = some newest := by
  cases chosen : bestPack packs with
  | none =>
      cases packs with
      | nil => cases member
      | cons first rest => cases chosen
  | some best =>
      obtain ⟨inside, largest⟩ := bestPack_spec chosen
      by_contra different
      have smaller := above best inside fun equal => different (congrArg some equal)
      have atLeast := largest newest member
      omega

theorem selectPack_stored {reach : Reach} {copies : List Copy} {vaultId targetHash : Option Text}
    {pack : MetadataPack} (selected : selectPack reach copies vaultId targetHash = .ok pack) :
    ∃ copy ∈ copies, copy.pack = pack := by
  have fromDownloads : pack ∈ validDownloads reach (listedCopies reach copies targetHash) := by
    simp only [selectPack] at selected
    split at selected
    · cases selected
    · cases vaultId with
      | some requested =>
          dsimp only at selected
          split at selected
          · rename_i best chosen
            cases selected
            exact List.mem_of_mem_filter (bestPack_spec chosen).1
          · split at selected <;> cases selected
      | none =>
          dsimp only at selected
          split at selected
          · cases selected
          · split at selected
            · rename_i best chosen
              cases selected
              exact (bestPack_spec chosen).1
            · cases selected
  obtain ⟨copy, listed, -, same⟩ := mem_validDownloads.mp fromDownloads
  exact ⟨copy, List.mem_of_mem_filter listed, same⟩

theorem orderedUnique_length_le_one {values : List Text} {value : Text}
    (same : ∀ other ∈ values, other = value) : (orderedUnique values).length ≤ 1 := by
  have only : orderedUnique values ⊆ [value] := by
    intro other member
    simpa using same other (mem_orderedUnique.mp member)
  exact ((orderedUnique_nodup values).subperm only).length_le

/-- With every custodian reachable and one vault, the choice is the pack above all others. -/
theorem selectPack_everything {copies : List Copy} {newest : MetadataPack} {requested : Option Text}
    (stored : ∃ copy ∈ copies, copy.pack = newest)
    (oneVault : ∀ copy ∈ copies, copy.pack.vaultId = newest.vaultId)
    (asked : requested.getD newest.vaultId = newest.vaultId)
    (above : ∀ copy ∈ copies, copy.pack ≠ newest → copy.pack.generation < newest.generation) :
    selectPack .everything copies requested none = .ok newest := by
  have listed : listedCopies .everything copies none = copies := by
    simp [listedCopies, Reach.everything]
  have downloaded : ∀ pack, pack ∈ validDownloads .everything copies ↔
      ∃ copy ∈ copies, copy.pack = pack := by
    intro pack
    simp [mem_validDownloads, Reach.everything]
  have candidates : ∀ pack ∈ validDownloads .everything copies,
      pack.vaultId = newest.vaultId ∧ (pack ≠ newest → pack.generation < newest.generation) := by
    intro pack member
    obtain ⟨copy, held, rfl⟩ := (downloaded pack).mp member
    exact ⟨oneVault copy held, above copy held⟩
  have chosen : bestPack (validDownloads .everything copies) = some newest :=
    bestPack_eq_of_above ((downloaded newest).mpr stored) fun pack member =>
      (candidates pack member).2
  have vaults : (orderedUnique
      ((validDownloads .everything copies).map MetadataPack.vaultId)).length ≤ 1 := by
    apply orderedUnique_length_le_one
    intro vaultId member
    obtain ⟨pack, inside, rfl⟩ := List.mem_map.mp member
    exact (candidates pack inside).1
  have notEmpty : copies.isEmpty = false := by
    obtain ⟨copy, held, -⟩ := stored
    cases copies with
    | nil => cases held
    | cons first rest => rfl
  simp only [selectPack, listed, notEmpty, Bool.false_eq_true, if_false]
  cases requested with
  | none => simp [chosen, Nat.not_lt.mpr vaults]
  | some vaultId =>
      have every : (validDownloads .everything copies).filter
          (fun pack => decide (pack.vaultId = vaultId)) = validDownloads .everything copies := by
        rw [List.filter_eq_self]
        intro pack member
        rw [(candidates pack member).1, ← asked]
        simp
      simp only [every, chosen]

theorem readPackGeneration_write (machine : Machine) (vaultId : Text) (generation : Nat) :
    readPackGeneration (writePackGeneration machine vaultId generation) vaultId = generation := by
  simp [readPackGeneration, writePackGeneration]

theorem rememberPackGeneration_read (machine : Machine) (vaultId : Text) (generation : Nat) :
    readPackGeneration (rememberPackGeneration machine vaultId generation) vaultId =
      max (readPackGeneration machine vaultId) generation := by
  rw [rememberPackGeneration]
  split
  · rw [readPackGeneration_write]
    omega
  · omega

@[simp] theorem rememberPackGeneration_packs (machine : Machine) (vaultId : Text)
    (generation : Nat) :
    (rememberPackGeneration machine vaultId generation).packs = machine.packs := by
  rw [rememberPackGeneration]
  split <;> rfl

@[simp] theorem rememberPackGeneration_vaultId (machine : Machine) (vaultId : Text)
    (generation : Nat) :
    (rememberPackGeneration machine vaultId generation).vaultId = machine.vaultId := by
  rw [rememberPackGeneration]
  split <;> rfl

def Owner.holds (owner : Owner) (pack : MetadataPack) : Prop :=
  ∃ machine, owner.machine = some machine ∧ pack ∈ machine.packs

/-- A pack that a push or a recovery can still bring back. -/
def Owner.Live (owner : Owner) (pack : MetadataPack) : Prop :=
  owner.stores pack = true ∨ owner.holds pack

/-- The packs that can come back carry generations in the order of their exports. -/
structure OrderedPacks (vaultId : Text) (owner : Owner) : Prop where
  machineVault : ∀ machine, owner.machine = some machine → machine.vaultId = vaultId
  packVault : ∀ pack ∈ owner.exported, pack.vaultId = vaultId
  known : ∀ pack, owner.Live pack → pack ∈ owner.exported
  marked : ∀ machine, owner.machine = some machine → ∀ pack ∈ machine.packs,
    pack.generation ≤ readPackGeneration machine vaultId
  ordered : owner.exported.Pairwise fun earlier later =>
    owner.Live earlier → owner.Live later → earlier.generation < later.generation

theorem OrderedPacks.start (vaultId : Text) : OrderedPacks vaultId (Owner.start vaultId) where
  machineVault := by
    intro machine found
    cases found
    rfl
  packVault := by simp [Owner.start]
  known := by simp [Owner.start, Owner.Live, Owner.stores, Owner.holds]
  marked := by simp [Owner.start]
  ordered := List.Pairwise.nil

/-- The export follows every pack that the custodians hold: the marker of the machine has reached
their generations. -/
def exportFollows (owner : Owner) : OwnerEvent → Bool
  | .export _ =>
      match owner.machine with
      | none => true
      | some machine => owner.copies.all fun copy =>
          decide (copy.pack.generation ≤ readPackGeneration machine machine.vaultId)
  | .push _ _ | .loseMachine | .recover _ _ _ => true

section Steps

variable {vaultId : Text} {owner next : Owner}

theorem Owner.stores_iff {pack : MetadataPack} : owner.stores pack = true ↔
    ∃ copy ∈ owner.copies, copy.pack = pack := by
  simp [Owner.stores]

/-- A step after which fewer packs can come back keeps their order. -/
theorem OrderedPacks.shrink (ordered : OrderedPacks vaultId owner)
    (sameExports : next.exported = owner.exported)
    (fewer : ∀ pack, next.Live pack → owner.Live pack)
    (machineVault : ∀ machine, next.machine = some machine → machine.vaultId = vaultId)
    (marked : ∀ machine, next.machine = some machine → ∀ pack ∈ machine.packs,
      pack.generation ≤ readPackGeneration machine vaultId) : OrderedPacks vaultId next where
  machineVault := machineVault
  packVault := by
    rw [sameExports]
    exact ordered.packVault
  known pack live := by
    rw [sameExports]
    exact ordered.known pack (fewer pack live)
  marked := marked
  ordered := by
    rw [sameExports]
    exact ordered.ordered.imp fun below earlier later => below (fewer _ earlier) (fewer _ later)

theorem OrderedPacks.push (ordered : OrderedPacks vaultId owner) {pack : MetadataPack}
    {nodeIds : List Text} (local_ : owner.holds pack) :
    OrderedPacks vaultId
      { owner with copies := owner.copies ++ nodeIds.map fun nodeId => { nodeId, pack } } := by
  refine ordered.shrink rfl ?_ ordered.machineVault ordered.marked
  intro other live
  rcases live with stored | held
  · obtain ⟨copy, member, same⟩ := Owner.stores_iff.mp stored
    rcases List.mem_append.mp member with old | new
    · exact .inl (Owner.stores_iff.mpr ⟨copy, old, same⟩)
    · obtain ⟨nodeId, -, rfl⟩ := List.mem_map.mp new
      cases same
      exact .inr local_
  · exact .inr held

theorem OrderedPacks.lose (ordered : OrderedPacks vaultId owner) :
    OrderedPacks vaultId { owner with machine := none } := by
  refine ordered.shrink rfl ?_ (fun machine found => nomatch found)
    (fun machine found => nomatch found)
  intro other live
  rcases live with stored | ⟨machine, found, -⟩
  · exact .inl stored
  · cases found

theorem importPack_mem {machine : Option Machine} {pack other : MetadataPack}
    (member : other ∈ (importPack machine pack).packs) :
    other = pack ∨ ∃ existing, machine = some existing ∧ other ∈ existing.packs := by
  simp only [importPack, rememberPackGeneration_packs, List.mem_append,
    List.mem_singleton] at member
  rcases member with old | new
  · cases machine with
    | none => cases old
    | some existing => exact .inr ⟨existing, rfl, old⟩
  · exact .inl new

theorem OrderedPacks.imported (ordered : OrderedPacks vaultId owner) {pack : MetadataPack}
    (stored : owner.stores pack = true) :
    OrderedPacks vaultId { owner with machine := some (importPack owner.machine pack) } := by
  have vault : pack.vaultId = vaultId := ordered.packVault pack (ordered.known pack (.inl stored))
  refine ordered.shrink rfl ?_ ?_ ?_
  · intro other live
    rcases live with stored | ⟨machine, found, member⟩
    · exact .inl stored
    · cases found
      rcases importPack_mem member with rfl | ⟨existing, present, held⟩
      · exact .inl stored
      · exact .inr ⟨existing, present, held⟩
  · intro machine found
    cases found
    simp [importPack, vault]
  · intro machine found other member
    cases found
    rcases importPack_mem member with rfl | ⟨existing, present, held⟩
    · simp only [importPack, vault, rememberPackGeneration_read]
      omega
    · have bound := ordered.marked existing present other held
      simp only [importPack, vault, rememberPackGeneration_read, present, Option.getD_some]
      exact le_max_of_le_left bound

theorem OrderedPacks.export (ordered : OrderedPacks vaultId owner)
    {machine : Machine} {packHash : Text} (present : owner.machine = some machine)
    (fresh : ∀ pack ∈ owner.exported, pack.packHash ≠ packHash)
    (follows : ∀ copy ∈ owner.copies, copy.pack.generation ≤
      readPackGeneration machine machine.vaultId) :
    OrderedPacks vaultId { owner with
      machine := some (exportLatestPack machine packHash).1
      exported := owner.exported ++ [(exportLatestPack machine packHash).2] } := by
  have vault := ordered.machineVault machine present
  have pack_eq : (exportLatestPack machine packHash).2 =
      { packHash, vaultId, generation := readPackGeneration machine vaultId + 1 } := by
    rw [← vault]
    rfl
  have packs_eq : (exportLatestPack machine packHash).1.packs = machine.packs ++
      [(exportLatestPack machine packHash).2] := rfl
  have marker : readPackGeneration (exportLatestPack machine packHash).1 vaultId =
      readPackGeneration machine vaultId + 1 := by
    rw [← vault]
    exact readPackGeneration_write _ _ _
  have earlier : ∀ pack, pack ≠ (exportLatestPack machine packHash).2 →
      Owner.Live { owner with
        machine := some (exportLatestPack machine packHash).1
        exported := owner.exported ++ [(exportLatestPack machine packHash).2] } pack →
      owner.Live pack ∧ pack.generation ≤ readPackGeneration machine vaultId := by
    intro pack different live
    rcases live with stored | ⟨changed, found, member⟩
    · obtain ⟨copy, held, rfl⟩ := Owner.stores_iff.mp stored
      exact ⟨.inl stored, vault ▸ follows copy held⟩
    · cases found
      rw [packs_eq, List.mem_append, List.mem_singleton] at member
      have held := member.resolve_right different
      exact ⟨.inr ⟨machine, present, held⟩, ordered.marked machine present pack held⟩
  have newHash : ∀ pack ∈ owner.exported, pack ≠ (exportLatestPack machine packHash).2 := by
    rintro pack member rfl
    exact fresh _ member rfl
  constructor
  · intro changed found
    cases found
    exact vault
  · intro pack member
    rcases List.mem_append.mp member with old | new
    · exact ordered.packVault pack old
    · rw [List.mem_singleton.mp new, pack_eq]
  · intro pack live
    by_cases same : pack = (exportLatestPack machine packHash).2
    · simp [same]
    · exact List.mem_append_left _ (ordered.known pack (earlier pack same live).1)
  · intro changed found pack member
    cases found
    rw [marker]
    rw [packs_eq, List.mem_append, List.mem_singleton] at member
    rcases member with old | rfl
    · exact le_trans (ordered.marked machine present pack old) (Nat.le_succ _)
    · rw [pack_eq]
  · rw [List.pairwise_append]
    refine ⟨?_, List.pairwise_singleton .., ?_⟩
    · refine ordered.ordered.imp_of_mem
        fun {left right} leftMember rightMember below leftLive rightLive => ?_
      exact below (earlier left (newHash left leftMember) leftLive).1
        (earlier right (newHash right rightMember) rightLive).1
    · intro left member right single leftLive rightLive
      have bound := (earlier left (newHash left member) leftLive).2
      rw [List.mem_singleton.mp single, pack_eq]
      exact Nat.lt_succ_of_le bound

theorem ownerStep_ordered {event : OwnerEvent} (ordered : OrderedPacks vaultId owner)
    (follows : exportFollows owner event = true) (stepped : ownerStep owner event = some next) :
    OrderedPacks vaultId next := by
  cases event with
  | «export» packHash =>
      cases present : owner.machine with
      | none => simp [ownerStep, present] at stepped
      | some machine =>
          simp only [ownerStep, present] at stepped
          split at stepped
          · cases stepped
          · rename_i fresh
            cases stepped
            simp only [exportFollows, present, List.all_eq_true, decide_eq_true_eq] at follows
            exact ordered.export present (by simpa using fresh) follows
  | push pack nodeIds =>
      cases present : owner.machine with
      | none => simp [ownerStep, present] at stepped
      | some machine =>
          simp only [ownerStep, present] at stepped
          split at stepped
          · rename_i held
            cases stepped
            rw [← present]
            exact ordered.push ⟨machine, present, by simpa using held⟩
          · cases stepped
  | loseMachine =>
      cases stepped
      exact ordered.lose
  | recover reach vault targetHash =>
      simp only [ownerStep] at stepped
      split at stepped
      · cases stepped
        exact ordered
      · rename_i pack selected
        cases stepped
        exact ordered.imported (Owner.stores_iff.mpr (selectPack_stored selected))

end Steps

/-- The pack exported last among those that the custodians hold has the largest generation. -/
theorem OrderedPacks.newest_above {vaultId : Text} {owner : Owner} {newest : MetadataPack}
    (ordered : OrderedPacks vaultId owner) (last : owner.newest? = some newest) :
    owner.stores newest = true ∧ newest.vaultId = vaultId ∧
      ∀ pack, owner.stores pack = true → pack ≠ newest → pack.generation < newest.generation := by
  obtain ⟨before, split⟩ := List.getLast?_eq_some_iff.mp last
  have among : newest ∈ owner.exported.filter owner.stores := by simp [split]
  obtain ⟨exported, stored⟩ := List.mem_filter.mp among
  refine ⟨stored, ordered.packVault newest exported, ?_⟩
  intro pack held different
  have inside : pack ∈ owner.exported.filter owner.stores :=
    List.mem_filter.mpr ⟨ordered.known pack (.inl held), held⟩
  have pairs := ordered.ordered.filter owner.stores
  rw [split] at inside pairs
  rcases List.mem_append.mp inside with earlier | single
  · exact (List.pairwise_append.mp pairs).2.2 pack earlier newest (by simp)
      (.inl held) (.inl stored)
  · exact absurd (List.mem_singleton.mp single) different

/-- In every history whose exports each follow all the packs that the custodians hold, a recovery
that reaches every custodian selects the pack exported last of those they hold. -/
theorem recovery_selectsNewest {vaultId : Text} {events : List OwnerEvent} {after : Owner}
    {newest : MetadataPack} {requested : Option Text}
    (ran : runEvents ownerStep (Owner.start vaultId) events = some after)
    (follows : EventsMeet ownerStep (fun owner event => exportFollows owner event = true)
      (Owner.start vaultId) events)
    (last : after.newest? = some newest) (asked : requested.getD vaultId = vaultId) :
    selectPack .everything after.copies requested none = .ok newest := by
  have ordered : OrderedPacks vaultId after :=
    runEvents_invariant (OrderedPacks vaultId)
      (fun _ _ _ holds meets stepped => ownerStep_ordered holds meets stepped)
        (OrderedPacks.start vaultId) follows ran
  obtain ⟨stored, vault, above⟩ := ordered.newest_above last
  have held : ∀ copy ∈ after.copies, after.stores copy.pack = true :=
    fun copy member => Owner.stores_iff.mpr ⟨copy, member, rfl⟩
  apply selectPack_everything (Owner.stores_iff.mp stored)
  · intro copy member
    rw [vault]
    exact ordered.packVault _ (ordered.known _ (.inl (held copy member)))
  · rwa [vault]
  · exact fun copy member => above copy.pack (held copy member)

namespace PartialRecovery

def vault : Text := "vault".toList

def pack (name : String) (generation : Nat) : MetadataPack where
  packHash := name.toList
  vaultId := vault
  generation

def without (nodeId : String) : Reach where
  lists := fun other => decide (other ≠ nodeId.toList)
  retrieves := fun _ => true

/-- The first pack reaches `x`, the second only `y`. -/
def beforeLoss : List OwnerEvent :=
  [.export "a".toList, .push (pack "a" 1) ["x".toList], .export "c".toList,
    .push (pack "c" 2) ["y".toList], .loseMachine]

def afterRecovery (reach : Reach) (generation : Nat) : List OwnerEvent :=
  [.recover reach none none, .export "b".toList,
    .push (pack "b" generation) ["x".toList, "y".toList]]

def history (reach : Reach) (generation : Nat) : List OwnerEvent :=
  beforeLoss ++ afterRecovery reach generation

def final (reach : Reach) (generation : Nat) : Option Owner :=
  runEvents ownerStep (Owner.start vault) (history reach generation)

end PartialRecovery

open PartialRecovery in
/-- While `y` is down the recovery finds only the first pack, and the next export reuses the second
generation: a full recovery afterwards prefers the pack lost sight of to the one exported last. -/
theorem partialRecovery_selectsOlder :
    ∃ after, runEvents ownerStep (Owner.start vault) (history (without "y") 2) = some after ∧
      after.newest? = some (pack "b" 2) ∧
      selectPack .everything after.copies none none = .ok (pack "c" 2) ∧
      selectPack .everything after.copies none none ≠ .ok (pack "b" 2) := by
  cases outcome : final (without "y") 2 with
  | none =>
      have defined : (final (without "y") 2).isSome = true := by decide +kernel
      simp [outcome] at defined
  | some after =>
      have newest : (final (without "y") 2).bind Owner.newest? = some (pack "b" 2) := by
        decide +kernel
      have selected : (final (without "y") 2).bind
          (fun owner => (selectPack .everything owner.copies none none).toOption) =
            some (pack "c" 2) := by
        decide +kernel
      rw [outcome, Option.bind_some] at newest selected
      have chosen : selectPack .everything after.copies none none = .ok (pack "c" 2) := by
        cases result : selectPack .everything after.copies none none with
        | error reason => simp [result, Except.toOption] at selected
        | ok found =>
            rw [result] at selected
            exact congrArg _ (Option.some.inj selected)
      refine ⟨after, outcome, newest, chosen, ?_⟩
      rw [chosen]
      decide

open PartialRecovery in
/-- While `x` is down the recovery still finds the second pack, so the next export follows both. -/
theorem partialRecovery_selectsNewest :
    ∃ after, runEvents ownerStep (Owner.start vault) (history (without "x") 3) = some after ∧
      selectPack .everything after.copies none none = .ok (pack "b" 3) := by
  cases outcome : final (without "x") 3 with
  | none =>
      have defined : (final (without "x") 3).isSome = true := by decide +kernel
      simp [outcome] at defined
  | some after =>
      have newest : (final (without "x") 3).bind Owner.newest? = some (pack "b" 3) := by
        decide +kernel
      rw [outcome, Option.bind_some] at newest
      have follows : checkEvents ownerStep exportFollows (Owner.start vault)
          (history (without "x") 3) = true := by
        decide +kernel
      exact ⟨after, outcome,
        recovery_selectsNewest outcome (eventsMeet_of_checkEvents follows) newest rfl⟩

end Stopan.Packs
