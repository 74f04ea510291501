import Hermes.L4Fs.Fat.Dir

/-!
# The directory index

The hash index of `fat32.c` over the names of a directory, and the functions that keep it: a
lookup goes through it where there is one, and builds it otherwise.
-/
namespace Hermes.L4.Fat

open Prog Function

/-- `DIR_INDEX_MIN_ENTRIES` -/
abbrev indexMinEntries : Nat := 64

/-- `DIR_INDEX_CANDIDATES` -/
abbrev indexCandidates : Nat := 8

namespace DirIndex

/-- The loop of `dindex_place` from slot `i`; `none` if there is no place. -/
def placeFrom (idx : DirIndex) (hash : UInt32) (pos : Nat) : Nat → Nat → Option DirIndex
  | 0, _ => none
  | k + 1, i =>
    match idx.slots i with
    | .empty => some { idx with
        used := idx.used + 1, count := idx.count + 1, slots := update idx.slots i (.entry hash pos) }
    | .tombstone => some { idx with count := idx.count + 1, slots := update idx.slots i (.entry hash pos) }
    | .entry _ _ => placeFrom idx hash pos k ((i + 1) % idx.capacity)

/-- `dindex_place` -/
def place (idx : DirIndex) (hash : UInt32) (pos : Nat) : Option DirIndex :=
  idx.placeFrom hash pos idx.capacity (hash.toNat % idx.capacity)

/-- `while ((idx->count + 1) * 2 > capacity) capacity *= 2;` -/
def growCapacity (count : Nat) : Nat → Nat → Nat
  | 0, capacity => capacity
  | k + 1, capacity => if capacity < (count + 1) * 2 then growCapacity count k (capacity * 2) else capacity

/-- The entries of `old` from slot `i` on, `k` slots, into `idx`. -/
def rehash (old : DirIndex) : Nat → Nat → DirIndex → Option DirIndex
  | 0, _, idx => some idx
  | k + 1, i, idx =>
    match old.slots i with
    | .entry hash pos => (idx.place hash pos).bind (rehash old k (i + 1))
    | _ => rehash old k (i + 1) idx

/-- The index in a larger table. -/
def grow (idx : DirIndex) : Option DirIndex :=
  rehash idx idx.capacity 0 { idx with
    count := 0, used := 0, capacity := growCapacity idx.count (idx.count + 1) idx.capacity, slots := fun _ => .empty }

/-- An entry whose position is between `lo` and `hi`. -/
def inRange (lo hi : Nat) : IndexSlot → Bool
  | .entry _ pos => lo ≤ pos && pos ≤ hi
  | _ => false

/-- The loop of `dindex_remove_range`. -/
def removeRange (idx : DirIndex) (lo hi : Nat) : DirIndex :=
  { idx with
    slots := fun i => if i < idx.capacity ∧ inRange lo hi (idx.slots i) = true then .tombstone else idx.slots i
    count := idx.count - (List.range idx.capacity).countP fun i => inRange lo hi (idx.slots i) }

/-- The positions with hash `hash` from slot `s` on; `none` when there are too many. -/
def candidates (idx : DirIndex) (hash : UInt32) : Nat → Nat → List Nat → Option (Option (List Nat))
  | 0, _, _ => none
  | k + 1, s, found =>
    match idx.slots s with
    | .empty => some (some found)
    | .tombstone => idx.candidates hash k ((s + 1) % idx.capacity) found
    | .entry h pos =>
      if h ≠ hash then idx.candidates hash k ((s + 1) % idx.capacity) found
      else if found.length = indexCandidates then some none
      else idx.candidates hash k ((s + 1) % idx.capacity) (found ++ [pos])

end DirIndex

/-- A loop over the slots of an index; one that does not end is `none`. -/
def orDiverge {α : Type} : Option α → M α
  | none => diverge
  | some a => pure a

/-- `dindex_new` -/
def dindexNew (dirFirst capacity : Nat) : M (Option DirIndex) := do
  match ← attempt malloc with
  | .error _ => pure none
  | .ok _ => do
    match ← attempt malloc with
    | .error _ => pure none
    | .ok _ => pure (some ⟨dirFirst, 0, 0, capacity, 0, fun _ => .empty⟩)

/-- `dindex_add`; `none` without memory. -/
def dindexAdd (idx : DirIndex) (hash : UInt32) (pos : Nat) : M (Option DirIndex) :=
  if idx.capacity * 3 < (idx.used + 1) * 4 then do
    match ← attempt malloc with
    | .error _ => pure none
    | .ok _ => do
      let idx ← orDiverge (idx.grow.bind fun idx => idx.place hash pos)
      pure (some idx)
  else do
    let idx ← orDiverge (idx.place hash pos)
    pure (some idx)

/-- The place `dindex_store` chooses: the first that is free, or the one used the longest ago. -/
def dindexVictim (v : Body) : Nat :=
  match (List.range dirIndexes).find? fun i => (v.indexes i).isNone with
  | some i => i
  | none => (List.range dirIndexes).foldl (fun best i =>
      if ((v.indexes i).map DirIndex.lastUse).getD 0 < ((v.indexes best).map DirIndex.lastUse).getD 0 then i else best) 0

/-- `dindex_store` -/
def dindexStore (idx : DirIndex) : M Unit :=
  modify fun v => { v with
    indexClock := v.indexClock + 1
    indexes := update v.indexes (dindexVictim v.toBody) (some { idx with lastUse := v.indexClock + 1 }) }

/-- `dindex_insert` -/
def dindexInsert (dirFirst : Nat) (name : Bytes) (pos : Nat) : M Unit := do
  let v ← read
  match (dindexSlot v.toBody dirFirst).bind fun i => (v.indexes i).map fun idx => (i, idx) with
  | none => pure ()
  | some (i, idx) => do
    match ← dindexAdd idx (nameHash name) pos with
    | none => dindexDrop dirFirst
    | some idx => modify fun v => { v with indexes := update v.indexes i (some idx) }

/-- `dindex_remove_range` -/
def dindexRemoveRange (dirFirst lo hi : Nat) : M Unit :=
  modify fun v =>
    match dindexSlot v.toBody dirFirst with
    | none => v
    | some i => { v with indexes := update v.indexes i ((v.indexes i).map fun idx => idx.removeRange lo hi) }

section
variable (g : Geometry)

/-- What the loop of `scan_entry` ends with. -/
structure Scan where
  err : Option Errno
  found : Option Found
  index : Option DirIndex

/-- The loop of `scan_entry`. -/
def scanLoop (name : Bytes) : Nat → Iter → Option Found → Option DirIndex → M Scan
  | 0, _, _, _ => diverge
  | k + 1, it, found, idx => do
    match ← attempt (iterNext g g.walkBound it .none) with
    | .error e => pure ⟨some e, found, idx⟩
    | .ok (none, _) => pure ⟨none, found, idx⟩
    | .ok (some cur, it) =>
      let hit := found.isNone && nameEqual cur.name name
      let found := if hit then some cur else found
      match idx with
      | none => if hit then pure ⟨none, found, none⟩ else scanLoop name k it found none
      | some idx => do
        match ← dindexAdd idx (nameHash cur.name) cur.lfnPos with
        | some idx => scanLoop name k it found (some idx)
        | none => if found.isSome then pure ⟨none, found, none⟩ else scanLoop name k it found none

/-- An index of a whole directory is kept, if it is worth it. -/
def keepIndex (changes : Nat) (dirFirst : Nat) (r : Scan) : M Unit := do
  let v ← read
  match r.index, r.err with
  | some idx, none =>
    if indexMinEntries ≤ idx.count ∧ changes = v.dirChanges then do
      dindexDrop dirFirst
      dindexStore idx
    else pure ()
  | _, _ => pure ()

/-- `scan_entry` -/
def scanEntry (dirFirst : Nat) (name : Bytes) : M Found := do
  let cur ← attempt malloc
  let idx ← dindexNew dirFirst 256
  match cur with
  | .error e => fail e
  | .ok _ => do
    let it ← iterInit g dirFirst 0
    let v ← read
    let r ← scanLoop g name g.walkBound it none idx
    keepIndex v.dirChanges dirFirst r
    match r.err, r.found with
    | some e, _ => fail e
    | none, some f => pure f
    | none, none => fail .noent

/-- The loop of `find_entry` over the candidates. -/
def tryCandidates (dirFirst : Nat) (name : Bytes) : List Nat → M Found
  | [] => fail .noent
  | c :: cs => do
    match ← readEntryAt g dirFirst c with
    | none => tryCandidates dirFirst name cs
    | some f => if f.lfnPos = c ∧ nameEqual f.name name = true then pure f else tryCandidates dirFirst name cs

/-- `find_entry` -/
def findEntry (dirFirst : Nat) (name : Bytes) : M Found := do
  let v ← read
  match (dindexSlot v.toBody dirFirst).bind fun i => (v.indexes i).map fun idx => (i, idx) with
  | none => scanEntry g dirFirst name
  | some (i, idx) => do
    modify fun v => { v with
      indexClock := v.indexClock + 1
      indexes := update v.indexes i (some { idx with lastUse := v.indexClock + 1 }) }
    match ← orDiverge (idx.candidates (nameHash name) (idx.capacity + 1) ((nameHash name).toNat % idx.capacity) []) with
    | none => scanEntry g dirFirst name
    | some cs => tryCandidates g dirFirst name cs

/-- The loop of `delete_slots`, `k` slots from `pos` on. -/
def deleteLoop (dirFirst : Nat) : Nat → Nat → M Unit
  | 0, _ => pure ()
  | k + 1, pos => do
    let de ← direntRead g dirFirst pos
    direntWrite g dirFirst pos (de.put 0 direntDeleted)
    deleteLoop dirFirst k (pos + direntSize)

/-- `sbi->dir_changes++` -/
def dirChanged : M Unit := modify fun v => { v with dirChanges := v.dirChanges + 1 }

/-- `delete_slots` -/
def deleteSlots (dirFirst lo hi : Nat) : M Unit := do
  dindexRemoveRange dirFirst lo hi
  let r ← attempt (deleteLoop g dirFirst ((hi + direntSize - lo) / direntSize) lo)
  dirChanged
  match r with
  | .error e => fail e
  | .ok _ => pure ()

/-- What `add_entry` gives back. -/
structure Added where
  pos : Nat
  lfnPos : Nat

/-- `add_entry` -/
def addEntry (dirFirst : Nat) (name : Bytes) (de : Slot) : M Added := do
  let (raw, nt, lfn) ← makeShortName g dirFirst name
  let de := (de.setRaw11 raw).put 12 nt
  let slots := 1 + if lfn then lfnCount name else 0
  let pos ← dirAllocSlots g dirFirst slots
  dindexInsert dirFirst name pos
  match ← attempt (writeNameEntries g dirFirst pos name lfn de) with
  | .error e => do
    dindexRemoveRange dirFirst pos (pos + (slots - 1) * direntSize)
    dirChanged
    fail e
  | .ok shortPos => do
    dirChanged
    pure ⟨shortPos, pos⟩

end

end Hermes.L4.Fat
