import Hermes.L4Fs.Fat.Name

/-!
# Walking a directory

`dir_iter` of `fat32.c`, and what is done with it: reading and writing single entries, the choice
of a short name, and the search for free slots. A walk that makes more turns than there are
slots on the volume follows a cyclic chain and does not end.
-/
namespace Hermes.L4.Fat

open Prog

/-- `struct dir_iter` -/
structure Iter where
  cluster : Nat
  lastCluster : Nat
  pos : Nat
  endPos : Nat
  loaded : Bool
  buf : Nat → UInt8

/-- `struct dir_found` -/
structure Found where
  de : Slot
  pos : Nat
  lfnPos : Nat
  name : Bytes

/-- The long name that is being collected. -/
structure Lfn where
  valid : Bool
  sum : UInt8
  pos : Nat
  /-- `f->name` -/
  name : Nat → UInt8

/-- Before the first slot. -/
def Lfn.none : Lfn := ⟨false, 0, 0, fun _ => 0⟩

/-- A long-name slot at `pos`. -/
def lfnTurn (l : Lfn) (pos : Nat) (raw : Slot) : Lfn :=
  let l := if raw 0 &&& lfnLast ≠ 0 then ⟨true, raw.lfnSum, pos, fun _ => 0⟩ else l
  if l.valid = false ∨ raw.lfnSeq < 1 ∨ lfnMaxEntries < raw.lfnSeq ∨ raw.lfnSum ≠ l.sum then { l with valid := false }
  else
    let lo := (raw.lfnSeq - 1) * lfnChars
    { l with name := fun i =>
        let ch := raw.lfnChar (i - lo)
        if lo ≤ i ∧ i < lo + lfnChars ∧ ch ≠ 0 ∧ ch ≠ 0xFFFF ∧ i < fatNameMax then UInt8.ofNat ch else l.name i }

/-- An entry at `pos` whose long name, if it has one, is collected. -/
def foundAt (l : Lfn) (pos : Nat) (raw : Slot) : Found :=
  if l.valid = false ∨ shortChecksum raw.raw11 ≠ l.sum ∨ l.name 0 = 0 then ⟨raw, pos, pos, shortName raw⟩
  else ⟨raw, pos, l.pos, cstr ((List.range fatNameMax).map l.name)⟩

inductive Turn
  | stop
  | skip (l : Lfn)
  | found (f : Found)

/-- One turn of `iter_next`. -/
def turn (l : Lfn) (pos : Nat) (raw : Slot) : Turn :=
  if raw 0 = 0 then .stop
  else if raw 0 = direntDeleted then .skip { l with valid := false }
  else if raw.attributes = attrLfn then .skip (lfnTurn l pos raw)
  else if raw.attributes &&& attrVolumeId ≠ 0 then .skip { l with valid := false }
  else .found (foundAt l pos raw)

section
variable (g : Geometry)

/-! ## Single entries -/

def dirSeek : Nat → Nat → M Nat
  | 0, c => pure c
  | i + 1, c => do
    let next ← nextCluster g c
    if g.Valid next then dirSeek i next else fail .io

def dirOffset (dirFirst pos : Nat) : M Nat := do
  let c ← dirSeek g (pos / g.clusterSize) dirFirst
  pure (g.clusterToByte c + pos % g.clusterSize)

/-- `dir_entry_io`, reading -/
def direntRead (dirFirst pos : Nat) : M Slot := do
  let off ← dirOffset g dirFirst pos
  failWith .io (bdevRead fun v i => v.data (off + i))

/-- `dir_entry_io`, writing -/
def direntWrite (dirFirst pos : Nat) (s : Slot) : M Unit := do
  let off ← dirOffset g dirFirst pos
  fatFlush g
  bdevWrite g direntSize (putData off fun k => s (Fin.ofNat 32 k))

/-! ## The iterator -/

def iterSkip : Nat → Iter → M Iter
  | 0, it => pure it
  | i + 1, it =>
    if g.Valid it.cluster then do
      let next ← nextCluster g it.cluster
      iterSkip i { it with lastCluster := it.cluster, cluster := next }
    else pure it

/-- `iter_init` -/
def iterInit (dirFirst pos : Nat) : M Iter := do
  malloc
  let it ← iterSkip g (pos / g.clusterSize) ⟨dirFirst, dirFirst, 0, 0, false, fun _ => 0⟩
  pure { it with pos := pos }

def iterLoad (it : Iter) : M (Option Iter) :=
  if it.loaded = true then pure (some it)
  else if g.Valid it.cluster then do
    let buf ← failWith .io (bdevRead fun v a => v.data (g.clusterToByte it.cluster + a))
    pure (some { it with loaded := true, lastCluster := it.cluster, buf := buf })
  else pure none

def iterAdvance (it : Iter) : M Iter :=
  if (it.pos + direntSize) % g.clusterSize = 0 then do
    let next ← nextCluster g it.cluster
    pure { it with pos := it.pos + direntSize, cluster := next, loaded := false }
  else pure { it with pos := it.pos + direntSize }

/-- `iter_read`; `none` at the end of the chain. -/
def iterRead (it : Iter) : M (Option (Slot × Iter)) := do
  match ← iterLoad g it with
  | none => pure none
  | some it => do
    let raw : Slot := fun i => it.buf (it.pos % g.clusterSize + i)
    let it ← iterAdvance g it
    pure (some (raw, it))

/-- `iter_next`; `none` at the end of the directory. -/
def iterNext : Nat → Iter → Lfn → M (Option Found × Iter)
  | 0, _, _ => diverge
  | k + 1, it, l => do
    match ← iterRead g it with
    | none => pure (none, { it with endPos := it.pos })
    | some (raw, it') =>
      match turn l it.pos raw with
      | .stop => pure (none, { it' with endPos := it.pos })
      | .skip l => iterNext k it' l
      | .found f => pure (some f, it')

/-- `read_entry_at` -/
def readEntryAt (dirFirst pos : Nat) : M (Option Found) := do
  let it ← iterInit g dirFirst pos
  let (f, _) ← iterNext g g.walkBound it .none
  pure f

/-! ## Short names -/

def takenLoop (raw : Bytes) : Nat → Iter → M Bool
  | 0, _ => diverge
  | k + 1, it => do
    match ← attempt (iterNext g g.walkBound it .none) with
    -- an error ends the search as the end of the directory does
    | .error _ => pure false
    | .ok (none, _) => pure false
    | .ok (some f, it) => if f.de.raw11 = raw then pure true else takenLoop raw k it

/-- `short_name_taken` -/
def shortNameTaken (dirFirst : Nat) (raw : Bytes) : M Bool := do
  match ← attempt (iterInit g dirFirst 0) with
  | .error _ => pure true
  | .ok it => do
    match ← attempt malloc with
    | .error _ => pure true
    | .ok _ => takenLoop g raw g.walkBound it

/-- The tails in use, `used` so far. -/
def tailsLoop (basis ext : Bytes) : Nat → Iter → (Nat → Bool) → M (Nat → Bool)
  | 0, _, _ => diverge
  | k + 1, it, used => do
    match ← attempt (iterRead g it) with
    | .error _ => pure used
    | .ok none => pure used
    | .ok (some (de, it)) =>
      if de 0 = 0 then pure used
      else if de 0 = direntDeleted ∨ de.attributes = attrLfn ∨ de.attributes &&& attrVolumeId ≠ 0 then
        tailsLoop basis ext k it used
      else
        let n := parseTail de.raw11
        if n = 0 ∨ tailBitmapBits ≤ n then tailsLoop basis ext k it used
        else if shortTailName basis ext n = de.raw11 then tailsLoop basis ext k it (Function.update used n true)
        else tailsLoop basis ext k it used

/-- The first number from `n` on that is not in use, at most `k` further. -/
def firstUnused (used : Nat → Bool) : Nat → Nat → Nat
  | 0, n => n
  | k + 1, n => if used n then firstUnused used k (n + 1) else n

/-- `lowest_free_tail`; 0 without memory. -/
def lowestFreeTail (dirFirst : Nat) (basis ext : Bytes) : M Nat := do
  match ← attempt malloc with
  | .error _ => pure 0
  | .ok _ => do
    match ← attempt (iterInit g dirFirst 0) with
    | .error _ => pure 0
    | .ok it => do
      let used ← tailsLoop g basis ext g.walkBound it fun _ => false
      pure (firstUnused used (tailBitmapBits - 1) 1)

/-- `for (…; n < 1000000; n++)`, `k` turns. -/
def tailLoop (dirFirst : Nat) (basis ext : Bytes) : Nat → Nat → M Bytes
  | 0, _ => fail .exist
  | k + 1, n => do
    let taken ← shortNameTaken g dirFirst (shortTailName basis ext n)
    if taken then tailLoop dirFirst basis ext k (n + 1) else pure (shortTailName basis ext n)

/-- A short name for a long one. -/
def makeTailName (dirFirst : Nat) (name : Bytes) : M Bytes := do
  let basis := shortBasis (splitName name).1
  let ext := shortExt ((splitName name).2.getD [])
  let n ← lowestFreeTail g dirFirst basis ext
  if n ≠ 0 ∧ n < tailBitmapBits then pure (shortTailName basis ext n)
  else
    let n := if n ≠ 0 then n else 1
    tailLoop g dirFirst basis ext (1000000 - n) n

/-- `make_short_name`: the 11 bytes, the `reserved` byte, and whether a long name is needed. -/
def makeShortName (dirFirst : Nat) (name : Bytes) : M (Bytes × UInt8 × Bool) := do
  match exactShort name with
  | none => do
    let raw ← makeTailName g dirFirst name
    pure (raw, 0, true)
  | some (raw, nt) => do
    let taken ← shortNameTaken g dirFirst raw
    if taken then do
      let raw ← makeTailName g dirFirst name
      pure (raw, 0, true)
    else pure (raw, nt, false)

/-! ## Slots -/

/-- The loop of `dir_alloc_slots`; `run` free slots from `runStart` lead to the iterator. -/
def allocSlotsLoop (count : Nat) : Nat → Iter → Nat → Nat → M Nat
  | 0, _, _, _ => diverge
  | k + 1, it, runStart, run => do
    match ← iterRead g it with
    | none => do
      let c ← allocCluster g it.lastCluster true
      if c = 0 then fail .nospc
      else
        let runStart := if run = 0 then it.pos else runStart
        let run := run + g.clusterSize / direntSize
        if count ≤ run then pure runStart
        else do
          let next ← nextCluster g c
          allocSlotsLoop count k { it with cluster := next, lastCluster := c, pos := it.pos + g.clusterSize } runStart run
    | some (raw, it') =>
      if raw 0 = 0 ∨ raw 0 = direntDeleted then
        let runStart := if run = 0 then it.pos else runStart
        if run + 1 = count then pure runStart else allocSlotsLoop count k it' runStart (run + 1)
      else allocSlotsLoop count k it' runStart 0

/-- `dir_alloc_slots` -/
def dirAllocSlots (dirFirst count : Nat) : M Nat := do
  let it ← iterInit g dirFirst 0
  allocSlotsLoop g count (g.walkBound + count) it 0 0

def writeSlots (dirFirst : Nat) : Nat → List Slot → M Unit
  | _, [] => pure ()
  | pos, s :: l => do
    direntWrite g dirFirst pos s
    writeSlots dirFirst (pos + direntSize) l

/-- `write_name_entries`; the position of the short entry. -/
def writeNameEntries (dirFirst pos : Nat) (name : Bytes) (lfn : Bool) (de : Slot) : M Nat := do
  writeSlots g dirFirst pos (nameSlots name lfn de)
  pure (pos + (if lfn then lfnCount name else 0) * direntSize)

end

end Hermes.L4.Fat
