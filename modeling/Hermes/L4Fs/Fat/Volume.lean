import Hermes.Core.Prog

/-!
# A mounted FAT volume

The state that `drivers/fs/fat/fat32.c` keeps of a volume, and its functions on the FAT: the
cache of one block (fat32.c:74-133), allocation and freeing of clusters (fat32.c:153-214).

The device is a sequence of 32-bit words up to the data region, which is bytes: the reserved area, then
the FAT copies. The cache has a block of 512 bytes of the device. Where the sectors of the
volume are smaller such a block can begin in the reserved area, or reach from one copy into the next or
into the data region. `FatMount` says for which boot sectors cluster numbers become
offsets without wrapping. Each device access and each allocation takes its outcome from
`Env`. A write that fails has written some whole blocks, not all.

`log` and `chain` are ghosts: which FAT entries have been written, and whether the device is accessed for
`fat32_next_cluster`.
-/
namespace Hermes.L4.Fat

open Prog Function

inductive Errno
  | io | nospc | noent | exist | inval | notdir | isdir | notempty | nomem | fbig | rofs | opnotsupp
deriving DecidableEq, Repr

/-- The constants of a mounted volume, as they are for a sound boot sector. -/
structure Geometry where
  /-- `cluster_byte_size` -/
  clusterSize : Nat
  /-- `total_clusters` -/
  total : Nat
  /-- `root_cluster` -/
  root : Nat
  /-- the FAT copies that are written -/
  copies : Nat
  /-- the device has `write_bytes` -/
  writable : Bool
  /-- there is an FSInfo sector to write -/
  fsinfo : Bool
  /-- `fat_begin_lba`, in words -/
  fatBegin : Nat
  /-- `sectors_per_fat`, in words -/
  copySize : Nat
  slots : 32 ∣ clusterSize
  clusterSize_pos : 0 < clusterSize
  copies_pos : 0 < copies
  /-- cluster numbers are neither end marks nor the bad mark -/
  total_le : total + 2 ≤ 0x0FFFFFF7
  entries : total + 2 ≤ copySize

/-- `FAT_EOC` -/
abbrev eoc : Nat := 0x0FFFFFFF

/-- `FAT_ENTRY_MASK` -/
abbrev entryMask : UInt32 := 0x0FFFFFFF

/-- `FSINFO_UNKNOWN` -/
abbrev fsinfoUnknown : UInt32 := 0xFFFFFFFF

namespace Geometry

variable (g : Geometry)

/-- `valid_cluster` -/
def Valid (c : Nat) : Prop := 2 ≤ c ∧ c < g.total + 2

instance (c : Nat) : Decidable (g.Valid c) := inferInstanceAs (Decidable (_ ∧ _))

/-- `cluster_to_byte`, from the beginning of the data region. -/
def clusterToByte (c : Nat) : Nat := (c + 0xFFFFFFFE) % 0x100000000 * g.clusterSize

/-- The block of an entry of the first FAT (`fat_entry_byte / 512`), and its word there. -/
def block (c : Nat) : Nat := (g.fatBegin + c) / 128

def slot (c : Nat) : Nat := (g.fatBegin + c) % 128

/-- The first word of the data region. -/
def dataBegin : Nat := g.fatBegin + g.copies * g.copySize

/-- More slots than a directory whose chain has no cycle. -/
def walkBound : Nat := (g.total + 1) * (g.clusterSize / 32) + 1

end Geometry

/-- What the world decides: the outcome of the n-th read and write, if it is made for `fat32_next_cluster` and if it
is not, of the n-th allocation, and the date. -/
structure Env where
  read : Bool → Nat → Bool
  /-- `none` succeeds, `some k` fails after `k` blocks -/
  write : Bool → Nat → Option Nat
  mem : Nat → Bool
  date : UInt16
  time : UInt16

/-- `fat32_inode_info`, with the number and the name of its inode. -/
structure Inode where
  refs : Nat
  first : Nat
  size : Nat
  attr : UInt8
  isRoot : Bool
  orphan : Bool
  dirCluster : Nat
  direntPos : Nat
  lfnPos : Nat
  cacheIndex : Nat
  cacheCluster : Nat
  id : Nat
  path : List UInt8
  pages : Nat → Option (Nat → UInt8)

/-- A slot of `dir_index`: `pos` 0, `DIR_INDEX_TOMBSTONE`, or a position plus 1. -/
inductive IndexSlot
  | empty
  | tombstone
  | entry (hash : UInt32) (pos : Nat)
deriving DecidableEq

structure DirIndex where
  dirFirst : Nat
  count : Nat
  used : Nat
  capacity : Nat
  lastUse : Nat
  slots : Nat → IndexSlot

/-- `FAT_DIR_INDEXES` -/
abbrev dirIndexes : Nat := 8

/-- Which code writes a FAT entry. -/
inductive Cause
  /-- `alloc_cluster`, the new cluster -/
  | take
  /-- `alloc_cluster`, the cluster before it -/
  | link
  /-- `free_chain` -/
  | free
  /-- `trim_chain` -/
  | cut
deriving DecidableEq

structure FatWrite where
  cause : Cause
  cluster : Nat
  old : Nat
  new : Nat
deriving DecidableEq

/-- The data region, the open inodes and the directory indexes. -/
structure Body where
  data : Nat → UInt8
  /-- the open inodes, by address -/
  openNodes : List Nat
  info : Nat → Inode
  nextNode : Nat
  indexes : Nat → Option DirIndex
  indexClock : Nat
  dirChanges : Nat

/-- The whole state: the outcomes to come, the FAT and its cache, and the FSInfo sector. -/
structure Vol extends Body where
  env : Env
  reads : Nat
  writes : Nat
  mems : Nat
  freeCount : UInt32
  nextFree : Nat
  log : List FatWrite
  /-- the words of the device before the data region -/
  front : Nat → UInt32
  cacheSector : Nat
  cacheValid : Bool
  cacheDirty : Bool
  cache : Nat → UInt32
  fsinfoDirty : Bool
  chain : Bool

abbrev M := Prog Vol Errno

/-! ## The device -/

/-- One `bdev_read`; `f` is what it takes from the device. -/
def bdevRead {α : Type} (f : Vol → α) : M α := do
  let v ← read
  modify fun v => { v with reads := v.reads + 1 }
  if v.env.read v.chain v.reads then pure (f v) else fail .io

/-- One `bdev_write` of `n` bytes; `f k` puts the first `k` of them on the device. -/
def bdevWrite (g : Geometry) (n : Nat) (f : Nat → Vol → Vol) : M Unit := do
  let v ← read
  if g.writable = false then fail .rofs
  else do
    modify fun v => { v with writes := v.writes + 1 }
    match v.env.write v.chain v.writes with
    | none => modify (f n)
    | some k => do
      modify (f (if 512 * k < n then 512 * k else 0))
      fail .io

/-- `n` bytes of `buf` at `off` of the data region. -/
def putData (off : Nat) (buf : Nat → UInt8) (n : Nat) (v : Vol) : Vol :=
  { v with data := fun a => if off ≤ a ∧ a < off + n then buf (a - off) else v.data a }

def malloc : M Unit := do
  let v ← read
  modify fun v => { v with mems := v.mems + 1 }
  if v.env.mem v.mems then pure () else fail .nomem

section
variable (g : Geometry)

/-! ## The FAT -/

def wordByte (x : UInt32) (b : Nat) : UInt8 := (x >>> UInt32.ofNat (8 * b)).toUInt8

def wordOf (f : Nat → UInt8) : UInt32 :=
  (f 0).toUInt32 ||| (f 1).toUInt32 <<< 8 ||| (f 2).toUInt32 <<< 16 ||| (f 3).toUInt32 <<< 24

/-- A word of the device. -/
def Vol.word (v : Vol) (w : Nat) : UInt32 :=
  if w < g.dataBegin then v.front w else wordOf fun b => v.data (4 * (w - g.dataBegin) + b)

/-- The first `k` bytes of the cached block, as far behind its place as copy `copy` is behind the first. -/
def putBlock (copy k : Nat) (v : Vol) : Vol :=
  let start := 128 * v.cacheSector + copy * g.copySize
  { v with
    front := fun w => if start ≤ w ∧ w < start + k / 4 then v.cache (w - start) else v.front w
    data := fun a =>
      if start ≤ g.dataBegin + a / 4 ∧ g.dataBegin + a / 4 < start + k / 4 then
        wordByte (v.cache (g.dataBegin + a / 4 - start)) (a % 4)
      else v.data a }

def flushCopies : Nat → Nat → M Unit
  | 0, _ => pure ()
  | n + 1, copy => do
    bdevWrite g 512 (putBlock g copy)
    flushCopies n (copy + 1)

/-- `fat_flush` -/
def fatFlush : M Unit := do
  let v ← read
  if v.cacheDirty = false then pure ()
  else do
    failWith .io (flushCopies g g.copies 0)
    modify fun v => { v with cacheDirty := false }

/-- The block with the entry of cluster `c` into the cache. -/
def fatLoad (c : Nat) : M Unit := do
  let v ← read
  if v.cacheValid = true ∧ v.cacheSector = g.block c then pure ()
  else do
    fatFlush g
    match ← attempt (bdevRead fun v i => v.word g (128 * g.block c + i)) with
    | .error _ => do
      modify fun v => { v with cacheValid := false }
      fail .io
    | .ok buf => modify fun v => { v with cacheSector := g.block c, cacheValid := true, cache := buf }

/-- `fat_get` -/
def fatGet (c : Nat) : M Nat := do
  fatLoad g c
  let v ← read
  pure (v.cache (g.slot c) &&& entryMask).toNat

/-- `raw & ~FAT_ENTRY_MASK | value & FAT_ENTRY_MASK` -/
def putEntry (raw : UInt32) (value : Nat) : UInt32 := (raw &&& ~~~entryMask) ||| (UInt32.ofNat value &&& entryMask)

/-- `fat_set` -/
def fatSet (cause : Cause) (c value : Nat) : M Unit := do
  let old ← fatGet g c
  modify fun v => { v with
    cache := update v.cache (g.slot c) (putEntry (v.cache (g.slot c)) value)
    cacheDirty := true
    log := ⟨cause, c, old, value⟩ :: v.log }

/-- `fat32_next_cluster` -/
def nextCluster (c : Nat) : M Nat :=
  if g.Valid c then do
    modify fun v => { v with chain := true }
    let r ← attempt (fatGet g c)
    modify fun v => { v with chain := false }
    match r with
    | .ok next => pure next
    | .error _ => pure eoc
  else pure eoc

/-- `fsinfo_adjust` -/
def fsinfoAdjust (delta : UInt32) (hint : Nat) : M Unit :=
  modify fun v => { v with
    freeCount := if v.freeCount ≠ fsinfoUnknown then v.freeCount + delta else v.freeCount
    nextFree := if hint ≠ 0 then hint else v.nextFree
    fsinfoDirty := true }

/-- `fsinfo_sync` -/
def fsinfoSync : M Unit := do
  let _ ← attempt (fatFlush g)
  let v ← read
  if v.fsinfoDirty = true ∧ g.fsinfo = true then do
    -- the FSInfo sector is not read again
    let _ ← attempt (bdevWrite g 512 fun _ v => v)
    modify fun v => { v with fsinfoDirty := false }
  else pure ()

/-- A cluster of zeroes. -/
def zeroCluster (c : Nat) : M Unit := do
  malloc
  bdevWrite g g.clusterSize (putData (g.clusterToByte c) fun _ => 0)

/-- A free cluster becomes the last one of a chain. -/
def allocAt (prev : Nat) (zeroFill : Bool) (c : Nat) : M Unit := do
  when zeroFill (zeroCluster g c)
  fatSet g .take c eoc
  when (prev ≠ 0) (fatSet g .link prev c)
  fsinfoAdjust (-1) (if g.Valid (c + 1) then c + 1 else 2)

/-- The search of `alloc_cluster`; 0 for failure. -/
def allocLoop (prev : Nat) (zeroFill : Bool) (start : Nat) : Nat → Nat → M Nat
  | 0, _ => pure 0
  | k + 1, n => do
    let c := 2 + (start - 2 + n) % g.total
    match ← attempt (fatGet g c) with
    | .error _ => pure 0
    | .ok value =>
      if value ≠ 0 then allocLoop prev zeroFill start k (n + 1)
      else do
        match ← attempt (allocAt g prev zeroFill c) with
        | .error _ => pure 0
        | .ok _ => pure c

/-- `alloc_cluster` -/
def allocCluster (prev : Nat) (zeroFill : Bool) : M Nat := do
  let v ← read
  allocLoop g prev zeroFill (if g.Valid v.nextFree then v.nextFree else 2) g.total 0

/-- `dindex_slot` -/
def dindexSlot (v : Body) (dirFirst : Nat) : Option Nat :=
  (List.range dirIndexes).find? fun i => (v.indexes i).any fun idx => idx.dirFirst = dirFirst

/-- `dindex_drop` -/
def dindexDrop (dirFirst : Nat) : M Unit :=
  modify fun v =>
    match dindexSlot v.toBody dirFirst with
    | some i => { v with indexes := update v.indexes i none }
    | none => v

/-- The loop of `free_chain`. -/
def freeLoop : Nat → Nat → M Unit
  | 0, _ => diverge
  | k + 1, c =>
    if g.Valid c then do
      let next ← nextCluster g c
      match ← attempt (fatSet g .free c 0) with
      | .error _ => pure ()
      | .ok _ => do
        fsinfoAdjust 1 0
        freeLoop k next
    else pure ()

/-- `free_chain` -/
def freeChain (c : Nat) : M Unit := do
  dindexDrop c
  freeLoop g (g.total + 2) c

end

end Hermes.L4.Fat
