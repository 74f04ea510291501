import Hermes.Core.LTS
import Hermes.L4Fs.Fat.File

/-!
# The operations of a FAT volume

Every operation of `fat32.c` runs under `fs_lock`, so a run of the volume is a sequence of whole
operations. The label of a step says which one, and what the world decides during it.
-/
namespace Hermes.L4.Fat

open Prog

inductive Op
  | lookup (dir : Nat) (name : Bytes)
  | release (node : Nat)
  | create (dir : Nat) (name : Bytes) (directory : Bool)
  | unlink (dir : Nat) (name : Bytes) (directory : Bool)
  | rename (oldDir : Nat) (oldName : Bytes) (newDir : Nat) (newName : Bytes) (noReplace : Bool)
  | read (node pos len : Nat)
  | write (node pos : Nat) (src : Buffer) (len : Nat)
  | truncate (node size : Nat)
  | fallocate (node mode offset len : Nat)
  | mmap (node offset : Nat)
  | reclaim (node index : Nat)

/-- The operation, without what it returns. -/
def Op.run (g : Geometry) : Op → M Unit
  | .lookup dir name => do let _ ← Fat.lookup g dir name
  | .release node => Fat.release g node
  | .create dir name directory => Fat.create g dir name directory
  | .unlink dir name directory => Fat.unlink g dir name directory
  | .rename oldDir oldName newDir newName noReplace => Fat.rename g oldDir oldName newDir newName noReplace
  | .read node pos len => do let _ ← fileRead g node pos len
  | .write node pos src len => do let _ ← fileWrite g node pos src len
  | .truncate node size => Fat.truncate g node size
  | .fallocate node mode offset len => Fat.fallocate g node mode offset len
  | .mmap node offset => mmapPage g node offset
  | .reclaim node index => reclaimPage node index

/-- The state in which an operation begins. -/
def Vol.begin (v : Vol) (e : Env) : Vol := { v with env := e, reads := 0, writes := 0, mems := 0, chain := false }

structure Label where
  op : Op
  env : Env

/-- The state after an operation, whether it failed or not. -/
def exec (g : Geometry) (v : Vol) (l : Label) : Option Vol := (l.op.run g (v.begin l.env)).map Prod.snd

/-! ## Small volumes -/

/-- Twenty clusters of 512 bytes, and one FAT behind two blocks. -/
def smallGeometry : Geometry :=
  ⟨512, 20, 2, 1, true, false, 256, 128, by decide, by decide, by decide, by decide, by decide⟩

/-- Everything succeeds. -/
def fineEnv : Env := ⟨fun _ _ => true, fun _ _ => none, fun _ => true, 0x21, 0⟩

def rootInode : Inode :=
  { refs := 1, first := 2, size := 0, attr := attrDirectory, isRoot := true, orphan := false, dirCluster := 0
    direntPos := 0, lfnPos := 0, cacheIndex := 0, cacheCluster := 0, id := 2, path := [0x2F], pages := fun _ => none }

/-- A volume whose root is cluster 2, with the given FAT, data and inodes. -/
def volume (fat : Nat → UInt32) (data : Nat → UInt8) (nodes : List Inode) : Vol :=
  { data := data
    openNodes := List.range' 1 nodes.length
    info := fun n => (rootInode :: nodes).getD n rootInode
    nextNode := nodes.length + 1, indexes := fun _ => none, indexClock := 0, dirChanges := 0
    env := fineEnv, reads := 0, writes := 0, mems := 0, freeCount := fsinfoUnknown, nextFree := 3, log := []
    front := fun w => fat (w - smallGeometry.fatBegin)
    cacheSector := 0, cacheValid := false, cacheDirty := false, cache := fun _ => 0, fsinfoDirty := false, chain := false }

end Hermes.L4.Fat
