import Hermes.L4Fs.Fat.Index

/-!
# Inodes

The registry of open inodes of `fat32.c` and the operations on directories: lookup, release,
create, unlink and rename. An inode is known by its address; address 0 is the root.
-/
namespace Hermes.L4.Fat

open Prog Function

/-- `MAX_FILE_PATH` -/
abbrev maxFilePath : Nat := 256

abbrev rootNode : Nat := 0

namespace Slot

/-- The dates of a new entry. -/
def dated (s : Slot) (e : Env) : Slot :=
  ((((s.put16 16 e.date.toNat).put16 24 e.date.toNat).put16 18 e.date.toNat).put16 14 e.time.toNat).put16 22 e.time.toNat

end Slot

/-- `dot_entry` -/
def dotEntry (e : Env) (name : Bytes) (cluster : Nat) : Slot :=
  let s : Slot := fun i => if i.val < 11 then name.getD i.val space else 0
  ((s.put 11 attrDirectory).setCluster cluster).dated e

/-- The entry of `fat32_create` before it has a name. -/
def newEntry (e : Env) (directory : Bool) (cluster : Nat) : Slot :=
  let s : Slot := fun _ => 0
  ((s.put 11 (if directory then attrDirectory else attrArchive)).dated e).setCluster cluster

/-- `registry_find` -/
def registryFind (v : Body) (dirCluster pos : Nat) : Option Nat :=
  v.openNodes.find? fun n =>
    (v.info n).orphan = false && (v.info n).dirCluster = dirCluster && (v.info n).direntPos = pos

def setInfo (n : Nat) (i : Inode) (v : Vol) : Vol := { v with info := update v.info n i }

section
variable (g : Geometry)

/-- `dir_first_cluster` -/
def dirFirstCluster (i : Inode) : Nat := if i.first ≠ 0 then i.first else g.root

/-- `fat32_make_inode`; `none` without memory. -/
def makeInode (f : Found) (dirCluster : Nat) : M (Option Nat) := do
  let inode ← attempt malloc
  let fi ← attempt malloc
  match inode, fi with
  | .ok _, .ok _ => do
    let v ← read
    let first := f.de.cluster
    modify fun v => { v with
      openNodes := v.nextNode :: v.openNodes
      nextNode := v.nextNode + 1
      info := update v.info v.nextNode
        { refs := 1, first := first, size := f.de.fileSize, attr := f.de.attributes, isRoot := false, orphan := false
          dirCluster := dirCluster, direntPos := f.pos, lfnPos := f.lfnPos, cacheIndex := 0, cacheCluster := 0
          id := if first ≠ 0 then first else 2 ^ 40 ||| dirCluster * 2 ^ 20 ||| f.pos
          path := f.name.take (maxFilePath - 1), pages := fun _ => none } }
    pure (some v.nextNode)
  | _, _ => pure none

/-- `fat32_lookup`; `none` if there is no such entry, and on every error. -/
def lookup (dir : Nat) (target : Bytes) : M (Option Nat) := do
  let v ← read
  let dirFirst := dirFirstCluster g (v.info dir)
  match ← attempt malloc with
  | .error _ => pure none
  | .ok _ => do
    match ← attempt (findEntry g dirFirst target) with
    | .error _ => pure none
    | .ok f => do
      let v ← read
      match registryFind v.toBody dirFirst f.pos with
      | some live => do
        modify fun v => setInfo live { v.info live with refs := (v.info live).refs + 1 } v
        pure (some live)
      | none => makeInode f dirFirst

/-- `fat32_release` -/
def release (node : Nat) : M Unit := do
  let v ← read
  let fi := v.info node
  if fi.isRoot = true then pure ()
  else do
    modify fun v => setInfo node { fi with refs := fi.refs - 1 } v
    if 1 < fi.refs then pure ()
    else do
      modify fun v => { v with openNodes := v.openNodes.erase node }
      if fi.orphan = true then do
        freeChain g fi.first
        fsinfoSync g
      else pure ()

/-- The modification date, and the access date unless it holds a group. -/
def direntTouched (e : Env) (s : Slot) : Slot :=
  let s := (s.put16 24 e.date.toNat).put16 22 e.time.toNat
  -- `FAT_POSIX_ATTRS_MAGIC`
  if s 13 ≠ 0xFD then s.put16 18 e.date.toNat else s

/-- `dirent_update` -/
def direntUpdate (node : Nat) : M Unit := do
  let v ← read
  let fi := v.info node
  if fi.isRoot = true ∨ fi.orphan = true then pure ()
  else do
    let de ← direntRead g fi.dirCluster fi.direntPos
    let de := de.setCluster fi.first
    let de := if fi.attr &&& attrDirectory = 0 then
        (de.setFileSize fi.size).put 11 (de.attributes ||| attrArchive) else de
    let r ← attempt (direntWrite g fi.dirCluster fi.direntPos (direntTouched v.env de))
    fsinfoSync g
    match r with
    | .error e => fail e
    | .ok _ => pure ()

/-- The loop of `dir_empty`. -/
def emptyLoop : Nat → Iter → M Bool
  | 0, _ => diverge
  | k + 1, it => do
    match ← attempt (iterNext g g.walkBound it .none) with
    -- an error ends the walk as the end of the directory does
    | .error _ => pure true
    | .ok (none, _) => pure true
    | .ok (some f, it) => if f.name ≠ [dot] ∧ f.name ≠ [dot, dot] then pure false else emptyLoop k it

/-- `dir_empty` -/
def dirEmpty (dirFirst : Nat) : M Bool := do
  match ← attempt (iterInit g dirFirst 0) with
  | .error _ => pure false
  | .ok it => do
    match ← attempt malloc with
    | .error _ => pure false
    | .ok _ => emptyLoop g g.walkBound it

/-- The cluster of a new directory, with its first two entries. -/
def makeDir (parent : Nat) : M Nat := do
  let c ← allocCluster g 0 true
  if c = 0 then fail .nospc
  else do
    let v ← read
    let dots : M Unit := do
      direntWrite g c 0 (dotEntry v.env [dot] c)
      direntWrite g c direntSize (dotEntry v.env [dot, dot] parent)
    match ← attempt dots with
    | .error e => do
      freeChain g c
      fsinfoSync g
      fail e
    | .ok _ => pure c

/-- The cluster of a new entry; a file has none. -/
def newCluster (directory : Bool) (parent : Nat) : M Nat := if directory then makeDir g parent else pure 0

/-- `fat32_create` -/
def create (dir : Nat) (name : Bytes) (directory : Bool) : M Unit := do
  let v ← read
  let di := v.info dir
  let dirFirst := dirFirstCluster g di
  if validName name = false then fail .inval
  else do
    malloc
    match ← attempt (findEntry g dirFirst name) with
    | .ok _ => fail .exist
    | .error e =>
      if e ≠ .noent then fail e
      else do
        let cluster ← newCluster g directory (if di.isRoot then 0 else dirFirst)
        match ← attempt (addEntry g dirFirst name (newEntry v.env directory cluster)) with
        | .error e => do
          when (cluster ≠ 0) (freeChain g cluster)
          fsinfoSync g
          fail e
        | .ok _ => fsinfoSync g

/-- The file of an entry that has been deleted: an orphan if it is open. -/
def dropFile (dirFirst : Nat) (f : Found) : M Unit := do
  let v ← read
  match registryFind v.toBody dirFirst f.pos with
  | some live => modify fun v => setInfo live { v.info live with orphan := true } v
  | none => freeChain g f.de.cluster

/-- `remove_entry` -/
def removeEntry (dirFirst : Nat) (f : Found) : M Unit := do
  deleteSlots g dirFirst f.lfnPos f.pos
  dropFile g dirFirst f
  fsinfoSync g

/-- What stands in the way of removing an entry. -/
def removable (isDir : Bool) (f : Found) : M Unit := do
  if isDir = true ∧ f.de.isDir = false then fail .notdir
  else if isDir = false ∧ f.de.isDir = true then fail .isdir
  else if f.de.isDir = true then do
    let empty ← dirEmpty g f.de.cluster
    if empty then pure () else fail .notempty
  else pure ()

/-- `fat32_unlink` -/
def unlink (dir : Nat) (name : Bytes) (directory : Bool) : M Unit := do
  let v ← read
  let dirFirst := dirFirstCluster g (v.info dir)
  malloc
  let f ← findEntry g dirFirst name
  removable g directory f
  removeEntry g dirFirst f

/-- `..` of a directory that has moved; errors are ignored. -/
def setParent (moved parent : Nat) : M Unit := do
  match ← attempt (direntRead g moved direntSize) with
  | .error _ => pure ()
  | .ok dotdot => do
    let _ ← attempt (direntWrite g moved direntSize (dotdot.setCluster parent))
    pure ()

/-- The new entry is added, then the old one deleted. -/
def moveEntry (oldFirst newFirst : Nat) (src : Found) (newName : Bytes) (newParent : Nat) : M Unit := do
  let added ← addEntry g newFirst newName src.de
  deleteSlots g oldFirst src.lfnPos src.pos
  when (src.de.isDir && oldFirst ≠ newFirst) (setParent g src.de.cluster newParent)
  let v ← read
  match registryFind v.toBody oldFirst src.pos with
  | none => pure ()
  | some live => modify fun v => setInfo live { v.info live with
      dirCluster := newFirst, direntPos := added.pos, lfnPos := added.lfnPos
      path := newName.take (maxFilePath - 1) } v

/-- `fat32_rename` up to `out:` -/
def renameBody (oldFirst newFirst : Nat) (oldName newName : Bytes) (noReplace : Bool) (newParent : Nat) : M Unit := do
  let src ← attempt malloc
  let dst ← attempt malloc
  match src, dst with
  | .ok _, .ok _ => do
    let src ← findEntry g oldFirst oldName
    match ← attempt (findEntry g newFirst newName) with
    | .error e => if e ≠ .noent then fail e else moveEntry g oldFirst newFirst src newName newParent
    | .ok dst =>
      if oldFirst = newFirst ∧ dst.pos = src.pos then
        -- the same entry: nothing to do, or another spelling
        if src.name = newName then pure () else moveEntry g oldFirst newFirst src newName newParent
      else if noReplace = true then fail .exist
      else do
        removable g src.de.isDir dst
        removeEntry g newFirst dst
        moveEntry g oldFirst newFirst src newName newParent
  | _, _ => fail .nomem

/-- `fat32_rename` -/
def rename (oldDir : Nat) (oldName : Bytes) (newDir : Nat) (newName : Bytes) (noReplace : Bool) : M Unit := do
  let v ← read
  let oldFirst := dirFirstCluster g (v.info oldDir)
  let newFirst := dirFirstCluster g (v.info newDir)
  if validName newName = false then fail .inval
  else do
    let r ← attempt (renameBody g oldFirst newFirst oldName newName noReplace
      (if (v.info newDir).isRoot then 0 else newFirst))
    fsinfoSync g
    match r with
    | .error e => fail e
    | .ok _ => pure ()

end

end Hermes.L4.Fat
