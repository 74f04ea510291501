import Hermes.L4Fs.Fat.Node

/-!
# File contents

Reading, writing, truncating and mapping a file of `fat32.c`. A buffer is the map from an offset
to its byte. The page cache of an inode is its pages by index; a page that is not
there has been dropped or never was.
-/
namespace Hermes.L4.Fat

open Prog Function

abbrev pageSize : Nat := 4096

/-- `WRITE_RUN_MAX` -/
abbrev writeRunMax : Nat := 16 * 2 ^ 20

/-- `WRITE_ZERO_CHUNK` -/
abbrev writeZeroChunk : Nat := 64 * 2 ^ 10

abbrev maxFileSize : Nat := 0xFFFFFFFF

abbrev Buffer := Nat → UInt8

/-! ## The page cache -/

namespace Inode

/-- `pcache_update`; without `src` the bytes are zero. -/
def updatePages (fi : Inode) (pos : Nat) (src : Buffer) (len : Nat) : Inode :=
  { fi with pages := fun i => (fi.pages i).map fun page k =>
      if pos ≤ i * pageSize + k ∧ i * pageSize + k < pos + len then src (i * pageSize + k - pos) else page k }

/-- `pcache_truncate` -/
def truncatePages (fi : Inode) (size : Nat) : Inode :=
  { fi with pages := fun i =>
      if (size + pageSize - 1) / pageSize ≤ i then none
      else (fi.pages i).map fun page k => if size ≤ i * pageSize + k then 0 else page k }

end Inode

def updateInfo (node : Nat) (f : Inode → Inode) : M Unit := modify fun v => setInfo node (f (v.info node)) v

section
variable (g : Geometry)

/-! ## The chain -/

/-- A file without clusters gets its first one. -/
def seekFirst (node : Nat) (grow : Bool) : M Unit := do
  let v ← read
  if (v.info node).first = 0 then
    if grow = false then fail .io
    else do
      let c ← allocCluster g 0 false
      if c = 0 then fail .nospc else updateInfo node fun fi => { fi with first := c, id := c }
  else pure ()

/-- `k` clusters further than `c`. -/
def seekLoop (grow : Bool) : Nat → Nat → M Nat
  | 0, c => pure c
  | k + 1, c => do
    let next ← nextCluster g c
    if g.Valid next then seekLoop grow k next
    else if grow = false then fail .io
    else do
      let next ← allocCluster g c false
      if next = 0 then fail .nospc else seekLoop grow k next

/-- `chain_seek` -/
def chainSeek (node pos : Nat) (grow : Bool) : M Nat := do
  seekFirst g node grow
  let v ← read
  let fi := v.info node
  let index := pos / g.clusterSize
  let cached := fi.cacheCluster ≠ 0 ∧ fi.cacheIndex ≤ index
  let c ← seekLoop g grow (index - if cached then fi.cacheIndex else 0) (if cached then fi.cacheCluster else fi.first)
  updateInfo node fun fi => { fi with cacheIndex := index, cacheCluster := c }
  pure c

/-! ## Reading -/

/-- The run of clusters that lie behind `clus` on the device as well: `n` bytes so far, of `left`. The
bytes of the run, and the cluster after it. -/
def readRun (node left : Nat) : Nat → Nat → Nat → Nat → M (Nat × Nat)
  | 0, n, _, next => pure (n, next)
  | k + 1, n, clus, next =>
    if left ≤ n then pure (n, next)
    else do
      let next ← nextCluster g clus
      if next ≠ clus + 1 ∨ ¬ g.Valid next then pure (n, next)
      else do
        updateInfo node fun fi => { fi with cacheIndex := fi.cacheIndex + 1, cacheCluster := next }
        readRun node left k (n + min (left - n) g.clusterSize) next next

/-- The loop of `read_at`; every turn copies something. -/
def readLoop (node len : Nat) : Nat → Nat → Nat → Nat → Buffer → M (Nat × Buffer)
  | 0, copied, _, _, buf => pure (copied, buf)
  | k + 1, copied, inside, clus, buf =>
    if len ≤ copied ∨ ¬ g.Valid clus then pure (copied, buf)
    else do
      let (n, next) ← readRun g node (len - copied) (len - copied) (min (len - copied) (g.clusterSize - inside)) clus 0
      match ← attempt (bdevRead fun v a => v.data (g.clusterToByte clus + inside + a)) with
      | .error _ => pure (copied, buf)
      | .ok bytes =>
        let buf : Buffer := fun a => if copied ≤ a ∧ a < copied + n then bytes (a - copied) else buf a
        if copied + n < len then do
          updateInfo node fun fi => { fi with cacheIndex := fi.cacheIndex + 1, cacheCluster := next }
          readLoop node len k (copied + n) 0 next buf
        else pure (copied + n, buf)

/-- `read_at` -/
def readAt (node pos len : Nat) : M (Nat × Buffer) := do
  let clus ← failWith .io (chainSeek g node pos false)
  let (copied, buf) ← readLoop g node len len 0 (pos % g.clusterSize) clus fun _ => 0
  updateInfo node fun fi => { fi with cacheCluster := if g.Valid fi.cacheCluster then fi.cacheCluster else 0 }
  if copied = 0 then fail .io else pure (copied, buf)

/-- The end of the pages from `stop` on that are not in the cache, at most `k`. -/
def absentTo (fi : Inode) (limit : Nat) : Nat → Nat → Nat
  | 0, stop => stop
  | k + 1, stop =>
    if stop < limit ∧ (fi.pages (stop / pageSize)).isNone then absentTo fi limit k (stop + pageSize) else stop

/-- The loop of `fat32_file_read`; every turn copies something. -/
def fileReadLoop (node pos len : Nat) : Nat → Nat → Buffer → M (Nat × Buffer × Option Errno)
  | 0, done, buf => pure (done, buf, none)
  | k + 1, done, buf =>
    if len ≤ done then pure (done, buf, none)
    else do
      let v ← read
      let pageAt := pos + done
      match (v.info node).pages (pageAt / pageSize) with
      | some page =>
        let n := min (len - done) (pageSize - pageAt % pageSize)
        fileReadLoop node pos len k (done + n) fun a =>
          if done ≤ a ∧ a < done + n then page (pageAt % pageSize + (a - done)) else buf a
      | none => do
        let stop := absentTo (v.info node) (pos + len) len ((pageAt / pageSize + 1) * pageSize)
        let n := min stop (pos + len) - pageAt
        match ← attempt (readAt g node pageAt n) with
        | .error e => pure (done, buf, some e)
        | .ok (r, bytes) =>
          let buf : Buffer := fun a => if done ≤ a ∧ a < done + r then bytes (a - done) else buf a
          if r < n then pure (done + r, buf, none) else fileReadLoop node pos len k (done + n) buf

/-- `fat32_file_read` at position `pos`: how many bytes, and the bytes. -/
def fileRead (node pos len : Nat) : M (Nat × Buffer) := do
  let v ← read
  let size := (v.info node).size
  if size ≤ pos then pure (0, fun _ => 0)
  else do
    let len := if size < pos + len then size - pos else len
    let (done, buf, err) ← fileReadLoop g node pos len len 0 fun _ => 0
    match err with
    | some e => if done = 0 then fail e else pure (done, buf)
    | none => pure (done, buf)

/-! ## Writing -/

/-- What `trim_chain` does with the clusters after the first `keep`. -/
def trimTail (node keep : Nat) : M Unit := do
  match ← attempt (chainSeek g node ((keep - 1) * g.clusterSize) false) with
  | .error _ => pure ()
  | .ok last => do
    let rest ← nextCluster g last
    if g.Valid rest then do
      -- an error here is ignored
      let _ ← attempt (fatSet g .cut last eoc)
      freeChain g rest
    else pure ()

/-- The clusters that `trim_chain` frees. -/
def trimClusters (node size : Nat) : M Unit := do
  let v ← read
  let fi := v.info node
  let keep := (size + g.clusterSize - 1) / g.clusterSize
  if keep = 0 then do
    freeChain g fi.first
    updateInfo node fun fi => { fi with first := 0 }
  else if fi.first ≠ 0 then trimTail g node keep
  else pure ()

/-- `trim_chain` -/
def trimChain (node size : Nat) : M Unit := do
  trimClusters g node size
  updateInfo node fun fi => { fi with cacheCluster := 0, cacheIndex := 0 }

def nextOrAlloc (clus : Nat) : M Nat := do
  let next ← nextCluster g clus
  if g.Valid next then pure next else allocCluster g clus false

/-- The run that one device write covers: `n` bytes so far, of `left`. -/
def writeRun (node left runMax : Nat) : Nat → Nat → Nat → M Nat
  | 0, n, _ => pure n
  | k + 1, n, clus =>
    if left ≤ n ∨ runMax < n + g.clusterSize then pure n
    else do
      let next ← nextOrAlloc g clus
      if next ≠ clus + 1 ∨ ¬ g.Valid next then pure n
      else do
        updateInfo node fun fi => { fi with cacheIndex := fi.cacheIndex + 1, cacheCluster := next }
        writeRun node left runMax k (n + min (left - n) g.clusterSize) next

/-- One turn of `write_at`: the bytes written from `done` on. -/
def writeTurn (node pos : Nat) (src : Buffer) (len runMax done : Nat) : M Nat := do
  let clus ← chainSeek g node (pos + done) true
  let inside := (pos + done) % g.clusterSize
  let n ← writeRun g node (len - done) runMax (len - done) (min (len - done) (g.clusterSize - inside)) clus
  bdevWrite g n (putData (g.clusterToByte clus + inside) fun a => src (done + a))
  updateInfo node fun fi => fi.updatePages (pos + done) (fun a => src (done + a)) n
  pure n

/-- The loop of `write_at`; every turn writes something. -/
def writeLoop (node pos : Nat) (src : Buffer) (len runMax : Nat) : Nat → Nat → M (Nat × Option Errno)
  | 0, done => pure (done, none)
  | k + 1, done =>
    if len ≤ done then pure (done, none)
    else do
      match ← attempt (writeTurn g node pos src len runMax done) with
      | .error e => pure (done, some e)
      | .ok n => writeLoop node pos src len runMax k (done + n)

/-- `write_at`; without `src` it writes zeroes. -/
def writeAt (node pos : Nat) (src : Option Buffer) (len : Nat) : M Nat := do
  if len = 0 then pure 0
  else if maxFileSize < pos + len then fail .fbig
  else do
    let zeroLen := max g.clusterSize writeZeroChunk
    when src.isNone malloc
    let (done, err) ← writeLoop g node pos (src.getD fun _ => 0) len (if src.isSome then writeRunMax else zeroLen) len 0
    updateInfo node fun fi => { fi with size := if fi.size < pos + done then pos + done else fi.size }
    let v ← read
    when err.isSome (trimChain g node (v.info node).size)
    let uerr ← attempt (direntUpdate g node)
    if done ≠ 0 then pure done
    else
      match err, uerr with
      | some e, _ => fail e
      | none, .error e => fail e
      | none, .ok _ => pure 0

/-- `fat32_file_write` at position `pos` -/
def fileWrite (node pos : Nat) (src : Buffer) (len : Nat) : M Nat := do
  let v ← read
  let size := (v.info node).size
  if size < pos then do
    let _ ← writeAt g node size none (pos - size)
    writeAt g node pos (some src) len
  else writeAt g node pos (some src) len

/-- `fat32_truncate` -/
def truncate (node size : Nat) : M Unit := do
  let v ← read
  let old := (v.info node).size
  if maxFileSize < size then fail .fbig
  else if old < size then do
    let _ ← writeAt g node old none (size - old)
    pure ()
  else do
    trimChain g node size
    updateInfo node fun fi => ({ fi with size := size } : Inode).truncatePages size
    direntUpdate g node

/-- `fat32_fallocate` -/
def fallocate (node mode offset len : Nat) : M Unit := do
  let v ← read
  if mode ≠ 0 then fail .opnotsupp
  else if maxFileSize < offset + len then fail .fbig
  else if (v.info node).size < offset + len then truncate g node (offset + len)
  else pure ()

/-- `fat32_mmap_page`: the page is in the cache afterwards. -/
def mmapPage (node offset : Nat) : M Unit := do
  let v ← read
  let fi := v.info node
  let index := offset / pageSize
  if maxFileSize ≤ offset then fail .fbig
  else
    match fi.pages index with
    | some _ => pure ()
    | none => do
      malloc
      let start := index * pageSize
      if start < fi.size then do
        let want := min (fi.size - start) pageSize
        let (r, bytes) ← readAt g node start want
        if r < want then fail .io
        else updateInfo node fun fi => { fi with
          pages := update fi.pages index (some fun k => if k < want then bytes k else 0) }
      else updateInfo node fun fi => { fi with pages := update fi.pages index (some fun _ => 0) }

/-- `pcache_reclaim` of one page. -/
def reclaimPage (node index : Nat) : M Unit := updateInfo node fun fi => { fi with pages := update fi.pages index none }

end

end Hermes.L4.Fat
