import Hermes.Core.LTS

/-!
# The buffer cache

`drivers/fs/bcache/bcache.c`: the hash table of block buffers, the list of
idle ones, and `bc_read`, `bc_write`, `bc_flush` and the flusher as
processes that are interrupted where they can sleep: between two turns of
the loops of `getblk` and `flush_dirty`, and while a raw request is in
progress. The steps here are smaller than that in places (a claimed buffer may
wait before it is used), so every interleaving of the source is a run.

A sleeper may go on at any time, so wait channels and their wakeups are left
out. A raw write reaches the device byte by byte, in any order, until it is
done; a raw read takes each byte from the device at some time before it is
done. When a raw write fails, some of its bytes have reached the device and
the others have not.

`hist` is not part of the cache: it lists, for every byte, its first value
and those it was given by `bc_write`, at the time they were copied.
-/
namespace Hermes.L4.Bcache

open Function

/-- `BCACHE_BLOCK` -/
abbrev block : Nat := 4096

/-- `BCACHE_MAX_BLOCKS` -/
abbrev maxBlocks : Nat := 4096

/-- `BCACHE_HASH` -/
abbrev hashSize : Nat := 1024

/-- `BCACHE_DIRTY_HIGH` -/
abbrev dirtyHigh : Int := 2048

/-- `BCACHE_DIRECT_MIN` -/
abbrev directMin : Nat := 64 * 1024

/-- `BCACHE_RA_MAX` -/
abbrev raMax : Nat := 32

/-- `BCACHE_RUN_MAX` -/
abbrev runMax : Nat := 256

/-- `struct buf`, with its flags apart -/
structure Buf where
  dev : Nat
  blkno : Nat
  valid : Bool
  dirty : Bool
  busy : Bool
  data : Nat → UInt8

/-- The buffers are `0` to `nbufs - 1`. -/
structure Cache where
  bufs : Nat → Buf
  /-- `hash_table` -/
  hash : Nat → List Nat
  lru : List Nat
  nbufs : Nat
  ndirty : Int

/-- `hash_of`; a device is its address -/
def hashOf (d blkno : Nat) : Nat := ((d >>> 4) ^^^ (blkno * 2654435761 % 2 ^ 64)) % hashSize

/-- `block_len`, on a device of `len` bytes -/
def blockLen (len blkno : Nat) : Nat := if len ≤ blkno * block then 0 else min (len - blkno * block) block

namespace Cache

variable (c : Cache)

def empty : Cache := ⟨fun _ => ⟨0, 0, false, false, false, fun _ => 0⟩, fun _ => [], [], 0, 0⟩

def setBuf (b : Nat) (x : Buf) : Cache := { c with bufs := update c.bufs b x }

/-- `lookup` -/
def lookup (d blkno : Nat) : Option Nat :=
  (c.hash (hashOf d blkno)).find? fun b => (c.bufs b).dev = d ∧ (c.bufs b).blkno = blkno

/-- `hash_insert` -/
def hashInsert (b : Nat) : Cache :=
  let h := hashOf (c.bufs b).dev (c.bufs b).blkno
  { c with hash := update c.hash h (b :: c.hash h) }

/-- `hash_remove` -/
def hashRemove (b : Nat) : Cache :=
  let h := hashOf (c.bufs b).dev (c.bufs b).blkno
  { c with hash := update c.hash h ((c.hash h).erase b) }

/-- `buf_release` -/
def bufRelease (b : Nat) : Cache := { c.setBuf b { c.bufs b with busy := false } with lru := c.lru ++ [b] }

/-- `buf_claim` -/
def bufClaim (b : Nat) : Cache := { c.setBuf b { c.bufs b with busy := true } with lru := c.lru.erase b }

/-- `mark_clean` -/
def markClean (b : Nat) : Cache :=
  if (c.bufs b).dirty then { c.setBuf b { c.bufs b with dirty := false } with ndirty := c.ndirty - 1 } else c

/-- `buf_new`; `mem` says whether there is memory for it -/
def bufNew (mem : Bool) (d blkno : Nat) : Option (Nat × Cache) :=
  if maxBlocks ≤ c.nbufs ∨ mem = false then none
  else
    let c₁ := { c.setBuf c.nbufs ⟨d, blkno, false, false, true, fun _ => 0⟩ with nbufs := c.nbufs + 1 }
    some (c.nbufs, c₁.hashInsert c.nbufs)

/-- `buf_reassign` -/
def bufReassign (b d blkno : Nat) : Cache :=
  ((c.hashRemove b).setBuf b ⟨d, blkno, false, false, true, (c.bufs b).data⟩).hashInsert b

/-- What one turn of `getblk` comes to. -/
inductive Turn
  /-- it sleeps, until a buffer is released -/
  | sleep
  | buf (b : Nat)
  /-- the buffer to be reused is dirty, and claimed to be written back -/
  | victim (b : Nat)
deriving DecidableEq, Repr

/-- One turn of the loop of `getblk`. -/
def getblk (mem : Bool) (d blkno : Nat) : Turn × Cache :=
  match c.lookup d blkno with
  | some b => if (c.bufs b).busy then (.sleep, c) else (.buf b, c.bufClaim b)
  | none =>
    match c.bufNew mem d blkno with
    | some (b, c₁) => (.buf b, c₁)
    | none =>
      match c.lru with
      | [] => (.sleep, c)
      | v :: _ =>
        let c₁ := c.bufClaim v
        if (c.bufs v).dirty then (.victim v, c₁) else (.buf v, c₁.bufReassign v d blkno)

/-- `getblk_nowait` -/
def getblkNowait (mem : Bool) (d blkno : Nat) : Option (Nat × Cache) :=
  match c.bufNew mem d blkno with
  | some r => some r
  | none =>
    match c.lru.find? fun b => !(c.bufs b).dirty with
    | some b => some (b, (c.bufClaim b).bufReassign b d blkno)
    | none => none

/-- The loop of `bread` that reads ahead, from its `n`-th block on. -/
def readAhead (mem : Nat → Bool) (len d blkno : Nat) : Nat → Nat → Cache → List Nat × Cache
  | 0, _, c => ([], c)
  | fuel + 1, n, c =>
    if blockLen len (blkno + n) ≠ 0 ∧ c.lookup d (blkno + n) = none then
      match c.getblkNowait (mem n) d (blkno + n) with
      | some (x, c₁) =>
        let r := readAhead mem len d blkno fuel (n + 1) c₁
        (x :: r.1, r.2)
      | none => ([], c)
    else ([], c)

/-- `cluster_member` -/
def clusterMember : Option Nat → Bool
  | some x => !(c.bufs x).busy && (c.bufs x).dirty
  | none => false

/-- The first loop of `writeback_cluster`, for block `blkno`. -/
def clusterFirst (d blkno : Nat) : Nat → Nat → Nat
  | 0, first => first
  | fuel + 1, first =>
    if blkno - first + 1 < runMax / 2 ∧ 0 < first ∧ c.clusterMember (c.lookup d (first - 1)) then
      clusterFirst d blkno fuel (first - 1)
    else first

/-- The second loop, around buffer `b`. -/
def clusterRun (b d : Nat) : Nat → Nat → Cache → List Nat × Cache
  | 0, _, c => ([], c)
  | fuel + 1, blk, c =>
    if blk = (c.bufs b).blkno then
      let r := clusterRun b d fuel (blk + 1) c
      (b :: r.1, r.2)
    else
      match c.lookup d blk with
      | none => ([], c)
      | some x =>
        if c.clusterMember (some x) then
          let r := clusterRun b d fuel (blk + 1) (c.bufClaim x)
          (x :: r.1, r.2)
        else ([], c)

/-- The buffers that `writeback_cluster` writes. -/
def cluster (b : Nat) : List Nat × Cache :=
  let d := (c.bufs b).dev
  clusterRun b d runMax (c.clusterFirst d (c.bufs b).blkno (runMax / 2) (c.bufs b).blkno) c

/-- A dirty buffer that `flush_dirty(d)` is to write. -/
def wanted (d : Option Nat) (b : Nat) : Bool := (c.bufs b).dirty && match d with
    | some d => (c.bufs b).dev == d
    | none => true

/-- A buffer in the scan of `flush_dirty`: the first idle dirty one in the order of the
device, and some busy one. -/
def scanBuf (d : Option Nat) (r : Option Nat × Option Nat) (b : Nat) : Option Nat × Option Nat :=
  if c.wanted d b then
    if (c.bufs b).busy then (r.1, some b)
    else match r.1 with
      | none => (some b, r.2)
      | some i =>
        if (c.bufs b).dev < (c.bufs i).dev ∨
            (c.bufs b).dev = (c.bufs i).dev ∧ (c.bufs b).blkno < (c.bufs i).blkno then (some b, r.2)
        else r
  else r

/-- The scan of `flush_dirty`. -/
def scan (d : Option Nat) : Option Nat × Option Nat :=
  ((List.range hashSize).flatMap c.hash).foldl (c.scanBuf d) (none, none)

end Cache

/-! ## The calls -/

inductive Op
  | read (off len : Nat)
  | write (off len : Nat) (src : Nat → UInt8)
  | flush
  | flusher

/-- `writeback_cluster` in progress. -/
structure Writeback where
  b : Nat
  run : List Nat
  /-- the raw request in progress -/
  req : List Nat
  /-- those still to be made: one for each buffer, if there were no pages to collect
  the run in -/
  rest : List Nat
  /-- the pages in which the run is collected -/
  staging : Option (Nat → Nat → UInt8)
  /-- called by `getblk`, or by `flush_dirty` -/
  victim : Bool

inductive Phase
  /-- at the head of the loop of `bc_read` or `bc_write` -/
  | loop
  /-- at the head of the loop of `flush_dirty` -/
  | flushing
  /-- at the head of the loop of `getblk` -/
  | get
  /-- `getblk` returned a buffer -/
  | got (b : Nat)
  /-- the raw read of `bread` -/
  | fill (run : List Nat) (taken : Nat → Option UInt8)
  /-- a buffer to copy from or to -/
  | holds (b : Nat)
  | write (w : Writeback)
  /-- the raw read of `direct_read` -/
  | direct (span : Nat) (taken : Nat → Option UInt8)
  /-- the raw flush of `bc_flush` -/
  | rawFlush
  | done (ret : Int)

structure Call where
  dev : Nat
  op : Op
  /-- how many bytes have been read or written -/
  pos : Nat
  out : Nat → UInt8
  /-- by address, how many values its byte had been given when the call began -/
  since : Nat → Nat
  phase : Phase

/-- The first byte that is still to be read or written. -/
def Call.addr (cl : Call) : Nat :=
  match cl.op with
  | .read off _ | .write off _ _ => off + cl.pos
  | .flush | .flusher => 0

/-- How many are left. -/
def Call.left (cl : Call) : Nat :=
  match cl.op with
  | .read _ len | .write _ len _ => len - cl.pos
  | .flush | .flusher => 0

/-- How many of them lie in the current block. -/
def Call.chunk (cl : Call) : Nat := min (block - cl.addr % block) cl.left

/-- The call overwrites the whole of the current block, on a device of `len` bytes. -/
def Call.whole (cl : Call) (len : Nat) : Bool :=
  match cl.op with
  | .write _ _ _ => cl.addr % block == 0 && blockLen len (cl.addr / block) ≤ cl.chunk
  | _ => false

/-- The argument of `flush_dirty`. -/
def Call.flushes (cl : Call) : Option Nat :=
  match cl.op with
  | .flusher => none
  | _ => some cl.dev

/-- Where a call goes on after `flush_dirty` returned. -/
def Call.afterFlush (cl : Call) (err : Int) : Phase :=
  match cl.op with
  | .read _ _ => .loop
  | .write _ _ _ | .flusher => .done 0
  | .flush => if err = 0 then .rawFlush else .done err

/-- The cache, the devices and the history of their bytes. -/
structure Store where
  cache : Cache
  /-- `part_length` -/
  len : Nat → Nat
  /-- the raw devices -/
  disk : Nat → Nat → UInt8
  hist : Nat → Nat → List UInt8

structure BSys extends Store where
  nextSeq : Nat → Nat
  call : Nat → Option Call

inductive Label
  /-- `late` says whether the last flush was long enough ago -/
  | call (p d : Nat) (op : Op) (late : Bool)
  | loop (p : Nat) (late : Bool)
  /-- `pages` says whether there are pages to collect a run in -/
  | scan (p : Nat) (pages : Bool)
  | get (p : Nat) (mem pages : Bool)
  | bread (p : Nat) (mem : Nat → Bool)
  /-- a raw read takes a byte -/
  | take (p a : Nat)
  | filled (p : Nat) (ok : Bool)
  | copy (p : Nat)
  /-- a byte of a raw write reaches the device -/
  | land (p a : Nat)
  | wrote (p : Nat) (ok : Bool)
  | directDone (p : Nat) (ok : Bool)
  | rawFlushed (p : Nat) (ok : Bool)
  | ret (p : Nat)

/-- The process that takes a step. -/
def Label.proc : Label → Nat
  | .call p _ _ _ | .loop p _ | .scan p _ | .get p _ _ | .bread p _ | .take p _ | .filled p _ | .copy p | .land p _
  | .wrote p _ | .directDone p _ | .rawFlushed p _ | .ret p => p

namespace Store

variable (s : Store)

/-- The test of `maybe_flush`. -/
def maybeFlush (late : Bool) : Bool := dirtyHigh < s.cache.ndirty || (s.cache.ndirty != 0 && late)

/-- The first byte and the length of the raw request for a run of buffers. -/
def runOff (run : List Nat) : Nat :=
  match run.head? with
  | some x => (s.cache.bufs x).blkno * block
  | none => 0

def runLen (run : List Nat) : Nat :=
  match run.getLast? with
  | some x => (run.length - 1) * block + blockLen (s.len (s.cache.bufs x).dev) (s.cache.bufs x).blkno
  | none => 0

/-- What a raw write has for the byte at address `a`. -/
def source (w : Writeback) (a : Nat) : Option UInt8 :=
  if s.runOff w.req ≤ a ∧ a < s.runOff w.req + s.runLen w.req then
    (w.req[(a - s.runOff w.req) / block]?).map fun x =>
      match w.staging with
      | some f => f x ((a - s.runOff w.req) % block)
      | none => (s.cache.bufs x).data ((a - s.runOff w.req) % block)
  else none

/-- The device a run is written to. -/
def devOf (w : Writeback) : Nat := (s.cache.bufs w.b).dev

/-- A buffer of device `d` once the raw read of `bread` is done. -/
def filledBuf (d : Nat) (taken : Nat → Option UInt8) (b : Buf) : Buf :=
  { b with
    valid := true
    data := fun j =>
      if j < blockLen (s.len d) b.blkno then (taken (b.blkno * block + j)).getD (s.disk d (b.blkno * block + j))
      else 0 }

def fillBuf (d : Nat) (taken : Nat → Option UInt8) (c : Cache) (x : Nat) : Cache :=
  c.setBuf x (s.filledBuf d taken (c.bufs x))

/-- The byte at `a` that `direct_read` returns: that of a valid buffer, or what the raw read
took. -/
def directByte (d : Nat) (taken : Nat → Option UInt8) (a : Nat) : UInt8 :=
  match (s.cache.lookup d (a / block)).filter fun b => (s.cache.bufs b).valid with
  | some b => (s.cache.bufs b).data (a % block)
  | none => (taken a).getD (s.disk d a)

end Store

namespace BSys

variable (s : BSys)

/-- Nothing is cached and no call is in progress. -/
def start (len : Nat → Nat) (disk : Nat → Nat → UInt8) : BSys where
  cache := Cache.empty
  len := len
  nextSeq := fun _ => 2 ^ 64 - 1
  disk := disk
  call := fun _ => none
  hist := fun d a => [disk d a]

def setCall (p : Nat) (cl : Option Call) : BSys := { s with call := update s.call p cl }

def setPhase (p : Nat) (cl : Call) (x : Phase) : BSys := s.setCall p (some { cl with phase := x })

/-- `writeback_cluster` up to its raw request. -/
def writeback (p : Nat) (cl : Call) (b : Nat) (pages victim : Bool) : BSys :=
  let r := s.cache.cluster b
  let w : Writeback :=
    if r.1.length ≤ 1 then ⟨b, r.1, r.1, [], none, victim⟩
    else if pages then ⟨b, r.1, r.1, [], some fun x => (r.2.bufs x).data, victim⟩
    else ⟨b, r.1, r.1.take 1, r.1.drop 1, none, victim⟩
  { s.setPhase p cl (.write w) with cache := r.2 }

/-- All of a raw write has reached the device. -/
def landed (w : Writeback) : BSys :=
  { s with disk := update s.disk (s.devOf w) fun a =>
    (s.source w a).getD (s.disk (s.devOf w) a) }

/-- The end of `writeback_cluster`, and of the turn of the loop it is in. -/
def writebackEnd (p : Nat) (cl : Call) (w : Writeback) (err : Int) : BSys :=
  let c₁ := if err = 0 then w.run.foldl (fun c x => c.markClean x) s.cache else s.cache
  let c₂ := (w.run.filter (· ≠ w.b)).foldl (fun c x => c.bufRelease x) c₁
  let x := if w.victim then .get else if err = 0 then .flushing else cl.afterFlush err
  { s.setPhase p cl x with cache := c₂.bufRelease w.b }

/-- The end of the raw read of `bread`. -/
def filled (p : Nat) (cl : Call) (b : Nat) (run : List Nat) (taken : Nat → Option UInt8) (ok : Bool) : BSys :=
  let c₁ := if ok then (b :: run).foldl (s.fillBuf cl.dev taken) s.cache else s.cache
  let c₂ := run.foldl (fun c x => c.bufRelease x) c₁
  let s' := { s with nextSeq := update s.nextSeq cl.dev (cl.addr / block + (run.length + 1)) }
  if ok then { s'.setPhase p cl (.holds b) with cache := c₂ }
  else { s'.setPhase p cl (.done (-5)) with cache := c₂.bufRelease b }

/-- `memcpy` from the buffer, in `bc_read` -/
def copyOut (p : Nat) (cl : Call) (b : Nat) : BSys :=
  let x := s.cache.bufs b
  { s.setCall p (some { cl with
      pos := cl.pos + cl.chunk
      out := fun i => if cl.pos ≤ i ∧ i < cl.pos + cl.chunk then x.data (cl.addr % block + (i - cl.pos)) else cl.out i
      phase := .loop }) with
    cache := s.cache.bufRelease b }

/-- `memcpy` to the buffer, in `bc_write` -/
def copyIn (p : Nat) (cl : Call) (off : Nat) (src : Nat → UInt8) (b : Nat) : BSys :=
  let x := s.cache.bufs b
  let inb := cl.addr % block
  let c₁ := { s.cache.setBuf b { x with
      valid := true
      dirty := true
      data := fun j => if inb ≤ j ∧ j < inb + cl.chunk then src (cl.pos + (j - inb)) else x.data j } with
    ndirty := if x.dirty then s.cache.ndirty else s.cache.ndirty + 1 }
  { s.setCall p (some { cl with pos := cl.pos + cl.chunk, phase := .loop }) with
    cache := c₁.bufRelease b
    hist := update s.hist cl.dev fun a =>
      if cl.addr ≤ a ∧ a < cl.addr + cl.chunk then s.hist cl.dev a ++ [src (a - off)] else s.hist cl.dev a }

def exec : Label → Option BSys
  | .call p d op late =>
    match s.call p with
    | some _ => none
    | none =>
      let cl : Call := ⟨d, op, 0, fun _ => 0, fun a => (s.hist d a).length - 1, .loop⟩
      match op with
      | .read _ _ => some (s.setPhase p cl (if s.maybeFlush late then .flushing else .loop))
      | .write _ _ _ => some (s.setPhase p cl .loop)
      | .flush => some (s.setPhase p cl .flushing)
      | .flusher => some (s.setPhase p cl (if s.cache.ndirty ≠ 0 then .flushing else .done 0))
  | .loop p late => do
    let cl ← s.call p
    match cl.phase, cl.op with
    | .loop, .read _ _ =>
      if cl.left = 0 then some (s.setPhase p cl (.done 0))
      else if cl.addr % block = 0 ∧ directMin ≤ cl.left then
        some (s.setPhase p cl (.direct (cl.left / block * block) fun _ => none))
      else some (s.setPhase p cl .get)
    | .loop, .write _ _ _ =>
      if cl.left = 0 then some (s.setPhase p cl (if s.maybeFlush late then .flushing else .done 0))
      else some (s.setPhase p cl .get)
    | _, _ => none
  | .scan p pages => do
    let cl ← s.call p
    match cl.phase with
    | .flushing =>
      match s.cache.scan cl.flushes with
      | (some b, _) => some ({ s with cache := s.cache.bufClaim b }.writeback p cl b pages false)
      | (none, some _) => some s
      | (none, none) => some (s.setPhase p cl (cl.afterFlush 0))
    | _ => none
  | .get p mem pages => do
    let cl ← s.call p
    match cl.phase with
    | .get =>
      match s.cache.getblk mem cl.dev (cl.addr / block) with
      | (.sleep, _) => some s
      | (.buf b, c) => some { s.setPhase p cl (.got b) with cache := c }
      | (.victim v, c) => some ({ s with cache := c }.writeback p cl v pages true)
    | _ => none
  | .bread p mem => do
    let cl ← s.call p
    match cl.phase with
    | .got b =>
      if cl.whole (s.len cl.dev) || (s.cache.bufs b).valid then some (s.setPhase p cl (.holds b))
      else
        let blkno := cl.addr / block
        let want := if blkno = s.nextSeq cl.dev then raMax else 1
        let r := Cache.readAhead mem (s.len cl.dev) cl.dev blkno (want - 1) 1 s.cache
        some { s.setPhase p cl (.fill (b :: r.1) fun _ => none) with cache := r.2 }
    | _ => none
  | .take p a => do
    let cl ← s.call p
    match cl.phase with
    | .fill run taken => some (s.setPhase p cl (.fill run (update taken a (some (s.disk cl.dev a)))))
    | .direct span taken => some (s.setPhase p cl (.direct span (update taken a (some (s.disk cl.dev a)))))
    | _ => none
  | .filled p ok => do
    let cl ← s.call p
    match cl.phase with
    | .fill (b :: run) taken => some (s.filled p cl b run taken ok)
    | _ => none
  | .copy p => do
    let cl ← s.call p
    match cl.phase, cl.op with
    | .holds b, .read _ _ => some (s.copyOut p cl b)
    | .holds b, .write off _ src => some (s.copyIn p cl off src b)
    | _, _ => none
  | .land p a => do
    let cl ← s.call p
    match cl.phase with
    | .write w => do
      let x ← s.source w a
      some { s with disk := update s.disk (s.devOf w) (update (s.disk (s.devOf w)) a x) }
    | _ => none
  | .wrote p ok => do
    let cl ← s.call p
    match cl.phase with
    | .write w =>
      if ok then
        match w.rest with
        | [] => some ((s.landed w).writebackEnd p cl w 0)
        | x :: xs => some ((s.landed w).setPhase p cl (.write { w with req := [x], rest := xs }))
      else some (s.writebackEnd p cl w (-5))
    | _ => none
  | .directDone p ok => do
    let cl ← s.call p
    match cl.phase with
    | .direct span taken =>
      if ok then
        some (s.setCall p (some { cl with
          pos := cl.pos + span
          out := fun i =>
            if cl.pos ≤ i ∧ i < cl.pos + span then s.directByte cl.dev taken (cl.addr + (i - cl.pos)) else cl.out i
          phase := .loop }))
      else some (s.setPhase p cl (.done (-5)))
    | _ => none
  | .rawFlushed p ok => do
    let cl ← s.call p
    match cl.phase with
    | .rawFlush => some (s.setPhase p cl (.done (if ok then 0 else -5)))
    | _ => none
  | .ret p => do
    let cl ← s.call p
    match cl.phase with
    | .done _ => some (s.setCall p none)
    | _ => none

/-- Any devices with any contents. -/
def system : LTS BSys Label := LTS.ofOption (fun s => ∃ len disk, s = start len disk) exec

end BSys

end Hermes.L4.Bcache
