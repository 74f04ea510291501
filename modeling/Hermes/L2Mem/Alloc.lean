import Hermes.Core.LTS

/-!
# The kernel heap

`hardware/memory/alloc.c`. A block is a header of two words, its size and
its link, with the block's bytes behind it; memory has a cell at every
address, and a word of a header is the cell of its first byte. Free blocks,
slab objects and cached objects are linked through their headers, as in the
source, and a block that is handed out carries `BLOCK_USED` or
`BLOCK_LARGE` in place of a link.

`alloc_kernel_pages` is an oracle: any page-aligned range that is not held,
with any contents, or none. A step is one section that `heap_lock`, the
page allocator's lock or the interrupt flag makes atomic; `malloc` and
`realloc` are several such steps, and other threads run in between.
-/
namespace Hermes.L2.Alloc

open Function

abbrev heapInitialSize : Nat := 33554432
abbrev heapGrowSize : Nat := 4194304
abbrev largeAllocThreshold : Nat := 32768
abbrev binMax : Nat := 1024
abbrev cacheMax : Nat := 32
abbrev cacheBatch : Nat := 16
abbrev binSlabPages : Nat := 16

def blockUsed : Nat := 0x4845415055534544
def blockLarge : Nat := 0x484541504C524745

/-- `PAGE_ALIGN_UP`, for sizes far from the end of the word. -/
def pageUp (x : Nat) : Nat := (x + 4095) / 4096 * 4096

/-- `(size + BIN_STEP - 1) & ~(BIN_STEP - 1)` -/
def alignUp (size : Nat) : Nat := (size + 15) / 16 * 16

structure CpuBin where
  head : Nat
  count : Nat
deriving DecidableEq, Repr

/-- `held` are the kernel pages that the heap has got and not given back. -/
structure Heap where
  mem : Nat → Nat
  firstFree : Nat
  bins : Nat → Nat
  caches : Nat → Nat → CpuBin
  held : Nat → Bool

/-- `block->size = v` -/
def setSize (block v : Nat) (mem : Nat → Nat) : Nat → Nat := update mem block v

/-- `block->next` -/
def nextOf (mem : Nat → Nat) (block : Nat) : Nat := mem (block + 8)

/-- `block->next = v` -/
def setNext (block v : Nat) (mem : Nat → Nat) : Nat → Nat := update mem (block + 8) v

def Heap.setCache (cpu bin : Nat) (c : CpuBin) (h : Heap) : Heap :=
  { h with caches := update h.caches cpu (update (h.caches cpu) bin c) }

/-! ## The free list -/

/-- The loop of `insert_free_locked`: the blocks before and behind the place
of `block`. Addresses rise along the list, so `block` turns are enough. -/
def findPlace (mem : Nat → Nat) (block : Nat) : Nat → Nat → Nat → Nat × Nat
  | 0, previous, next => (previous, next)
  | n + 1, previous, next =>
    if next ≠ 0 ∧ next < block then findPlace mem block n next (nextOf mem next) else (previous, next)

/-- `block` linked before `next`, and joined with it if they are adjacent. -/
def joinNext (block next : Nat) (mem : Nat → Nat) : Nat → Nat :=
  let mem := setNext block next mem
  if next ≠ 0 ∧ block + 16 + mem block = next then
    let mem := setSize block (mem block + (16 + mem next)) mem
    setNext block (nextOf mem next) mem
  else mem

/-- `insert_free_locked` -/
def insertFreeLocked (block : Nat) (h : Heap) : Heap :=
  let place := findPlace h.mem block block 0 h.firstFree
  let mem := joinNext block place.2 h.mem
  if place.1 = 0 then { h with mem := mem, firstFree := block }
  else if place.1 + 16 + mem place.1 = block then
    let mem := setSize place.1 (mem place.1 + (16 + mem block)) mem
    { h with mem := setNext place.1 (nextOf mem block) mem }
  else { h with mem := setNext place.1 block mem }

/-- The block of `heap_take`, cut to `size` where enough is left for another:
the memory, and what follows in the free list. -/
def cutBlock (size current : Nat) (mem : Nat → Nat) : (Nat → Nat) × Nat :=
  let next := nextOf mem current
  if size + 16 + 16 ≤ mem current then
    let split := current + (size + 16)
    let mem' := setNext split next (setSize split (mem current - (size + 16)) mem)
    (setSize current size mem', split)
  else (mem, next)

/-- The loop of `heap_take`; the result is a pointer behind the block's
header, or null. -/
def takeFrom (size : Nat) : Nat → Nat → Nat → Heap → Nat × Heap
  | 0, _, _, h => (0, h)
  | n + 1, previous, current, h =>
    if current = 0 then (0, h)
    else if size ≤ h.mem current then
      let cut := cutBlock size current h.mem
      let h := if previous ≠ 0 then { h with mem := setNext previous cut.2 cut.1 }
        else { h with mem := cut.1, firstFree := cut.2 }
      (current + 16, { h with mem := setNext current blockUsed h.mem })
    else takeFrom size n current (nextOf h.mem current) h

/-- `heap_take`; the list is no longer than the address space. -/
def heapTake (size : Nat) (h : Heap) : Nat × Heap := takeFrom size (2 ^ 64) 0 h.firstFree h

/-! ## Pages -/

/-- `alloc_kernel_pages(n)`: the range at `at'`, with contents `junk`, if it
may be given out. -/
def allocKernelPages (at' : Nat) (junk : Nat → Nat) (n : Nat) (h : Heap) : Nat × Heap :=
  if at' ≠ 0 ∧ at' % 4096 = 0 ∧ at' + n * 4096 ≤ 2 ^ 64 ∧ ∀ k < n, h.held (at' / 4096 + k) = false then
    (at', { h with
      held := fun p => if at' / 4096 ≤ p ∧ p < at' / 4096 + n then true else h.held p
      mem := fun x => if at' ≤ x ∧ x < at' + n * 4096 then junk x else h.mem x })
  else (0, h)

/-- `free_kernel_pages` -/
def freeKernelPages (first n : Nat) (h : Heap) : Heap :=
  { h with held := fun p => if first / 4096 ≤ p ∧ p < first / 4096 + n then false else h.held p }

/-- `chunk->size = bytes - sizeof(memory_block_t)`, in the pages just got. -/
def newChunk (bytes : Nat) (r : Nat × Heap) : Heap := { r.2 with mem := setSize r.1 (bytes - 16) r.2.mem }

/-- The heap's part of `memory_initialize`. -/
def memoryInitialize (at' : Nat) (junk : Nat → Nat) (h : Heap) : Heap :=
  let r := allocKernelPages at' junk (heapInitialSize / 4096) h
  insertFreeLocked r.1 (newChunk heapInitialSize r)

/-! ## Slab objects -/

/-- The loop of `bin_refill_locked`: the last of the objects taken, and how
many there are. -/
def refillTail (mem : Nat → Nat) : Nat → Nat → Nat → Nat × Nat
  | 0, tail, taken => (tail, taken)
  | n + 1, tail, taken =>
    if nextOf mem tail ≠ 0 then refillTail mem n (nextOf mem tail) (taken + 1) else (tail, taken)

/-- `bin_refill_locked` -/
def binRefillLocked (bin cpu : Nat) (h : Heap) : Nat × Heap :=
  let head := h.bins bin
  if head = 0 then (0, h)
  else
    let r := refillTail h.mem (cacheBatch - 1) head 1
    let mem := setNext r.1 0 h.mem
    (head, { h with mem := mem, bins := update h.bins bin (nextOf h.mem r.1) }.setCache cpu bin
      ⟨nextOf mem head, r.2 - 1⟩)

/-- The section of `bin_alloc` with interrupts off. -/
def binPop (bin cpu : Nat) (h : Heap) : Nat × Heap :=
  let cache := h.caches cpu bin
  let r := if cache.head ≠ 0 then (cache.head, h.setCache cpu bin ⟨nextOf h.mem cache.head, cache.count - 1⟩)
    else binRefillLocked bin cpu h
  if r.1 ≠ 0 then (r.1 + 16, { r.2 with mem := setNext r.1 blockUsed r.2.mem }) else (0, r.2)

/-- The loop of `bin_add_slab`, from the last object down: the first object,
and the memory with the objects linked. -/
def buildSlab (slab objectSize : Nat) : Nat → Nat → (Nat → Nat) → Nat × (Nat → Nat)
  | 0, head, mem => (head, mem)
  | n + 1, head, mem =>
    let object := slab + n * (objectSize + 16)
    buildSlab slab objectSize n object (setNext object head (setSize object objectSize mem))

/-- The number of objects in a slab. -/
def slabCount (objectSize : Nat) : Nat := binSlabPages * 4096 / (objectSize + 16)

/-- The end of `bin_add_slab`: the objects go to the front of the bin. -/
def pushSlab (bin head tail : Nat) (h : Heap) : Heap :=
  { h with mem := setNext tail (h.bins bin) h.mem, bins := update h.bins bin head }

/-- The loop of `bin_free`: the object `n` links behind. -/
def batchTail (mem : Nat → Nat) : Nat → Nat → Nat
  | 0, tail => tail
  | n + 1, tail => batchTail mem n (nextOf mem tail)

/-- `bin_free` -/
def binFree (object cpu : Nat) (h : Heap) : Heap :=
  let bin := h.mem object / 16 - 1
  let cache := h.caches cpu bin
  let mem := setNext object cache.head h.mem
  let count := cache.count + 1
  if cacheMax ≤ count then
    let tail := batchTail mem (cacheBatch - 1) object
    { h with
      mem := setNext tail (h.bins bin) mem
      bins := update h.bins bin object }.setCache cpu bin ⟨nextOf mem tail, count - cacheBatch⟩
  else { h with mem := mem }.setCache cpu bin ⟨object, count⟩

/-- The section of `free` that gives the block back. -/
def freeBlock (ptr cpu : Nat) (h : Heap) : Heap :=
  let block := ptr - 16
  if nextOf h.mem block = blockLarge then
    freeKernelPages block ((h.mem block + 16) / 4096) { h with mem := setNext block 0 h.mem }
  else if nextOf h.mem block ≠ blockUsed then h
  else if h.mem block ≤ binMax then binFree block cpu h
  else insertFreeLocked block h

/-! ## Threads -/

/-- What `malloc` runs for: its own caller, or `realloc` of a block that was
requested with `old` bytes. -/
inductive Job
  | malloc (size : Nat)
  | realloc (ptr old size : Nat)
deriving DecidableEq, Repr

def Job.size : Job → Nat
  | .malloc size => size
  | .realloc _ _ size => size

/-- `aligned_size` -/
def Job.aligned (j : Job) : Nat := alignUp j.size

def Job.bin (j : Job) : Nat := j.aligned / 16 - 1

/-- The bytes of a new chunk: `HEAP_GROW_SIZE`, or, again or for a larger
block, as many as the block needs. -/
def Job.chunkBytes (j : Job) (again : Bool) : Nat :=
  if pageUp (j.aligned + 16) < heapGrowSize ∧ again = false then heapGrowSize
  else pageUp (j.aligned + 16)

/-- Where a thread stands: the section it runs next. -/
inductive Pc
  | idle
  | bin (j : Job)
  | slab (j : Job)
  | push (j : Job) (head tail : Nat)
  | large (j : Job)
  | take (j : Job)
  | grow (j : Job) (again : Bool)
  | chunk (j : Job) (block : Nat)
  | free (ptr : Nat) (ret : Option (Nat × Nat))
deriving DecidableEq, Repr

/-- `live`: the pointers in the callers' hands, with the sizes requested. -/
structure Sys where
  heap : Heap
  pc : Nat → Pc
  live : List (Nat × Nat)

namespace Sys

def goto (t : Nat) (pc : Pc) (s : Sys) : Sys := { s with pc := update s.pc t pc }

/-- The block at `ptr` was requested with `size` bytes and leaves the caller's hand. -/
def take (ptr size : Nat) (s : Sys) : Sys := { s with live := s.live.erase (ptr, size) }

def give (ptr size : Nat) (s : Sys) : Sys := { s with live := (ptr, size) :: s.live }

/-- `malloc` returns null. -/
def fail (t : Nat) (j : Job) (s : Sys) : Sys :=
  match j with
  | .malloc _ => s.goto t .idle
  | .realloc ptr old _ => (s.give ptr old).goto t .idle

/-- `memcpy(dst, src, bytes)` -/
def copy (dst src bytes : Nat) (mem : Nat → Nat) : Nat → Nat := fun x =>
  if dst ≤ x ∧ x < dst + bytes then mem (src + (x - dst)) else mem x

/-- `malloc` returns `ptr`; `realloc` copies the old block and frees it. -/
def finish (t : Nat) (j : Job) (ptr : Nat) (s : Sys) : Sys :=
  match j with
  | .malloc size => (s.give ptr size).goto t .idle
  | .realloc old _ size =>
    { s with heap.mem := copy ptr old (s.heap.mem (old - 16)) s.heap.mem }.goto t (.free old (some (ptr, size)))

/-- The beginning of `malloc`. -/
def start (t : Nat) (j : Job) (s : Sys) : Sys :=
  if j.size = 0 ∨ 2 ^ 40 < j.size then s.fail t j
  else if j.aligned ≤ binMax then s.goto t (.bin j)
  else if largeAllocThreshold ≤ j.aligned then s.goto t (.large j)
  else s.goto t (.take j)

/-- The next section of a thread on a processor; the page allocator, if it is
asked, answers with the range at `at'`. -/
def run (t cpu at' : Nat) (junk : Nat → Nat) (s : Sys) : Sys :=
  match s.pc t with
  | .idle => s
  | .bin j =>
    let r := binPop j.bin cpu s.heap
    let s := { s with heap := r.2 }
    if r.1 ≠ 0 then s.finish t j r.1 else s.goto t (.slab j)
  | .slab j =>
    let r := allocKernelPages at' junk binSlabPages s.heap
    if r.1 = 0 then { s with heap := r.2 }.goto t (.take j)
    else
      let b := buildSlab r.1 j.aligned (slabCount j.aligned) 0 r.2.mem
      { s with heap := { r.2 with mem := b.2 } }.goto t
        (.push j b.1 (r.1 + (slabCount j.aligned - 1) * (j.aligned + 16)))
  | .push j head tail => { s with heap := pushSlab j.bin head tail s.heap }.goto t (.bin j)
  | .large j =>
    let bytes := pageUp (j.aligned + 16)
    let r := allocKernelPages at' junk (bytes / 4096) s.heap
    if r.1 = 0 then { s with heap := r.2 }.goto t (.take j)
    else
      { s with heap := { newChunk bytes r with
        mem := setNext r.1 blockLarge (newChunk bytes r).mem } }.finish t j (r.1 + 16)
  | .take j =>
    let r := heapTake j.aligned s.heap
    let s := { s with heap := r.2 }
    if r.1 ≠ 0 then s.finish t j r.1 else s.goto t (.grow j false)
  | .grow j again =>
    let bytes := j.chunkBytes again
    let r := allocKernelPages at' junk (bytes / 4096) s.heap
    if r.1 ≠ 0 then
      { s with heap := newChunk bytes r }.goto t (.chunk j r.1)
    else if pageUp (j.aligned + 16) < heapGrowSize ∧ again = false then
      { s with heap := r.2 }.goto t (.grow j true)
    else { s with heap := r.2 }.fail t j
  | .chunk j block => { s with heap := insertFreeLocked block s.heap }.goto t (.take j)
  | .free ptr ret =>
    let s := { s with heap := freeBlock ptr cpu s.heap }
    match ret with
    | some (new, size) => (s.give new size).goto t .idle
    | none => s.goto t .idle

end Sys

/-- What callers and threads do. -/
inductive Ev
  | malloc (t size : Nat)
  | free (t ptr size : Nat)
  | realloc (t ptr old size : Nat)
  | run (t cpu at' : Nat) (junk : Nat → Nat)
  | store (ptr size offset v : Nat)

namespace Sys

/-- One step. A call is made by an idle thread, on a block in a caller's
hand; a store goes to one of the bytes that the caller asked for. -/
def step (s : Sys) : Ev → Sys
  | .malloc t size => if s.pc t = .idle then s.start t (.malloc size) else s
  | .free t ptr size =>
    if s.pc t = .idle ∧ (ptr, size) ∈ s.live then (s.take ptr size).goto t (.free ptr none) else s
  | .realloc t ptr old size =>
    if s.pc t = .idle ∧ (ptr, old) ∈ s.live then
      if size = 0 then (s.take ptr old).goto t (.free ptr none)
      else if nextOf s.heap.mem (ptr - 16) ≠ blockUsed ∧ nextOf s.heap.mem (ptr - 16) ≠ blockLarge then s
      else if size ≤ s.heap.mem (ptr - 16) then (s.take ptr old).give ptr size
      else (s.take ptr old).start t (.realloc ptr old size)
    else s
  | .run t cpu at' junk => s.run t cpu at' junk
  | .store ptr size offset v =>
    if (ptr, size) ∈ s.live ∧ offset < size then
      { s with heap.mem := update s.heap.mem (ptr + offset) v }
    else s

/-- No page held, nothing on any list. -/
def Empty (h : Heap) : Prop :=
  h.firstFree = 0 ∧ (∀ b, h.bins b = 0) ∧ (∀ c b, h.caches c b = ⟨0, 0⟩) ∧ ∀ p, h.held p = false

/-- After `memory_initialize`, which panics when there is no first chunk. -/
def Boot (s : Sys) : Prop := (∃ h at' junk, Empty h ∧ (allocKernelPages at' junk (heapInitialSize / 4096) h).1 ≠ 0 ∧
    s.heap = memoryInitialize at' junk h) ∧
  (∀ t, s.pc t = .idle) ∧ s.live = []

end Sys

/-- The heap with its threads. -/
def system : LTS Sys Ev := LTS.ofFn Sys.Boot Sys.step

end Hermes.L2.Alloc
