import Mathlib

/-!
# Physical pages

`hardware/memory/pmm.c` and the parts of the machine that the address-space
code of `vm.c` calls: the page bitmap with its 16-bit share counters, the
frames' contents, and a record of the calls that leave the kernel's data
structures (file operations, page-table writes, TLB maintenance, frames
given back). Frames are page numbers; frame 0 is never handed out.

The allocators are oracles: `Env` gives one answer per request, so that
every outcome of `malloc`, of the page allocator's search and of a
page-table allocation is covered.
-/
namespace Hermes.L2

open Function

/-- A page-table entry: the frame it holds (0: none) and the bits the
kernel reads, `PTE_DIRTY` and `PTE_COW` among them. -/
structure Pte where
  frame : Nat
  present : Bool
  writable : Bool
  user : Bool
  dirty : Bool
  cow : Bool
deriving DecidableEq, Repr

/-- `*pte = 0` -/
def Pte.zero : Pte := ⟨0, false, false, false, false, false⟩

/-- What a call does outside the address space's own records, in order. -/
inductive Act
  | acquire (file : Nat)
  | release (file : Nat)
  | write (file offset frame : Nat)
  | pte (va : Nat) (p : Pte)
  | invlpg (va : Nat)
  | shootdown
  | freed (frame : Nat)
deriving DecidableEq, Repr

/-- The allocators' answers, one per request. -/
structure Env where
  malloc : Nat → Bool
  page : Nat → Nat
  tables : Nat → Bool

structure Mach where
  used : Nat → Bool
  sharedRefs : Nat → Nat
  totalPages : Nat
  mem : Nat → Nat → UInt8
  acts : List Act
  tick : Nat

namespace Mach

def act (mc : Mach) (a : Act) : Mach := { mc with acts := mc.acts ++ [a] }

/-- One request to the kernel heap. -/
def malloc (env : Env) (mc : Mach) : Bool × Mach := (env.malloc mc.tick, { mc with tick := mc.tick + 1 })

/-- `alloc_physical_page`: some free page, or 0. -/
def allocPhysicalPage (env : Env) (mc : Mach) : Nat × Mach :=
  let f := env.page mc.tick
  if f ≠ 0 ∧ f < mc.totalPages ∧ mc.used f = false then
    (f, { mc with used := update mc.used f true, tick := mc.tick + 1 })
  else (0, { mc with tick := mc.tick + 1 })

/-- `free_physical_page`: drop one share, or give the page back. -/
def freePhysicalPage (f : Nat) (mc : Mach) : Mach :=
  if f ≠ 0 ∧ f < mc.totalPages then
    if mc.sharedRefs f ≠ 0 then
      { mc with sharedRefs := update mc.sharedRefs f (mc.sharedRefs f - 1) }
    else { mc with used := update mc.used f false }.act (.freed f)
  else mc

/-- `pmm_share_page`: the counter stops at its largest value. -/
def sharePage (f : Nat) (mc : Mach) : Mach :=
  if f < mc.totalPages ∧ mc.sharedRefs f < 0xFFFF then
    { mc with sharedRefs := update mc.sharedRefs f (mc.sharedRefs f + 1) }
  else mc

/-- `pmm_page_shared` -/
def pageShared (f : Nat) (mc : Mach) : Bool := decide (f < mc.totalPages ∧ mc.sharedRefs f ≠ 0)

def setMem (f : Nat) (bytes : Nat → UInt8) (mc : Mach) : Mach := { mc with mem := update mc.mem f bytes }

end Mach

end Hermes.L2
