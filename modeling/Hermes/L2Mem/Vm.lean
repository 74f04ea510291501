import Hermes.Core.LTS
import Hermes.Core.Intervals
import Hermes.L2Mem.Pmm

/-!
# Address spaces

`hardware/memory/vm.c`, function by function. An address space is a
sequence of areas, a page table and a queue of deferred file operations.
`vm->areas` is kept as the in-order sequence of the source's tree;
`Hermes.Core.Intervals` relates the two. Addresses and lengths are 64-bit:
sums that can leave the word wrap explicitly, and the per-page loops run
over `pages`. The page table is a total map from page numbers, an absent
table reading as entries that are zero.
-/
namespace Hermes.L2.Vm

open Hermes.Intervals Function

abbrev userAddrMin : Nat := 0x40000000
abbrev userAddrLimit : Nat := 0x800000000000
abbrev userMmapBase : Nat := 0x300000000000
abbrev userStackTop : Nat := 0x7FFFFFFFF000
abbrev userStackLimit : Nat := 0x800000

/-- Wrap to 64 bits. -/
def wrap (x : Nat) : Nat := x % 2 ^ 64

/-- `PAGE_ALIGN_UP` -/
def pageAlignUp (x : Nat) : Nat := wrap (x + 4095) / 4096 * 4096

/-- `x & PAGE_MASK` -/
def pageBase (x : Nat) : Nat := x / 4096 * 4096

/-- `for (va = start; va < end; va += PAGE_SIZE)` -/
def pages (start stop : Nat) : List Nat := (List.range ((stop - start + 4095) / 4096)).map fun k => start + 4096 * k

structure Prot where
  read : Bool
  write : Bool
  exec : Bool
deriving DecidableEq, Repr

def Prot.none : Prot := ⟨false, false, false⟩

structure AreaFlags where
  stack : Bool
  heap : Bool
  shared : Bool
  noWrite : Bool
deriving DecidableEq, Repr

/-- `struct vm_area`; file 0 is the null pointer. -/
structure VmArea where
  start : Nat
  stop : Nat
  prot : Prot
  flags : AreaFlags
  file : Nat
  offset : Nat
deriving DecidableEq, Repr

instance : Interval VmArea := ⟨VmArea.start, VmArea.stop⟩

/-- `a->prot & (write ? VM_WRITE : VM_READ)` -/
def VmArea.allows (a : VmArea) (write : Bool) : Bool := if write then a.prot.write else a.prot.read

/-- `a->offset + (va - a->start)` -/
def VmArea.offsetAt (a : VmArea) (va : Nat) : Nat := wrap (a.offset + (va - a.start))

/-- `struct vm_flush`: a frame to write back, or with frame 0 a file to release. -/
structure Flush where
  file : Nat
  offset : Nat
  frame : Nat
deriving DecidableEq, Repr

structure VmSpace where
  areas : List VmArea
  pageMap : Nat → Pte
  refCount : Nat
  brkStart : Nat
  brk : Nat
  mmapBase : Nat
  pending : List Flush

inductive Errno
  | einval
  | enomem
  | efault
  | eacces
deriving DecidableEq, Repr

/-- What a call works on: the space whose lock it holds, and the machine. -/
structure St where
  vm : VmSpace
  mc : Mach

/-! ## The area sequence -/

/-- `area_at_or_after` -/
def areaAtOrAfter (areas : List VmArea) (addr : Nat) : Option VmArea := firstAfter areas addr

/-- The areas from `area_at_or_after(addr)` on, as `area_next` visits them, and those before. -/
def areasFrom (areas : List VmArea) (addr : Nat) : List VmArea := areas.dropWhile fun a => decide (a.stop ≤ addr)

def areasBefore (areas : List VmArea) (addr : Nat) : List VmArea := areas.takeWhile fun a => decide (a.stop ≤ addr)

/-- `area_insert` -/
def areaInsert (a : VmArea) (areas : List VmArea) : List VmArea := Intervals.insert a areas

/-- `vm_find` -/
def vmFind (areas : List VmArea) (addr : Nat) : Option VmArea :=
  match areaAtOrAfter areas addr with
  | some a => if a.start ≤ addr then some a else none
  | none => none

/-- `vm_range_free` -/
def vmRangeFree (areas : List VmArea) (start stop : Nat) : Bool :=
  match areaAtOrAfter areas start with
  | some a => decide (stop ≤ a.start)
  | none => true

/-- The area `a`, changed in place to `a'`. -/
def areaSet (areas : List VmArea) (a a' : VmArea) : List VmArea := areas.map fun x => if x = a then a' else x

/-- `user_range` -/
def userRange (start stop : Nat) : Bool := decide (userAddrMin ≤ start ∧ stop ≤ userAddrLimit ∧ start < stop)

/-- The loop of `find_gap`: the candidate it ends with. -/
def gapFrom (len : Nat) : List VmArea → Nat → Nat
  | [], candidate => candidate
  | a :: rest, candidate =>
    if wrap (candidate + len) ≤ a.start then candidate else gapFrom len rest a.stop

def gapCandidate (vm : VmSpace) (len : Nat) : Nat := gapFrom len (areasFrom vm.areas vm.mmapBase) vm.mmapBase

/-- `find_gap`: 0 when there is none. -/
def findGap (vm : VmSpace) (len : Nat) : Nat :=
  let candidate := gapCandidate vm len
  if wrap (candidate + len) ≤ userStackTop - userStackLimit then candidate else 0

/-! ## Page-table entries -/

/-- `pte_flags` -/
def pteFlags (prot : Prot) : Pte :=
  if prot = Prot.none then { Pte.zero with user := true }
  else { Pte.zero with present := true, user := true, writable := prot.write }

/-- `pte_with_prot`: the frame, dirty and copy-on-write bits stay, and an
entry that is copy-on-write never becomes writable. -/
def pteWithProt (p : Pte) (prot : Prot) : Pte :=
  let flags := pteFlags prot
  { flags with
    frame := p.frame
    dirty := p.dirty
    cow := p.cow
    writable := flags.writable && !p.cow }

namespace St

/-- `*mmu_find_pte(vm->page_map, va)` -/
def pte (st : St) (va : Nat) : Pte := st.vm.pageMap (va / 4096)

def act (st : St) (a : Act) : St := { st with mc := st.mc.act a }

def setPte (va : Nat) (p : Pte) (st : St) : St :=
  { st with vm.pageMap := update st.vm.pageMap (va / 4096) p }.act (.pte va p)

def invalidate (va : Nat) (st : St) : St := st.act (.invlpg va)

/-- `smp_tlb_shootdown` -/
def shootdown (st : St) : St := st.act .shootdown

/-- `map_page_in`: fails when a page table cannot be allocated. -/
def mapPageIn (env : Env) (va : Nat) (p : Pte) (st : St) : Bool × St :=
  let st' := { st with mc.tick := st.mc.tick + 1 }
  if env.tables st.mc.tick then (true, (st'.setPte va p).invalidate va) else (false, st')

def freePage (f : Nat) (st : St) : St := { st with mc := st.mc.freePhysicalPage f }

end St

/-! ## Deferred file operations -/

/-- `queue` -/
def queue (env : Env) (a : VmArea) (offset frame : Nat) (st : St) : St :=
  match st.mc.malloc env with
  | (false, mc) => if frame ≠ 0 then { st with mc := mc.freePhysicalPage frame } else { st with mc := mc }
  | (true, mc) =>
    { st with vm.pending := st.vm.pending ++ [⟨a.file, offset, frame⟩], mc := mc }

/-- One page of `queue_dirty`. -/
def queuePage (env : Env) (a : VmArea) (clear : Bool) (st : St) (va : Nat) : St :=
  let p := st.pte va
  if p.frame = 0 ∨ p.dirty = false then st
  else
    let st := { st with mc := st.mc.sharePage p.frame }
    let st := queue env a (a.offsetAt va) p.frame st
    if clear then (st.setPte va { p with dirty := false }).invalidate va else st

/-- `queue_dirty` -/
def queueDirty (env : Env) (a : VmArea) (start stop : Nat) (clear : Bool) (st : St) : St :=
  (pages start stop).foldl (queuePage env a clear) st

/-- One entry of `run_flush`. -/
def runOne (mc : Mach) (w : Flush) : Mach :=
  if w.frame ≠ 0 then (mc.act (.write w.file w.offset w.frame)).freePhysicalPage w.frame
  else mc.act (.release w.file)

/-- `run_flush` -/
def runFlush (ws : List Flush) (mc : Mach) : Mach := ws.foldl runOne mc

/-- `drain` -/
def drain (st : St) : St := ⟨{ st.vm with pending := [] }, runFlush st.vm.pending st.mc⟩

/-! ## Areas -/

/-- `area_new` -/
def areaNew (env : Env) (start stop : Nat) (prot : Prot) (flags : AreaFlags) (mc : Mach) : Option VmArea × Mach :=
  match mc.malloc env with
  | (true, mc) => (some ⟨start, stop, prot, flags, 0, 0⟩, mc)
  | (false, mc) => (none, mc)

/-- `area_set_file` -/
def areaSetFile (a src : VmArea) (offset : Nat) (mc : Mach) : VmArea × Mach :=
  ({ a with file := src.file, offset := offset },
    if src.file ≠ 0 then mc.act (.acquire src.file) else mc)

/-- `area_split`: the shortened area and the new one behind it. -/
def areaSplit (env : Env) (a : VmArea) (at' : Nat) (mc : Mach) : Option (VmArea × VmArea) × Mach :=
  match areaNew env at' a.stop a.prot a.flags mc with
  | (none, mc) => (none, mc)
  | (some b, mc) =>
    let (b, mc) := areaSetFile b a (a.offsetAt at') mc
    (some ({ a with stop := at' }, b), mc)

/-- The loop of `range_isolate`, from the area it has reached on. Each turn
passes one area, and an area is split at most twice. -/
def isolateFrom (env : Env) (start stop : Nat) : Nat → List VmArea → Mach → Option Errno × List VmArea × Mach
  | 0, L, mc => (none, L, mc)
  | _ + 1, [], mc => (none, [], mc)
  | n + 1, a :: rest, mc =>
    if a.start < stop then
      if a.start < start ∧ start < a.stop then
        match areaSplit env a start mc with
        | (none, mc) => (some .enomem, a :: rest, mc)
        | (some (a', b), mc) =>
          let r := isolateFrom env start stop n (areaInsert b rest) mc
          (r.1, a' :: r.2.1, r.2.2)
      else if a.start < stop ∧ stop < a.stop then
        match areaSplit env a stop mc with
        | (none, mc) => (some .enomem, a :: rest, mc)
        | (some (a', b), mc) =>
          let r := isolateFrom env start stop n (areaInsert b rest) mc
          (r.1, a' :: r.2.1, r.2.2)
      else
        let r := isolateFrom env start stop n rest mc
        (r.1, a :: r.2.1, r.2.2)
    else (none, a :: rest, mc)

/-- `range_isolate` -/
def rangeIsolate (env : Env) (start stop : Nat) (st : St) : Option Errno × St :=
  let from' := areasFrom st.vm.areas start
  let r := isolateFrom env start stop (3 * from'.length) from' st.mc
  (r.1, { st with vm.areas := areasBefore st.vm.areas start ++ r.2.1, mc := r.2.2 })

/-- One page of `free_frames`. -/
def freeFrame (st : St) (va : Nat) : St :=
  let p := st.pte va
  if p.user = false ∨ p.frame = 0 then st
  else ((st.freePage p.frame).setPte va Pte.zero).invalidate va

/-- `free_frames` -/
def freeFrames (start stop : Nat) (st : St) : St := (pages start stop).foldl freeFrame st

/-- The loop of `unmap_locked`: the areas left, and the state. -/
def unmapFrom (env : Env) (addr stop : Nat) : List VmArea → St → List VmArea × St
  | [], st => ([], st)
  | a :: rest, st =>
    if a.start < stop then
      if addr ≤ a.start then
        let st := if a.file ≠ 0 then queue env a 0 0 (queueDirty env a a.start a.stop false st) else st
        unmapFrom env addr stop rest (freeFrames a.start a.stop st)
      else
        let r := unmapFrom env addr stop rest st
        (a :: r.1, r.2)
    else (a :: rest, st)

/-- `unmap_locked` -/
def unmapLocked (env : Env) (addr len : Nat) (st : St) : Option Errno × St :=
  let stop := pageAlignUp (wrap (addr + len))
  if addr % 4096 ≠ 0 ∨ len = 0 ∨ stop < addr then (some .einval, st)
  else
    match rangeIsolate env addr stop st with
    | (some e, st) => (some e, st)
    | (none, st) =>
      let r := unmapFrom env addr stop (areasFrom st.vm.areas addr) st
      (none, { r.2 with vm.areas := areasBefore st.vm.areas addr ++ r.1 }.shootdown)

/-- The end of `map_locked`: the new area. -/
def mapArea (env : Env) (start len : Nat) (prot : Prot) (flags : AreaFlags) (st : St) : Except Errno Nat × St :=
  match areaNew env start (wrap (start + len)) prot flags st.mc with
  | (none, mc) => (.error .enomem, { st with mc := mc })
  | (some a, mc) => (.ok start, { st with vm.areas := areaInsert a st.vm.areas, mc := mc })

/-- `map_locked` -/
def mapLocked (env : Env) (addr len : Nat) (prot : Prot) (flags : AreaFlags) (fixed : Bool)
    (st : St) : Except Errno Nat × St :=
  let len := pageAlignUp len
  if len = 0 ∨ addr % 4096 ≠ 0 then (.error .einval, st)
  else if fixed then
    if userRange addr (wrap (addr + len)) then
      match unmapLocked env addr len st with
      | (some e, st) => (.error e, st)
      | (none, st) => mapArea env addr len prot flags st
    else (.error .einval, st)
  else if addr = 0 ∨ userRange addr (wrap (addr + len)) = false
      ∨ vmRangeFree st.vm.areas addr (wrap (addr + len)) = false then
    let start := findGap st.vm len
    if start = 0 then (.error .enomem, st) else mapArea env start len prot flags st
  else mapArea env addr len prot flags st

/-! ## Protection, discarding, write-back -/

/-- The first loop of `protect_locked`. -/
def protectCheck (areas : List VmArea) (prot : Prot) (stop : Nat) : Nat → Nat → Option Errno
  | 0, _ => none
  | n + 1, va =>
    if va < stop then
      match vmFind areas va with
      | none => some .enomem
      | some a =>
        if prot.write && a.flags.noWrite then some .eacces
        else protectCheck areas prot stop n a.stop
    else none

/-- One page of `protect_locked`. -/
def protectPage (prot : Prot) (st : St) (va : Nat) : St :=
  let p := st.pte va
  if p.frame = 0 then st else (st.setPte va (pteWithProt p prot)).invalidate va

/-- The second loop of `protect_locked`. -/
def protectFrom (addr stop : Nat) (prot : Prot) : List VmArea → St → List VmArea × St
  | [], st => ([], st)
  | a :: rest, st =>
    if a.start < stop then
      if a.start < addr then
        let r := protectFrom addr stop prot rest st
        (a :: r.1, r.2)
      else
        let r := protectFrom addr stop prot rest ((pages a.start a.stop).foldl (protectPage prot) st)
        ({ a with prot := prot } :: r.1, r.2)
    else (a :: rest, st)

/-- `protect_locked` -/
def protectLocked (env : Env) (addr len : Nat) (prot : Prot) (st : St) : Option Errno × St :=
  let stop := pageAlignUp (wrap (addr + len))
  if addr % 4096 ≠ 0 ∨ stop < addr then (some .einval, st)
  else if len = 0 then (none, st)
  else
    match protectCheck st.vm.areas prot stop (st.vm.areas.length + 1) addr with
    | some e => (some e, st)
    | none =>
      match rangeIsolate env addr stop st with
      | (some e, st) => (some e, st)
      | (none, st) =>
        let r := protectFrom addr stop prot (areasFrom st.vm.areas addr) st
        (none, { r.2 with vm.areas := areasBefore st.vm.areas addr ++ r.1 }.shootdown)

/-- The loops of `discard_locked` and `sync_locked`: visit `[va, stop)` area
by area, `visit a lo hi` on each piece. -/
def overAreas (visit : VmArea → Nat → Nat → St → St) (stop : Nat) : Nat → Nat → St → Option Errno × St
  | 0, _, st => (none, st)
  | n + 1, va, st =>
    if va < stop then
      match vmFind st.vm.areas va with
      | none => (some .enomem, st)
      | some a => overAreas visit stop n (min a.stop stop) (visit a va (min a.stop stop) st)
    else (none, st)

/-- `discard_locked` -/
def discardLocked (addr len : Nat) (st : St) : Option Errno × St :=
  let stop := pageAlignUp (wrap (addr + len))
  if addr % 4096 ≠ 0 ∨ stop < addr ∨ userRange addr stop = false then (some .einval, st)
  else
    match overAreas (fun a lo hi st => if a.flags.shared then st else freeFrames lo hi st) stop
        (st.vm.areas.length + 1) addr st with
    | (some e, st) => (some e, st)
    | (none, st) => (none, st.shootdown)

/-- `sync_locked` -/
def syncLocked (env : Env) (addr len : Nat) (st : St) : Option Errno × St :=
  let stop := pageAlignUp (wrap (addr + len))
  if addr % 4096 ≠ 0 ∨ stop < addr then (some .einval, st)
  else
    match overAreas (fun a lo hi st => if a.file ≠ 0 then queueDirty env a lo hi true st else st) stop
        (st.vm.areas.length + 1) addr st with
    | (some e, st) => (some e, st)
    | (none, st) => (none, st.shootdown)

/-- `insert_frame_locked` -/
def insertFrameLocked (env : Env) (va frame : Nat) (st : St) : Option Errno × St :=
  match vmFind st.vm.areas va with
  | none => (some .efault, st)
  | some a =>
    if va % 4096 ≠ 0 then (some .efault, st)
    else
      let old := (st.pte va).frame
      match st.mapPageIn env va { pteFlags a.prot with frame := frame } with
      | (false, st) => (some .enomem, st)
      | (true, st) => (none, (if old ≠ 0 then st.freePage old else st).invalidate va)

/-! ## Program break and remapping -/

/-- The heap area that `brk_locked` extends: the one that ends at the old break. -/
def heapArea (vm : VmSpace) (oldEnd : Nat) : Option VmArea :=
  (if vm.brkStart < oldEnd then vmFind vm.areas (oldEnd - 1) else none).filter fun a =>
    a.flags.heap && decide (a.stop = oldEnd)

/-- `brk_locked`; the result is `vm->brk`. -/
def brkLocked (env : Env) (newBrk : Nat) (st : St) : St :=
  if newBrk < st.vm.brkStart then st
  else
    let oldEnd := pageAlignUp st.vm.brk
    let newEnd := pageAlignUp newBrk
    if oldEnd < newEnd then
      if userRange oldEnd newEnd = false ∨ vmRangeFree st.vm.areas oldEnd newEnd = false then st
      else
        match heapArea st.vm oldEnd with
        | some a =>
          { st with
            vm.areas := areaSet st.vm.areas a { a with stop := newEnd }
            vm.brk := newBrk }
        | none =>
          match mapLocked env oldEnd (newEnd - oldEnd) ⟨true, true, false⟩ ⟨false, true, false, false⟩ true st with
          | (.error _, st) => st
          | (.ok _, st) => { st with vm.brk := newBrk }
    else if newEnd < oldEnd then
      { (unmapLocked env newEnd (oldEnd - newEnd) st).2 with vm.brk := newBrk }
    else { st with vm.brk := newBrk }

/-- The loop of `move_locked`: `some off` when the entry at `off` could not
be mapped at its new place. -/
def moveOut (env : Env) (oldAddr newAddr : Nat) : List Nat → St → Option Nat × St
  | [], st => (none, st)
  | off :: rest, st =>
    let p := st.pte (oldAddr + off)
    if p.frame = 0 then moveOut env oldAddr newAddr rest st
    else
      match st.mapPageIn env (newAddr + off) p with
      | (false, st) => (some off, st)
      | (true, st) =>
        moveOut env oldAddr newAddr rest ((st.setPte (oldAddr + off) Pte.zero).invalidate (oldAddr + off))

/-- One page of the way back in `move_locked`. -/
def moveBack (oldAddr newAddr : Nat) (st : St) (back : Nat) : St :=
  let p := st.pte (newAddr + back)
  if p.frame = 0 then st
  else ((st.setPte (oldAddr + back) p).setPte (newAddr + back) Pte.zero).invalidate (newAddr + back)

/-- `move_locked` -/
def moveLocked (env : Env) (oldAddr len newAddr newLen : Nat) (st : St) : Option Errno × St :=
  match rangeIsolate env oldAddr (wrap (oldAddr + len)) st with
  | (some e, st) => (some e, st)
  | (none, st) =>
    match vmFind st.vm.areas oldAddr with
    | none => (some .efault, st)
    | some src =>
      match areaNew env newAddr (wrap (newAddr + newLen)) src.prot src.flags st.mc with
      | (none, mc) => (some .enomem, { st with mc := mc })
      | (some dst, mc) =>
        let dst := { dst with file := src.file, offset := src.offset }
        match moveOut env oldAddr newAddr (pages 0 len) { st with mc := mc } with
        | (some off, st) =>
          (some .enomem, ((pages 0 off).foldl (moveBack oldAddr newAddr) st).shootdown)
        | (none, st) =>
          (none, { st with vm.areas := areaInsert dst (st.vm.areas.erase src) }.shootdown)

/-- `remap_locked`; `mayMove` is `MREMAP_MAYMOVE`. -/
def remapLocked (env : Env) (oldAddr oldLen newLen : Nat) (mayMove : Bool) (st : St) : Except Errno Nat × St :=
  let oldLen := pageAlignUp oldLen
  let newLen := pageAlignUp newLen
  let oldEnd := wrap (oldAddr + oldLen)
  if oldAddr % 4096 ≠ 0 ∨ oldLen = 0 ∨ newLen = 0 ∨ oldEnd < oldAddr then (.error .einval, st)
  else
    match vmFind st.vm.areas oldAddr with
    | none => (.error .efault, st)
    | some a =>
      if a.stop < oldEnd then (.error .efault, st)
      else if newLen ≤ oldLen then
        if newLen < oldLen then
          match unmapLocked env (oldAddr + newLen) (oldLen - newLen) st with
          | (some e, st) => (.error e, st)
          | (none, st) => (.ok oldAddr, st)
        else (.ok oldAddr, st)
      else
        let newEnd := wrap (oldAddr + newLen)
        if oldEnd = a.stop ∧ userRange oldAddr newEnd = true ∧ vmRangeFree st.vm.areas oldEnd newEnd = true then
          (.ok oldAddr, { st with vm.areas := areaSet st.vm.areas a { a with stop := newEnd } })
        else if mayMove = false then (.error .enomem, st)
        else
          let newAddr := findGap st.vm newLen
          if newAddr = 0 then (.error .enomem, st)
          else
            match moveLocked env oldAddr oldLen newAddr newLen st with
            | (some e, st) => (.error e, st)
            | (none, st) => (.ok newAddr, st)

/-- `remap_fixed_locked` -/
def remapFixedLocked (env : Env) (oldAddr oldLen newLen : Nat) (mayMove : Bool) (newAddr : Nat)
    (st : St) : Except Errno Nat × St :=
  let oldLen := pageAlignUp oldLen
  let newLen := pageAlignUp newLen
  let oldEnd := wrap (oldAddr + oldLen)
  let newEnd := wrap (newAddr + newLen)
  if oldAddr % 4096 ≠ 0 ∨ newAddr % 4096 ≠ 0 ∨ oldLen = 0 ∨ newLen = 0 ∨ oldEnd < oldAddr
      ∨ mayMove = false ∨ userRange newAddr newEnd = false then (.error .einval, st)
  else if newAddr < oldEnd ∧ oldAddr < newEnd then (.error .einval, st)
  else
    match vmFind st.vm.areas oldAddr with
    | none => (.error .efault, st)
    | some a =>
      if a.stop < oldEnd then (.error .efault, st)
      else
        match unmapLocked env newAddr newLen st with
        | (some e, st) => (.error e, st)
        | (none, st) =>
          let cut := if newLen < oldLen then unmapLocked env (oldAddr + newLen) (oldLen - newLen) st
            else (none, st)
          match cut with
          | (some e, st) => (.error e, st)
          | (none, st) =>
            match moveLocked env oldAddr (min oldLen newLen) newAddr newLen st with
            | (some e, st) => (.error e, st)
            | (none, st) => (.ok newAddr, st)

/-! ## Faults and kernel writes -/

/-- `frame_for`: false when no frame could be put there. -/
def frameFor (env : Env) (va : Nat) (prot : Prot) (st : St) : Bool × St :=
  if (st.pte va).frame ≠ 0 then (true, st)
  else
    match st.mc.allocPhysicalPage env with
    | (0, mc) => (false, { st with mc := mc })
    | (f, mc) =>
      match { st with mc := mc.setMem f fun _ => 0 }.mapPageIn env va { pteFlags prot with frame := f } with
      | (true, st) => (true, st)
      | (false, st) => (false, st.freePage f)

/-- `flush_others` -/
def flushOthers (st : St) : St := if 1 < st.vm.refCount then st.shootdown else st

/-- `cow_break` -/
def cowBreak (env : Env) (va : Nat) (st : St) : Bool × St :=
  let p := st.pte va
  if st.mc.pageShared p.frame = false then (true, st.setPte va { p with cow := false })
  else
    match st.mc.allocPhysicalPage env with
    | (0, mc) => (false, { st with mc := mc })
    | (f, mc) =>
      let st := { st with mc := mc.setMem f (mc.mem p.frame) }
      let st := (st.setPte va { p with frame := f, cow := false }).invalidate va
      (true, (flushOthers st).freePage p.frame)

/-- `fault_locked` -/
def faultLocked (env : Env) (addr : Nat) (write : Bool) (st : St) : Bool × St :=
  match vmFind st.vm.areas addr with
  | none => (false, st)
  | some a =>
    if a.allows write = false then (false, st)
    else
      let va := pageBase addr
      let p := st.pte va
      if p.present ∧ (write = false ∨ p.writable) then (true, st.invalidate va)
      else
        match frameFor env va a.prot st with
        | (false, st) => (false, st)
        | (true, st) =>
          let broken := if write && (st.pte va).cow then cowBreak env va st else (true, st)
          match broken with
          | (false, st) => (false, st)
          | (true, st) => (true, (st.setPte va (pteWithProt (st.pte va) a.prot)).invalidate va)

/-- The area of `va`, looked up only when the last page's area ends before it. -/
def areaNow (cached : Option VmArea) (areas : List VmArea) (va : Nat) : Option VmArea :=
  match cached with
  | some a => if va < a.stop then some a else vmFind areas va
  | none => vmFind areas va

/-- The loop of `populate_locked`; `cached` is the area of the last page. -/
def populatePages (env : Env) (write : Bool) : List Nat → Option VmArea → St → Bool × St
  | [], _, st => (true, st)
  | va :: rest, cached, st =>
    match areaNow cached st.vm.areas va with
    | none => (false, st)
    | some a =>
      if a.allows write = false then (false, st)
      else
        let p := st.pte va
        if p.present ∧ (write = false ∨ p.writable) then populatePages env write rest (some a) st
        else
          match faultLocked env va write st with
          | (false, st) => (false, st)
          | (true, st) => populatePages env write rest (some a) st

/-- `populate_locked` -/
def populateLocked (env : Env) (addr len : Nat) (write : Bool) (st : St) : Bool × St :=
  if len = 0 then (true, st)
  else
    let stop := wrap (addr + len)
    if stop < addr ∨ userRange addr stop = false then (false, st)
    else populatePages env write (pages (pageBase addr) stop) none st

/-- The loop of `write_locked`: `len` bytes from position `pos` of `src`, or
zeros. One turn per page touched. -/
def writeFrom (env : Env) (src : Option (Nat → UInt8)) : Nat → Nat → Nat → Nat → St → Option Errno × St
  | 0, _, _, _, st => (none, st)
  | n + 1, addr, pos, len, st =>
    if len = 0 then (none, st)
    else
      match vmFind st.vm.areas addr with
      | none => (some .efault, st)
      | some a =>
        match frameFor env (pageBase addr) a.prot st with
        | (false, st) => (some .enomem, st)
        | (true, st) =>
          let broken := if (st.pte (pageBase addr)).cow then cowBreak env (pageBase addr) st
            else (true, st)
          match broken with
          | (false, st) => (some .enomem, st)
          | (true, st) =>
            let off := addr % 4096
            let k := min (4096 - off) len
            let f := (st.pte (pageBase addr)).frame
            let bytes := fun i =>
              if off ≤ i ∧ i < off + k then
                match src with
                | some p => p (pos + (i - off))
                | none => 0
              else st.mc.mem f i
            writeFrom env src n (wrap (addr + k)) (pos + k) (len - k) { st with mc := st.mc.setMem f bytes }

/-- `write_locked` -/
def writeLocked (env : Env) (addr : Nat) (src : Option (Nat → UInt8)) (len : Nat) (st : St) : Option Errno × St :=
  writeFrom env src (len / 4096 + 2) addr 0 len st

/-! ## Creation, cloning, release -/

/-- `vm_create` -/
def vmCreate (env : Env) (mc : Mach) : Option VmSpace × Mach :=
  match mc.malloc env with
  | (false, mc) => (none, mc)
  | (true, mc) =>
    let mc' := { mc with tick := mc.tick + 1 }
    if env.tables mc.tick then (some ⟨[], fun _ => Pte.zero, 1, 0, 0, userMmapBase, []⟩, mc')
    else (none, mc')

/-- One page of `free_vm`. -/
def freeVmPage (pm : Nat → Pte) (mc : Mach) (vpn : Nat) : Mach :=
  if (pm vpn).user = true ∧ (pm vpn).frame ≠ 0 then mc.freePhysicalPage (pm vpn).frame else mc

/-- `free_vm`, over the user half of the page table. -/
def freeVm (vm : VmSpace) (mc : Mach) : Mach := (List.range (userAddrLimit / 4096)).foldl (freeVmPage vm.pageMap) mc

/-- The areas' part of `vm_release`. -/
def releaseArea (env : Env) (st : St) (a : VmArea) : St :=
  if a.file ≠ 0 then queue env a 0 0 (queueDirty env a a.start a.stop false st) else st

/-- `vm_release`: none when the last reference is gone. -/
def vmRelease (env : Env) (vm : VmSpace) (mc : Mach) : Option VmSpace × Mach :=
  if 1 < vm.refCount then (some { vm with refCount := vm.refCount - 1 }, mc)
  else
    let st := vm.areas.foldl (releaseArea env) ⟨vm, mc⟩
    (none, freeVm vm (runFlush st.vm.pending st.mc))

/-- The state of `clone_locked`: the source and the copy. -/
structure Cloning where
  src : St
  dst : VmSpace

/-- One page of `clone_locked`; false when the copy's page table is full. -/
def clonePage (env : Env) (shared : Bool) (va : Nat) (c : Cloning) : Bool × Cloning :=
  let p := c.src.pte va
  if p.frame = 0 then (true, c)
  else
    let src := if shared = false ∧ p.cow = false
      then (c.src.setPte va { p with writable := false, cow := true }).invalidate va else c.src
    let p := src.pte va
    let src' := { src with mc.tick := src.mc.tick + 1 }
    if env.tables src.mc.tick then
      (true, ⟨{ src' with mc := src'.mc.sharePage p.frame },
        { c.dst with pageMap := update c.dst.pageMap (va / 4096) p }⟩)
    else (false, ⟨src', c.dst⟩)

def clonePages (env : Env) (shared : Bool) : List Nat → Cloning → Bool × Cloning
  | [], c => (true, c)
  | va :: rest, c =>
    match clonePage env shared va c with
    | (true, c) => clonePages env shared rest c
    | (false, c) => (false, ⟨flushOthers c.src, c.dst⟩)

/-- The loop of `clone_locked` over the source's areas. -/
def cloneAreas (env : Env) : List VmArea → Cloning → Bool × Cloning
  | [], c => (true, c)
  | a :: rest, c =>
    match areaNew env a.start a.stop a.prot a.flags c.src.mc with
    | (none, mc) => (false, ⟨{ c.src with mc := mc }, c.dst⟩)
    | (some b, mc) =>
      let (b, mc) := areaSetFile b a a.offset mc
      match clonePages env a.flags.shared (pages a.start a.stop)
          ⟨{ c.src with mc := mc }, { c.dst with areas := areaInsert b c.dst.areas }⟩ with
      | (true, c) => cloneAreas env rest c
      | (false, c) => (false, c)

/-- `clone_locked`: the copy, unless memory ran out, and the source. -/
def cloneLocked (env : Env) (st : St) : Option VmSpace × St :=
  match vmCreate env st.mc with
  | (none, mc) => (none, { st with mc := mc })
  | (some vm, mc) =>
    let dst := { vm with brkStart := st.vm.brkStart, brk := st.vm.brk, mmapBase := st.vm.mmapBase }
    match cloneAreas env st.vm.areas ⟨{ st with mc := mc }, dst⟩ with
    | (true, c) => (some c.dst, flushOthers c.src)
    | (false, c) => (none, { c.src with mc := (vmRelease env c.dst c.src.mc).2 })

/-- `vm_attach_file` -/
def attachFile (start file offset : Nat) (st : St) : Option Errno × St :=
  match vmFind st.vm.areas start with
  | none => (some .einval, st)
  | some a =>
    if a.start = start ∧ a.file = 0 then
      (none, { st with
        vm.areas := areaSet st.vm.areas a { a with file := file, offset := offset } }.act (.acquire file))
    else (some .einval, st)

/-! ## The calls

What the callers see of those sections that are followed by `drain`. -/

/-- `vm_map` -/
def vmMap (env : Env) (addr len : Nat) (prot : Prot) (flags : AreaFlags) (fixed : Bool) (st : St) :
    Except Errno Nat × St :=
  let r := mapLocked env addr len prot flags fixed st
  (r.1, drain r.2)

/-- `vm_unmap` -/
def vmUnmap (env : Env) (addr len : Nat) (st : St) : Option Errno × St :=
  let r := unmapLocked env addr len st
  (r.1, drain r.2)

/-- `vm_protect` -/
def vmProtect (env : Env) (addr len : Nat) (prot : Prot) (st : St) : Option Errno × St :=
  protectLocked env addr len prot st

/-- `vm_remap` -/
def vmRemap (env : Env) (oldAddr oldLen newLen : Nat) (mayMove : Bool) (st : St) : Except Errno Nat × St :=
  let r := remapLocked env oldAddr oldLen newLen mayMove st
  (r.1, drain r.2)

/-- `vm_remap_fixed` -/
def vmRemapFixed (env : Env) (oldAddr oldLen newLen : Nat) (mayMove : Bool) (newAddr : Nat)
    (st : St) : Except Errno Nat × St :=
  let r := remapFixedLocked env oldAddr oldLen newLen mayMove newAddr st
  (r.1, drain r.2)

/-- `vm_sync` -/
def vmSync (env : Env) (addr len : Nat) (st : St) : Option Errno × St :=
  let r := syncLocked env addr len st
  (r.1, drain r.2)

end Hermes.L2.Vm
