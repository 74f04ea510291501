import Hermes.L2Mem.Vm

/-!
# The address spaces as a system

One step is one critical section of `vm->lock` on one address space, so a
run is an interleaving of such sections over any number of spaces: the
calls of `vm.h`, the queue of deferred file operations being drained, and
a store by user code. `vm_map` is called with the flags its three callers
compute: `sys_mmap`, the image loader and the stack set-up.
-/
namespace Hermes.L2.Vm

open Function

/-- Who calls `vm_map`. For `sys_mmap`: whether the mapping is shared, and of
a file whether it was opened for writing. -/
inductive MapBy
  | mmap (shared : Bool) (file : Option Bool)
  | image
  | stack
deriving DecidableEq, Repr

/-- The area flags the caller passes; none where `sys_mmap` answers `EACCES`. -/
def MapBy.flags (prot : Prot) : MapBy → Option AreaFlags
  | .mmap shared file =>
    if shared && file == some false && prot.write then none
    else some ⟨false, false, shared, shared && file == some false⟩
  | .image => some ⟨false, false, false, false⟩
  | .stack => some ⟨true, false, false, false⟩

/-- A critical section on one address space. -/
inductive Call
  | map (addr len : UInt64) (prot : Prot) (caller : MapBy) (fixed : Bool)
  | unmap (addr len : UInt64)
  | protect (addr len : UInt64) (prot : Prot)
  | discard (addr len : UInt64)
  | brk (newBrk : UInt64)
  | setBrk (start : UInt64)
  | remap (oldAddr oldLen newLen : UInt64) (mayMove : Bool)
  | remapFixed (oldAddr oldLen newLen : UInt64) (mayMove : Bool) (newAddr : UInt64)
  | sync (addr len : UInt64)
  | attachFile (start : UInt64) (file : Nat) (offset : UInt64)
  | insertFrame (va : UInt64) (frame : { f : Nat // f ≠ 0 })
  | fault (addr : UInt64) (write : Bool)
  | populate (addr len : UInt64) (write : Bool)
  | write (addr : UInt64) (src : Option (Nat → UInt8)) (len : UInt64)
  | drain
  | acquire
  | store (addr : UInt64) (byte : UInt8)

/-- A store by user code: the MMU lets it through to a present, writable
user entry and sets the dirty bit. -/
def userStore (addr : Nat) (byte : UInt8) (st : St) : St :=
  let p := st.pte addr
  if p.present && p.writable && p.user then
    { st with
      vm.pageMap := update st.vm.pageMap (addr / 4096) { p with dirty := true }
      mc := st.mc.setMem p.frame (update (st.mc.mem p.frame) (addr % 4096) byte) }
  else st

def Call.apply (env : Env) (st : St) : Call → St
  | .map addr len prot caller fixed =>
    match caller.flags prot with
    | none => st
    | some flags => (mapLocked env addr.toNat len.toNat prot flags fixed st).2
  | .unmap addr len => (unmapLocked env addr.toNat len.toNat st).2
  | .protect addr len prot => (protectLocked env addr.toNat len.toNat prot st).2
  | .discard addr len => (discardLocked addr.toNat len.toNat st).2
  | .brk newBrk => brkLocked env newBrk.toNat st
  | .setBrk start => { st with vm.brkStart := start.toNat, vm.brk := start.toNat }
  | .remap oldAddr oldLen newLen mayMove =>
    (remapLocked env oldAddr.toNat oldLen.toNat newLen.toNat mayMove st).2
  | .remapFixed oldAddr oldLen newLen mayMove newAddr =>
    (remapFixedLocked env oldAddr.toNat oldLen.toNat newLen.toNat mayMove newAddr.toNat st).2
  | .sync addr len => (syncLocked env addr.toNat len.toNat st).2
  | .attachFile start file offset => (Vm.attachFile start.toNat file offset.toNat st).2
  | .insertFrame va frame => (insertFrameLocked env va.toNat frame.1 st).2
  | .fault addr wr => (faultLocked env addr.toNat wr st).2
  | .populate addr len wr => (populateLocked env addr.toNat len.toNat wr st).2
  | .write addr src len => (writeLocked env addr.toNat src len.toNat st).2
  | .drain => Vm.drain st
  | .acquire => { st with vm.refCount := st.vm.refCount + 1 }
  | .store addr byte => userStore addr.toNat byte st

structure World where
  spaces : Nat → Option VmSpace
  mc : Mach

inductive Ev
  | create (i : Nat) (env : Env)
  | call (i : Nat) (env : Env) (c : Call)
  | clone (i j : Nat) (env : Env)
  | release (i : Nat) (env : Env)

namespace World

def set (w : World) (i : Nat) (vm : Option VmSpace) (mc : Mach) : World := ⟨update w.spaces i vm, mc⟩

/-- One step; an event on a space that is not there, or that would create one
in place of another, does nothing. -/
def step (w : World) : Ev → World
  | .create i env =>
    match w.spaces i with
    | some _ => w
    | none =>
      let r := vmCreate env w.mc
      w.set i r.1 r.2
  | .call i env c =>
    match w.spaces i with
    | none => w
    | some vm =>
      let st := c.apply env ⟨vm, w.mc⟩
      w.set i (some st.vm) st.mc
  | .clone i j env =>
    match w.spaces i, w.spaces j with
    | some vm, none =>
      let r := cloneLocked env ⟨vm, w.mc⟩
      (w.set i (some r.2.vm) r.2.mc).set j r.1 r.2.mc
    | _, _ => w
  | .release i env =>
    match w.spaces i with
    | none => w
    | some vm =>
      let r := vmRelease env vm w.mc
      w.set i r.1 r.2

/-- No address space, nothing done yet. -/
def Boot (w : World) : Prop := (∀ i, w.spaces i = none) ∧ w.mc.acts = [] ∧ ∀ f, w.mc.sharedRefs f = 0

end World

/-- The system of address spaces. -/
def system : LTS World Ev := LTS.ofFn World.Boot World.step

/-! ## Gap searches

`find_gap` adds the length to a candidate address without looking for
overflow. The calls that search for a gap, and the length they look for. -/

/-- `remap_locked` gets to `find_gap`, for rounded lengths: the range is to
grow, may move, and the area cannot go on where it is. -/
def remapSearches (vm : VmSpace) (oldAddr oldLen newLen : Nat) (mayMove : Bool) : Bool :=
  mayMove && decide (oldLen < newLen) && (vmFind vm.areas oldAddr).any fun a =>
    !(decide (wrap (oldAddr + oldLen) = a.stop) && userRange oldAddr (wrap (oldAddr + newLen)) &&
      vmRangeFree vm.areas (wrap (oldAddr + oldLen)) (wrap (oldAddr + newLen)))

/-- The length a call searches a gap for, if it gets to `find_gap`. -/
def Call.gapLen (vm : VmSpace) : Call → Option Nat
  | .map addr len _ _ fixed =>
    let l := pageAlignUp len.toNat
    if fixed = false ∧ (addr.toNat = 0 ∨ userRange addr.toNat (wrap (addr.toNat + l)) = false
        ∨ vmRangeFree vm.areas addr.toNat (wrap (addr.toNat + l)) = false) then some l else none
  | .remap oldAddr oldLen newLen mayMove =>
    if remapSearches vm oldAddr.toNat (pageAlignUp oldLen.toNat) (pageAlignUp newLen.toNat) mayMove
    then some (pageAlignUp newLen.toNat) else none
  | _ => none

/-- The gap search of the call, if it makes one, does not wrap around. -/
def Call.NoWrap (vm : VmSpace) (c : Call) : Prop := ∀ l, c.gapLen vm = some l → gapCandidate vm l + l < 2 ^ 64

/-- No gap search of the step wraps around. -/
def NoWrap (w : World) : Ev → Prop
  | .call i _ c => ∀ vm, w.spaces i = some vm → c.NoWrap vm
  | _ => True

end Hermes.L2.Vm
