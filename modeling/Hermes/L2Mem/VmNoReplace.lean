import Hermes.L2Mem.VmLaws

/-!
# `MAP_FIXED_NOREPLACE`

`sys_mmap` asks `vm_range_available` first and maps afterwards, and it fills the new range and, on an error, unmaps it
again: each of these is a section of its own under `vm->lock`, and an anonymous `mmap` does not hold the kernel lock
either. One such call is followed here through its sections, with any sections of other calls in between (the same call
made by another thread among them). A page is the call's own from its mapping until another call maps it again or unmaps
it (`Mapping.mine`); every other mapped page was mapped by somebody else.

* `noreplace_keeps`: no section changes such a page, where no other call maps or unmaps in the range while the call is
  under way (`Undisturbed`).
* `noreplace_replaces`: otherwise the page that another call has mapped after the check is thrown away.
-/
namespace Hermes.L2.Vm

open Option

/-! ## The call -/

/-- The arguments of the call that matter here. -/
structure NoReplace where
  addr : UInt64
  len : UInt64
  prot : Prot
  caller : MapBy

inductive Stage
  | called
  | checked
  | mapped
  | returned
deriving DecidableEq

/-- A section of another call, or of this one. -/
inductive Section
  | other (e : Ev)
  | check
  | map (env : Env)
  | fill (env : Env) (c : Call)
  | undo (env : Env)
  | ret

/-- A section of the call itself, not of another. -/
def Section.own : Section → Prop
  | .other _ => False
  | _ => True

/-- The section maps the page anew, whatever was there: `MAP_FIXED`, or `mremap` to an address that is given. -/
def Ev.replaces (i va : Nat) : Ev → Bool
  | .call j _ (.map addr len _ _ true) => j == i && decide (addr.toNat ≤ va ∧ va < addr.toNat + pageAlignUp len.toNat)
  | .call j _ (.remapFixed _ _ newLen _ newAddr) =>
    j == i && decide (newAddr.toNat ≤ va ∧ va < newAddr.toNat + pageAlignUp newLen.toNat)
  | _ => false

/-- `mine`, a ghost: what the call has mapped and no other call has mapped again or unmapped since. -/
structure Mapping where
  w : World
  stage : Stage
  mine : Nat → Bool

namespace NoReplace

variable (c : NoReplace)

def stop : Nat := c.addr.toNat + pageAlignUp c.len.toNat

/-- The tests of `sys_mmap` before the mapping, `vm_range_available` the last of them. -/
def passes (vm : VmSpace) : Bool :=
  c.len != 0 && decide (c.len.toNat ≤ pageAlignUp c.len.toNat) && decide (c.addr.toNat % 4096 = 0) &&
    vmRangeFree vm.areas c.addr.toNat (wrap c.stop)

/-- The sections that fill the new range: zeros or parts of the file, the device's frames, the file itself, and the pages
for `MAP_POPULATE`. -/
def fills : Call → Bool
  | .write a _ l => decide (c.addr.toNat ≤ a.toNat ∧ a.toNat + l.toNat ≤ c.stop)
  | .insertFrame va _ => decide (c.addr.toNat ≤ va.toNat ∧ va.toNat < c.stop)
  | .attachFile start _ _ => start == c.addr
  | .populate a l _ => a == c.addr && l == c.len
  | _ => false

def mapCall : Call := .map c.addr c.len c.prot c.caller true

/-- `vm_map` gives the range. -/
def maps (env : Env) (st : St) : Bool :=
  match c.caller.flags c.prot with
  | none => false
  | some flags => (mapLocked env c.addr.toNat c.len.toNat c.prot flags true st).1.isOk

/-- One section; `i` is the address space of the call. -/
def step (i : Nat) (s : Mapping) : Section → Mapping
  | .other e =>
    { s with
      w := s.w.step e
      mine := fun va => s.mine va && !e.replaces i va &&
        ((s.w.step e).spaces i).any fun vm => (entryAt vm.areas va).isSome }
  | .check =>
    match s.stage, s.w.spaces i with
    | .called, some vm => { s with stage := if c.passes vm then .checked else .returned }
    | _, _ => s
  | .map env =>
    match s.stage, s.w.spaces i with
    | .checked, some vm =>
      let ok := c.maps env ⟨vm, s.w.mc⟩
      ⟨s.w.step (.call i env c.mapCall), if ok then .mapped else .returned,
        fun va => ok && decide (c.addr.toNat ≤ va ∧ va < c.stop)⟩
    | _, _ => s
  | .fill env call =>
    if s.stage = .mapped ∧ c.fills call = true then { s with w := s.w.step (.call i env call) } else s
  | .undo env =>
    if s.stage = .mapped then { s with w := s.w.step (.call i env (.unmap c.addr c.len)), stage := .returned } else s
  | .ret => { s with stage := .returned }

/-- Address spaces as they come, and a call that has just been made. -/
def system (i : Nat) : LTS Mapping Section :=
  LTS.ofFn (fun s => (Vm.system.restrict NoWrap).Reachable s.w ∧ s.stage = .called ∧ s.mine = fun _ => false) (c.step i)

/-- An area that meets the range of the call. -/
def Meets (a : VmArea) : Prop := c.addr.toNat < a.stop ∧ a.start < c.stop

/-- While the call is under way the sections of other calls neither map nor unmap in its range: none replaces a page of it,
and the areas there stay. -/
def Undisturbed (i : Nat) (s : Mapping) : Section → Prop
  | .other e => NoWrap s.w e ∧ (s.stage = .checked ∨ s.stage = .mapped →
      (∀ va, c.addr.toNat ≤ va → va < c.stop → e.replaces i va = false) ∧
      ∀ vm', (s.w.step e).spaces i = some vm' → ∃ vm, s.w.spaces i = some vm ∧
        ∀ a, c.Meets a → (a ∈ vm'.areas ↔ a ∈ vm.areas))
  | _ => True

/-- What the call may rely on: after the check its range is free, if it is a range at all; after the mapping it is one
area, and its own. -/
structure Inv (i : Nat) (s : Mapping) : Prop where
  ok : s.w.Ok
  checked : s.stage = .checked → c.addr.toNat % 4096 = 0 ∧ ∀ vm, s.w.spaces i = some vm →
    userRange c.addr.toNat (wrap c.stop) = true → FreeIn vm.areas c.addr.toNat c.stop
  mapped : s.stage = .mapped → c.addr.toNat % 4096 = 0 ∧ userRange c.addr.toNat c.stop = true ∧
    ∀ vm, s.w.spaces i = some vm → (∃ a ∈ vm.areas, a.start = c.addr.toNat ∧ a.stop = c.stop) ∧
      ∀ va, c.addr.toNat ≤ va → va < c.stop → s.mine va = true

variable {c}

variable {w : World} {i : Nat} {call : Call}

lemma spaces_call {vm : VmSpace} (hi : w.spaces i = some vm) (env : Env) (call : Call) :
    (w.step (.call i env call)).spaces i = some (call.apply env ⟨vm, w.mc⟩).vm := by
  simp only [World.step, hi]
  exact Function.update_self ..

lemma step_call_none (hi : w.spaces i = none) (env : Env) (call : Call) : w.step (.call i env call) = w := by
  simp only [World.step, hi]

/-- A range of the user does not wrap around. -/
lemma wrap_stop (h : userRange c.addr.toNat (wrap c.stop) = true) : wrap c.stop = c.stop := by
  obtain ⟨-, -, hlt⟩ := userRange_iff.1 h
  have h1 := pageAlignUp_lt c.len.toNat
  unfold stop wrap at hlt ⊢
  omega

section Sections

variable {vm : VmSpace} (hok : SpaceOk vm) (env : Env) (mc : Mach)
include hok

/-- The mapping section: outside the range nothing changes, the range is one area if it is mapped, and a range that is
not the user's is refused. -/
lemma map_section : SameOutside vm (c.mapCall.apply env ⟨vm, mc⟩).vm c.addr.toNat c.stop ∧
    (userRange c.addr.toNat (wrap c.stop) = false → (c.mapCall.apply env ⟨vm, mc⟩).vm = vm) ∧
    (c.maps env ⟨vm, mc⟩ = true → userRange c.addr.toNat c.stop = true ∧
      ∃ a ∈ (c.mapCall.apply env ⟨vm, mc⟩).vm.areas, a.start = c.addr.toNat ∧ a.stop = c.stop) := by
  rcases hflags : c.caller.flags c.prot with - | flags <;> simp only [mapCall, Call.apply, maps, hflags]
  · exact ⟨SameOutside.refl _ _ _, fun _ => trivial, nofun⟩
  have hspec := @mapLocked_spec ⟨vm, mc⟩ env c.addr.toNat c.len.toNat c.prot flags true hok.areas hok.base
    (fun hs => absurd hs.1 (by decide))
  refine ⟨hspec.1.sameOutside, ?_, ?_⟩
  · intro hno
    unfold mapLocked
    dsimp only
    split
    · rfl
    · rw [if_pos rfl, if_neg (by rw [show userRange c.addr.toNat (wrap (c.addr.toNat + _)) = false from hno]; decide)]
  intro hmaps
  unfold mapLocked at hmaps ⊢
  dsimp only at hmaps ⊢
  split at hmaps
  · cases hmaps
  rw [if_pos rfl] at hmaps ⊢
  split at hmaps
  swap
  · cases hmaps
  rename_i hargs huser
  rw [if_neg hargs, if_pos huser]
  have hw := wrap_stop huser
  generalize unmapLocked env _ _ _ = r at hmaps ⊢
  obtain ⟨_ | e, st⟩ := r
  swap
  · cases hmaps
  dsimp only at hmaps ⊢
  unfold mapArea areaNew Mach.malloc at hmaps ⊢
  cases hm : env.malloc st.mc.tick with
  | false =>
    rw [hm] at hmaps
    cases hmaps
  | true =>
    refine ⟨hw ▸ huser, ⟨c.addr.toNat, wrap c.stop, c.prot, flags, 0, 0⟩, ?_, rfl, hw⟩
    exact Intervals.mem_insert.2 (.inl rfl)

/-- The filling sections stay inside the range, which stays one area. -/
lemma fill_section (hr : c.addr.toNat % 4096 = 0 ∧ userRange c.addr.toNat c.stop = true)
    (ha : ∃ a ∈ vm.areas, a.start = c.addr.toNat ∧ a.stop = c.stop) (hcall : c.fills call = true) :
    SameOutside vm (call.apply env ⟨vm, mc⟩).vm c.addr.toNat c.stop ∧
      ∃ a ∈ (call.apply env ⟨vm, mc⟩).vm.areas, a.start = c.addr.toNat ∧ a.stop = c.stop := by
  obtain ⟨hal, hu⟩ := hr
  obtain ⟨-, hlim, hlt⟩ := userRange_iff.1 hu
  have hbase : pageBase c.addr.toNat = c.addr.toNat := by unfold pageBase; omega
  have htouched : ∀ {st' : St} {S : Nat → Prop}, Touched S ⟨vm, mc⟩ st' →
      (∀ n, S n → ¬ ((n + 1) * 4096 ≤ c.addr.toNat ∨ c.stop ≤ n * 4096)) →
      SameOutside vm st'.vm c.addr.toNat c.stop ∧ ∃ a ∈ st'.vm.areas, a.start = c.addr.toNat ∧ a.stop = c.stop := by
    intro st' S ht hS
    refine ⟨⟨fun _ _ => by rw [ht.areas], fun n hn => ht.pageMap n fun hs => hS n hs ?_⟩, ht.areas.symm ▸ ha⟩
    omega
  cases call with
  | write addr src len =>
    obtain ⟨h1, h2⟩ := of_decide_eq_true hcall
    refine htouched (writeFrom_ok env src _ _ _ _ ⟨vm, mc⟩ hok).2 fun n hn => ?_
    unfold PageMeets pageBase at hn
    omega
  | insertFrame va frame =>
    obtain ⟨h1, h2⟩ := of_decide_eq_true hcall
    refine htouched (@insertFrameLocked_ok ⟨vm, mc⟩ env va.toNat frame.1 frame.2 hok).2 fun n hn => ?_
    omega
  | populate addr len write =>
    simp only [fills, Bool.and_eq_true, beq_iff_eq] at hcall
    obtain ⟨rfl, rfl⟩ := hcall
    refine htouched (@populateLocked_ok ⟨vm, mc⟩ env c.addr.toNat c.len.toNat write hok).2 fun n hn => ?_
    unfold PageMeets at hn
    unfold stop pageAlignUp at *
    unfold wrap at *
    omega
  | attachFile start file offset =>
    obtain rfl : start = c.addr := eq_of_beq hcall
    simp only [Call.apply, Vm.attachFile]
    split
    · exact ⟨SameOutside.refl _ _ _, ha⟩
    rename_i a hfind
    split
    swap
    · exact ⟨SameOutside.refl _ _ _, ha⟩
    -- the area that begins at the range is the range
    obtain ⟨b, hb, hb1, hb2⟩ := ha
    obtain ⟨hmem, h1, h2⟩ := (vmFind_eq_some hok.areas.tiled).1 hfind
    obtain rfl : a = b := hok.areas.eq_of_overlap hmem hb (by omega) (by omega)
    refine ⟨⟨fun va hva => ?_, fun _ _ => rfl⟩, ⟨_, (mem_areaSet hmem).2 (.inl rfl), hb1, hb2⟩⟩
    exact (entryAt_attach hok.areas hmem file offset.toNat va).trans (if_neg (by omega))
  | _ => cases hcall

lemma undo_section (hr : c.addr.toNat % 4096 = 0 ∧ userRange c.addr.toNat c.stop = true) :
    SameOutside vm ((Call.unmap c.addr c.len).apply env ⟨vm, mc⟩).vm c.addr.toNat c.stop := by
  obtain ⟨hal, hu⟩ := hr
  have hend : rangeEnd c.addr.toNat c.len.toNat = c.stop := by
    unfold stop at hu ⊢
    obtain ⟨-, hlim, hlt⟩ := userRange_iff.1 hu
    unfold rangeEnd pageAlignUp wrap at *
    omega
  dsimp only [Call.apply]
  rcases @unmapLocked_spec ⟨vm, mc⟩ env c.addr.toNat c.len.toNat hok.areas with ⟨_, hr, -, -, -, hun⟩ | ⟨_, _, hr, hc, -⟩
  · rw [hend] at hun
    rw [hr]
    exact hun.sameOutside
  · rw [hr]
    exact hc.sameOutside _ _

end Sections

lemma noWrap_of_gapLen {env : Env} (h : ∀ vm, call.gapLen vm = none) : NoWrap w (.call i env call) := by
  intro vm _ l hl
  rw [h] at hl
  cases hl

lemma noWrap_fill {env : Env} (h : c.fills call = true) : NoWrap w (.call i env call) := by
  refine noWrap_of_gapLen fun vm => ?_
  cases call <;> first | rfl | cases h

lemma noWrap_map {env : Env} : NoWrap w (.call i env c.mapCall) := noWrap_of_gapLen fun vm => by
    simp only [Call.gapLen]
    exact if_neg fun h => absurd h.1 (by decide)

variable {s : Mapping}

lemma Inv.other (h : c.Inv i s) {e : Ev} (hl : c.Undisturbed i s (.other e)) : c.Inv i (c.step i s (.other e)) := by
  obtain ⟨hnw, hapart⟩ := hl
  refine ⟨step_ok h.ok hnw, ?_, ?_⟩
  · intro hs
    obtain ⟨h1, h2⟩ := h.checked hs
    refine ⟨h1, fun vm' hvm' hu a ha => ?_⟩
    obtain ⟨vm, hvm, hsame⟩ := (hapart (.inl hs)).2 vm' hvm'
    by_contra hmeet
    have hin : c.Meets a := by unfold Meets; omega
    exact hmeet (h2 vm hvm hu a ((hsame a hin).1 ha))
  intro hs
  obtain ⟨h1, h2, h3⟩ := h.mapped hs
  refine ⟨h1, h2, fun vm' hvm' => ?_⟩
  obtain ⟨hno, hareas⟩ := hapart (.inr hs)
  obtain ⟨vm, hvm, hsame⟩ := hareas vm' hvm'
  obtain ⟨⟨a, ha, ha1, ha2⟩, hmine⟩ := h3 vm hvm
  have hlt := (userRange_iff.1 h2).2.2
  have ha' : a ∈ vm'.areas := (hsame a ⟨by omega, by omega⟩).2 ha
  refine ⟨⟨a, ha', ha1, ha2⟩, fun va hv1 hv2 => ?_⟩
  have he : entryAt vm'.areas va = some (a.entry va) :=
    (entryAt_eq_some ((step_ok h.ok hnw) i vm' hvm').areas.tiled).2 ⟨a, ha', by omega, by omega, rfl⟩
  show (s.mine va && !e.replaces i va && ((s.w.step e).spaces i).any fun vm => (entryAt vm.areas va).isSome) = true
  rw [hmine va hv1 hv2, hno va hv1 hv2, show (s.w.step e).spaces i = some vm' from hvm']
  exact congrArg isSome he

lemma Inv.step {l : Section} (h : c.Inv i s) (hl : c.Undisturbed i s l) : c.Inv i (c.step i s l) := by
  cases l with dsimp only [NoReplace.step]
  | other e => exact h.other hl
  | check =>
    split
    swap
    · exact h
    rename_i vm _ hvm
    split
    swap
    · exact ⟨h.ok, nofun, nofun⟩
    rename_i hp
    simp only [passes, Bool.and_eq_true, decide_eq_true_eq] at hp
    refine ⟨h.ok, fun _ => ⟨hp.1.2, fun vm' hvm' hu => ?_⟩, nofun⟩
    obtain rfl := some_inj.1 (hvm.symm.trans hvm')
    have := (vmRangeFree_iff (h.ok i vm hvm).areas.tiled).1 hp.2
    rwa [wrap_stop hu] at this
  | map env =>
    split
    swap
    · exact h
    rename_i vm hs hvm
    refine ⟨step_ok h.ok noWrap_map, ?_, ?_⟩
    · intro hc
      split at hc <;> cases hc
    intro hm
    split at hm
    swap
    · cases hm
    rename_i hmaps
    obtain ⟨-, -, hmapped⟩ := map_section (h.ok i vm hvm) env s.w.mc
    obtain ⟨hu, ha⟩ := hmapped hmaps
    refine ⟨(h.checked hs).1, hu, fun vm' hvm' => ?_⟩
    rw [spaces_call hvm] at hvm'
    obtain rfl := some_inj.1 hvm'
    exact ⟨ha, fun va hv1 hv2 => by simp [hmaps, hv1, hv2]⟩
  | fill env call =>
    split
    swap
    · exact h
    rename_i hf
    obtain ⟨h1, h2, h3⟩ := h.mapped hf.1
    refine ⟨step_ok h.ok (noWrap_fill hf.2), fun hc => ?_, fun _ => ⟨h1, h2, fun vm' hvm' => ?_⟩⟩
    · rw [hf.1] at hc
      cases hc
    rcases hvm : s.w.spaces i with - | vm
    · rw [step_call_none hvm, hvm] at hvm'
      cases hvm'
    rw [spaces_call hvm] at hvm'
    obtain rfl := some_inj.1 hvm'
    exact ⟨(fill_section (h.ok i vm hvm) env s.w.mc ⟨h1, h2⟩ (h3 vm hvm).1 hf.2).2, (h3 vm hvm).2⟩
  | undo env =>
    split
    · exact ⟨step_ok h.ok (noWrap_of_gapLen fun _ => rfl), nofun, nofun⟩
    · exact h
  | ret => exact ⟨h.ok, nofun, nofun⟩

lemma reachable_inv (h : ((c.system i).restrict (c.Undisturbed i)).Reachable s) : c.Inv i s := by
  refine LTS.Inductive.reachable ⟨?_, ?_⟩ h
  · rintro s ⟨hw, hs, -⟩
    refine ⟨reachable_ok hw, ?_, ?_⟩ <;> (rw [hs]; exact nofun)
  rintro s l t hs ⟨hl, rfl⟩
  exact hs.step hl

lemma keeps_outside {vm vm' : VmSpace} (h : SameOutside vm vm' c.addr.toNat c.stop) (hal : c.addr.toNat % 4096 = 0)
    {va : Nat} (hva : va < c.addr.toNat ∨ c.stop ≤ va) :
    entryAt vm'.areas va = entryAt vm.areas va ∧ vm'.pageMap (va / 4096) = vm.pageMap (va / 4096) := by
  have hstop : c.stop % 4096 = 0 := by
    have := pageAlignUp_aligned c.len.toNat
    unfold stop
    omega
  exact ⟨h.entry va hva, h.pageMap _ (by omega)⟩

/-- **`MAP_FIXED_NOREPLACE` replaces nothing**, where nobody else maps or unmaps in its range while it is under way: each
section of the call leaves every page alone that is mapped when it begins and is not the call's own, in its area and in the
page table. -/
theorem noreplace_keeps {i : Nat} {s : Mapping} (h : ((c.system i).restrict (c.Undisturbed i)).Reachable s)
    {l : Section} (hl : l.own) {vm vm' : VmSpace} (hvm : s.w.spaces i = some vm)
    (hvm' : (c.step i s l).w.spaces i = some vm') {va : Nat} (hva : entryAt vm.areas va ≠ none)
    (hmine : s.mine va = false) :
    entryAt vm'.areas va = entryAt vm.areas va ∧ vm'.pageMap (va / 4096) = vm.pageMap (va / 4096) := by
  have hinv := reachable_inv h
  have hok := hinv.ok i vm hvm
  have hsame : ∀ {w : World}, w.spaces i = some vm' → w = s.w →
      entryAt vm'.areas va = entryAt vm.areas va ∧ vm'.pageMap (va / 4096) = vm.pageMap (va / 4096) := by
    rintro _ hw rfl
    obtain rfl := some_inj.1 (hvm.symm.trans hw)
    exact ⟨rfl, rfl⟩
  have hours : (∀ va, c.addr.toNat ≤ va → va < c.stop → s.mine va = true) → va < c.addr.toNat ∨ c.stop ≤ va := by
    intro hall
    by_contra hin
    cases hmine.symm.trans (hall va (by omega) (by omega))
  have hcall : ∀ {env : Env} {call : Call}, (s.w.step (.call i env call)).spaces i = some vm' →
      (call.apply env ⟨vm, s.w.mc⟩).vm = vm' := fun h => some_inj.1 ((spaces_call hvm _ _).symm.trans h)
  cases l with dsimp only [NoReplace.step] at hvm'
  | other e => cases hl
  | check =>
    refine hsame hvm' ?_
    split <;> rfl
  | map env =>
    split at hvm'
    swap
    · exact hsame hvm' rfl
    rename_i hs hvm₂
    obtain rfl := hcall hvm'
    obtain ⟨hal, hfree⟩ := hinv.checked hs
    obtain ⟨hout, hrefused, -⟩ := map_section hok env s.w.mc
    rcases hu : userRange c.addr.toNat (wrap c.stop) with - | -
    · rw [hrefused hu]
      exact ⟨rfl, rfl⟩
    refine keeps_outside hout hal ?_
    by_contra hin
    exact hva ((hfree vm hvm hu).entry (by omega) (by omega))
  | fill env call =>
    split at hvm'
    swap
    · exact hsame hvm' rfl
    rename_i hf
    obtain rfl := hcall hvm'
    obtain ⟨hal, hu, harea⟩ := hinv.mapped hf.1
    exact keeps_outside (fill_section hok env s.w.mc ⟨hal, hu⟩ (harea vm hvm).1 hf.2).1 hal (hours (harea vm hvm).2)
  | undo env =>
    split at hvm'
    swap
    · exact hsame hvm' rfl
    rename_i hs
    obtain rfl := hcall hvm'
    obtain ⟨hal, hu, harea⟩ := hinv.mapped hs
    exact keeps_outside (undo_section hok env s.w.mc ⟨hal, hu⟩) hal (hours (harea vm hvm).2)
  | ret => exact hsame hvm' rfl

/-- A call for the page after the next of `onePage`. -/
def besidePage : NoReplace := ⟨0x40002000, 4096, ⟨true, true, false⟩, .mmap false none⟩

/-- It has passed its check and mapped its page, and another call has then written to the page of `onePage`. -/
def besideRun : List Section := [.check, .map plenty, .other (.call 0 plenty (.store 0x40000000 7))]

theorem noreplace_keeps_besidePage : ∃ s, ((besidePage.system 0).restrict (besidePage.Undisturbed 0)).Reachable s ∧
    s.stage = .mapped ∧ s.mine 0x40002000 = true ∧ ∃ vm vm', s.w.spaces 0 = some vm ∧
    (besidePage.step 0 s (.undo plenty)).w.spaces 0 = some vm' ∧ vm'.areas.length = 1 ∧
    vm'.pageMap 0x40000 = vm.pageMap 0x40000 := by
  have hr : ((besidePage.system 0).restrict (besidePage.Undisturbed 0)).Reachable
      (besideRun.foldl (besidePage.step 0) ⟨onePage.foldl World.step bootWorld, .called, fun _ => false⟩) :=
    LTS.reachable_ofFn ⟨onePage_reachable, rfl, rfl⟩ ⟨trivial, trivial, ⟨fun _ _ _ hl => (by cases hl), fun _ =>
      ⟨fun _ _ _ => rfl, fun vm' hvm' => ⟨_, rfl, fun a _ => by cases hvm'; rfl⟩⟩⟩, trivial⟩
  refine ⟨_, hr, rfl, rfl, _, _, rfl, rfl, rfl, ?_⟩
  have hmapped : ∀ vm, (besideRun.foldl (besidePage.step 0)
      ⟨onePage.foldl World.step bootWorld, .called, fun _ => false⟩).w.spaces 0 = some vm →
      entryAt vm.areas 0x40000000 ≠ none := by
    decide
  exact (noreplace_keeps hr (l := .undo plenty) trivial rfl rfl (hmapped _ rfl) rfl).2

/-- A call for the page of `onePage`, begun before that page is mapped. -/
def overPage : NoReplace := ⟨0x40000000, 4096, ⟨true, true, false⟩, .mmap false none⟩

/-- Another call maps the page and fills it between the check and the mapping: its page is thrown away. -/
theorem noreplace_replaces : ∃ s, (overPage.system 0).Reachable s ∧ s.stage = .checked ∧
    s.mine 0x40000000 = false ∧ ∃ vm vm', s.w.spaces 0 = some vm ∧
      (overPage.step 0 s (.map plenty)).w.spaces 0 = some vm' ∧ entryAt vm.areas 0x40000000 ≠ none ∧
      (vm.pageMap 0x40000).frame ≠ 0 ∧ (vm'.pageMap 0x40000).frame = 0 := by
  have h0 : (Vm.system.restrict NoWrap).Reachable ([.create 0 plenty].foldl World.step bootWorld) :=
    LTS.reachable_ofFn bootWorld_boot ⟨trivial, trivial⟩
  have hr : (overPage.system 0).Reachable
      ([.check, .other (.call 0 plenty (.map 0x40000000 4096 ⟨true, true, false⟩ .image true)),
        .other (.call 0 plenty (.fault 0x40000000 true))].foldl (overPage.step 0)
          ⟨bootWorld.step (.create 0 plenty), .called, fun _ => false⟩) :=
    ⟨_, _, ⟨h0, rfl, rfl⟩, LTS.run_ofFn _ _ _ _⟩
  refine ⟨_, hr, rfl, rfl, _, _, rfl, rfl, ?_⟩
  decide +kernel

end NoReplace

end Hermes.L2.Vm
