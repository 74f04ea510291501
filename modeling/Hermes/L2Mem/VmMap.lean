import Hermes.L2Mem.VmInv

/-!
# The calls refine operations on a page map

What an address space means is a partial map from page numbers to what is
mapped there. The operations on such maps are `mapped`, `unmapped`,
`protect` and `moved`, and each call that succeeds is one of them; a call of
`vm_unmap`, `vm_protect` or `vm_remap` that fails leaves the map and every
page-table entry as they were.
-/
namespace Hermes.L2.Vm

open Hermes.Intervals

/-- What is mapped at each page. -/
def PageMap : Type := Nat → Option Entry

namespace PageMap

/-- The pages of `[addr, addr + len)`, for a page-aligned `addr`. -/
def inside (addr len p : Nat) : Prop := addr ≤ p * 4096 ∧ p * 4096 < addr + len

instance (addr len p : Nat) : Decidable (inside addr len p) := inferInstanceAs (Decidable (_ ∧ _))

def mapped (m : PageMap) (start len : Nat) (prot : Prot) (flags : AreaFlags) : PageMap := fun p =>
  if inside start len p then some ⟨prot, flags, 0, p * 4096 - start⟩ else m p

def unmapped (m : PageMap) (addr len : Nat) : PageMap := fun p =>
  if inside addr len p then none else m p

def protect (m : PageMap) (addr len : Nat) (prot : Prot) : PageMap := fun p =>
  if inside addr len p then (m p).map ({ · with prot := prot }) else m p

/-- The pages of `[oldAddr, oldAddr + oldLen)` move to `newAddr`; where the new
range is longer, the mapping goes on there. -/
def moved (m : PageMap) (oldAddr oldLen newAddr newLen : Nat) : PageMap := fun p =>
  if inside newAddr newLen p then
    if p * 4096 - newAddr < oldLen then m ((oldAddr + (p * 4096 - newAddr)) / 4096)
    else (m (oldAddr / 4096)).map (Entry.shift · (p * 4096 - newAddr))
  else if inside oldAddr oldLen p then none
  else m p

end PageMap

/-- The page map of an address space. -/
def VmSpace.abs (vm : VmSpace) : PageMap := fun p => entryAt vm.areas (p * 4096)

/-! ## Rounding -/

lemma pageAlignUp_eq_zero {x : Nat} (hx : x < 2 ^ 64) (h : 2 ^ 64 ≤ x + 4095) : pageAlignUp x = 0 := by
  unfold pageAlignUp wrap
  omega

variable {addr len : Nat}

variable {p : Nat}

/-- A page lies in the rounded range exactly if it lies in the range. -/
lemma inside_round (ha : addr % 4096 = 0) (hl : len + 4095 < 2 ^ 64) :
    addr ≤ p * 4096 ∧ p * 4096 < addr + pageAlignUp len ↔ PageMap.inside addr len p := by
  have h1 := pageAlignUp_bounds hl
  have h2 := pageAlignUp_aligned len
  unfold PageMap.inside
  omega

lemma no_wrap_of_pos (hl : len < 2 ^ 64) (h : 0 < pageAlignUp len) : len + 4095 < 2 ^ 64 := by
  by_contra hc
  rw [pageAlignUp_eq_zero hl (by omega)] at h
  exact lt_irrefl _ h

/-- The same for the end that `vm_unmap` rounds up. -/
lemma inside_rangeEnd (ha : addr % 4096 = 0) (h : addr + len + 4095 < 2 ^ 64) :
    addr ≤ p * 4096 ∧ p * 4096 < rangeEnd addr len ↔ PageMap.inside addr len p := by
  have h1 := pageAlignUp_bounds h
  have h2 := pageAlignUp_aligned (addr + len)
  unfold PageMap.inside rangeEnd
  rw [wrap_of_lt (by omega)]
  omega

/-! ## Each call -/

section calls

variable (env : Env) {st st' : St} (h : SpaceOk st.vm)
include h

variable {prot : Prot} {e : Errno} {oldAddr oldLen newLen : Nat} {mayMove : Bool}

lemma vmMap_refines (hl : len < 2 ^ 64) {flags : AreaFlags} {fixed : Bool}
    (hw : searches st.vm addr (pageAlignUp len) fixed → gapCandidate st.vm (pageAlignUp len) + pageAlignUp len < 2 ^ 64)
    {start : Nat} (hr : vmMap env addr len prot flags fixed st = (.ok start, st')) :
    start % 4096 = 0 ∧ (fixed = true → start = addr) ∧
      (fixed = false → ∀ p, PageMap.inside start len p → st.vm.abs p = none) ∧
      st'.vm.abs = st.vm.abs.mapped start len prot flags := by
  have hspec := (mapLocked_spec env addr len prot flags fixed h.areas h.base hw).1
  unfold vmMap at hr
  generalize mapLocked env addr len prot flags fixed st = r at hspec hr
  obtain ⟨hr1, rfl⟩ := Prod.mk.inj hr
  rcases hspec with ⟨s, h1, h2, h3, h4, h5, hm⟩ | ⟨e, h1, -⟩
  · obtain rfl : s = start := by rw [h1] at hr1; exact Except.ok.inj hr1
    have hpos : 0 < pageAlignUp len := by
      have := (userRange_iff.1 h4).2.2
      omega
    have hin : ∀ {p}, _ ↔ PageMap.inside s len p := inside_round h3 (no_wrap_of_pos hl hpos)
    refine ⟨h3, h2, fun hf p hp => ?_, funext fun p => ?_⟩
    · obtain ⟨hp1, hp2⟩ := hin.2 hp
      exact (h5 hf).entry hp1 hp2
    show entryAt r.2.vm.areas (p * 4096) = _
    rw [hm.entry]
    exact if_congr hin rfl rfl
  · rw [h1] at hr1
    cases hr1

lemma vmUnmap_refines (hw : addr + len + 4095 < 2 ^ 64) (hr : vmUnmap env addr len st = (none, st')) :
    st'.vm.abs = st.vm.abs.unmapped addr len := by
  unfold vmUnmap at hr
  rcases unmapLocked_spec env addr len h.areas with ⟨s, hu, h1, -, -, hun⟩ | ⟨e, s, hu, -⟩ <;> rw [hu] at hr
  · obtain ⟨-, rfl⟩ := Prod.mk.inj hr
    funext p
    show entryAt s.vm.areas (p * 4096) = _
    rw [hun.entry]
    exact if_congr (inside_rangeEnd h1 hw) rfl rfl
  · cases hr

variable {vm' : VmSpace} {newAddr new : Nat}

omit h in
lemma Cut.abs {vm : VmSpace} (h : Cut vm vm') : vm'.abs = vm.abs ∧ vm'.pageMap = vm.pageMap :=
  ⟨funext fun _ => h.areas.entry _, by rw [h.rest]⟩

lemma vmUnmap_fails (hr : vmUnmap env addr len st = (some e, st')) :
    st'.vm.abs = st.vm.abs ∧ st'.vm.pageMap = st.vm.pageMap := by
  unfold vmUnmap at hr
  rcases unmapLocked_spec env addr len h.areas with ⟨s, hu, -⟩ | ⟨e, s, hu, hc, -⟩ <;> rw [hu] at hr
  · cases hr
  obtain ⟨-, rfl⟩ := Prod.mk.inj hr
  exact hc.abs

lemma vmProtect_refines (hw : addr + len + 4095 < 2 ^ 64)
    (hr : vmProtect env addr len prot st = (none, st')) : st'.vm.abs = st.vm.abs.protect addr len prot := by
  have hspec := protectLocked_spec env addr len prot h.areas
  rw [show protectLocked env addr len prot st = (none, st') from hr] at hspec
  rcases hspec with ⟨-, h0, hst⟩ | ⟨-, -, h1, -, hp⟩ | ⟨hne, -⟩
  · funext p
    obtain rfl : st' = st := hst
    rw [PageMap.protect, if_neg]
    unfold PageMap.inside
    omega
  · funext p
    show entryAt st'.vm.areas (p * 4096) = _
    rw [hp.entry]
    exact if_congr (inside_rangeEnd h1 hw) rfl rfl
  · exact absurd rfl hne

lemma vmProtect_fails (hr : vmProtect env addr len prot st = (some e, st')) :
    st'.vm.abs = st.vm.abs ∧ st'.vm.pageMap = st.vm.pageMap := by
  have hspec := protectLocked_spec env addr len prot h.areas
  rw [show protectLocked env addr len prot st = (some e, st') from hr] at hspec
  rcases hspec with ⟨hc, -⟩ | ⟨hc, -⟩ | ⟨-, hc⟩
  · cases hc
  · cases hc
  · exact hc.abs

/-- The page map after a move, from what the move does to single addresses. -/
lemma moved_of_entry (ho : oldAddr % 4096 = 0) (hn : newAddr % 4096 = 0) (hol : oldLen + 4095 < 2 ^ 64)
    (hnl : newLen + 4095 < 2 ^ 64) (hsrc : ∃ a ∈ st.vm.areas, a.start ≤ oldAddr ∧ oldAddr + pageAlignUp oldLen ≤ a.stop)
    (hent : EntriesMoved st.vm vm' oldAddr (pageAlignUp oldLen) newAddr (pageAlignUp newLen)) :
    vm'.abs = st.vm.abs.moved oldAddr oldLen newAddr newLen := by
  obtain ⟨a, ha, h1, h2⟩ := hsrc
  have hb := pageAlignUp_bounds hol
  funext p
  show entryAt vm'.areas (p * 4096) = _
  rw [hent, PageMap.moved]
  split <;> rename_i hin
  · rw [if_pos ((inside_round hn hnl).1 hin)]
    by_cases hk : p * 4096 - newAddr < oldLen
    · rw [if_pos hk, VmSpace.abs,
        show (oldAddr + (p * 4096 - newAddr)) / 4096 * 4096 = oldAddr + (p * 4096 - newAddr) by omega,
        entry_from h.areas ha h1 (Nat.le_add_right _ _) (by omega), Nat.add_sub_cancel_left]
    · rw [if_neg hk, VmSpace.abs, show oldAddr / 4096 * 4096 = oldAddr by omega]
  · rw [if_neg (fun hc => hin ((inside_round hn hnl).2 hc))]
    exact if_congr (inside_round ho hol) rfl rfl

lemma vmRemap_refines (hol : oldLen < 2 ^ 64) (hnl : newLen < 2 ^ 64)
    (hw : remapSearches st.vm oldAddr (pageAlignUp oldLen) (pageAlignUp newLen) mayMove = true →
      gapCandidate st.vm (pageAlignUp newLen) + pageAlignUp newLen < 2 ^ 64)
    (hr : vmRemap env oldAddr oldLen newLen mayMove st = (.ok new, st')) :
    (∀ p, PageMap.inside new newLen p → ¬ PageMap.inside oldAddr oldLen p → st.vm.abs p = none) ∧
      st'.vm.abs = st.vm.abs.moved oldAddr oldLen new newLen := by
  have hspec := remapLocked_spec env oldAddr oldLen newLen mayMove h hw
  obtain ⟨hr1, rfl⟩ := Prod.mk.inj hr
  obtain ⟨⟨h1, h2, h3, hsrc⟩, hn, hmv⟩ := hspec.moved h hr1
  have hol' := no_wrap_of_pos hol h2
  have hnl' := no_wrap_of_pos hnl h3
  refine ⟨fun p hp hout => ?_, moved_of_entry h h1 hn hol' hnl' hsrc hmv⟩
  obtain ⟨hp1, hp2⟩ := (inside_round hn hnl').2 hp
  exact hspec.fresh hr1 hp1 hp2 fun hc => hout ((inside_round h1 hol').1 hc)

lemma vmRemap_fails
    (hw : remapSearches st.vm oldAddr (pageAlignUp oldLen) (pageAlignUp newLen) mayMove = true →
      gapCandidate st.vm (pageAlignUp newLen) + pageAlignUp newLen < 2 ^ 64)
    (hr : vmRemap env oldAddr oldLen newLen mayMove st = (.error e, st')) :
    st'.vm.abs = st.vm.abs ∧ st'.vm.pageMap = st.vm.pageMap := by
  have hspec := remapLocked_spec env oldAddr oldLen newLen mayMove h hw
  obtain ⟨hr1, rfl⟩ := Prod.mk.inj hr
  rcases hspec with ⟨e', h1, hc⟩ | ⟨-, hres⟩
  · exact hc.abs
  · rcases hres with ⟨hok, -⟩ | ⟨hok, -⟩ | ⟨n, hok, -⟩ <;> rw [hok] at hr1 <;> cases hr1

lemma vmRemapFixed_refines (hol : oldLen < 2 ^ 64) (hnl : newLen < 2 ^ 64)
    (hr : vmRemapFixed env oldAddr oldLen newLen mayMove newAddr st = (.ok new, st')) :
    new = newAddr ∧ st'.vm.abs = st.vm.abs.moved oldAddr oldLen newAddr newLen := by
  have hspec := (remapFixedLocked_spec env oldAddr oldLen newLen mayMove newAddr h).1
  obtain ⟨hr1, rfl⟩ := Prod.mk.inj hr
  rcases hspec with ⟨e, h1, -⟩ | ⟨hok, h1, h2, h3, h4, hsrc, -, -, hm⟩
  · rw [h1] at hr1
    cases hr1
  refine ⟨by rw [hok] at hr1; exact (Except.ok.inj hr1).symm, ?_⟩
  exact moved_of_entry h h1 h2 (no_wrap_of_pos hol h3) (no_wrap_of_pos hnl h4) hsrc hm.entry

end calls

/-- The calls refine the operations on page maps, in every address space of
every run without a wrapping gap search: for calls whose own gap search, if
they make one, does not wrap and ranges whose end does not wrap when rounded
to pages. A place that the kernel chooses was free. -/
theorem calls_refine_page_map {w : World} (h : (system.restrict NoWrap).Reachable w) {i : Nat}
    {vm : VmSpace} (hi : w.spaces i = some vm) (env : Env) (st' : St) :
    (∀ (addr len : UInt64) prot flags fixed start, (searches vm addr.toNat (pageAlignUp len.toNat) fixed →
        gapCandidate vm (pageAlignUp len.toNat) + pageAlignUp len.toNat < 2 ^ 64) →
      vmMap env addr.toNat len.toNat prot flags fixed ⟨vm, w.mc⟩ = (.ok start, st') →
      start % 4096 = 0 ∧ (fixed = true → start = addr.toNat) ∧
        (fixed = false → ∀ p, PageMap.inside start len.toNat p → vm.abs p = none) ∧
        st'.vm.abs = vm.abs.mapped start len.toNat prot flags) ∧
    (∀ addr len : UInt64, addr.toNat + len.toNat + 4095 < 2 ^ 64 →
      vmUnmap env addr.toNat len.toNat ⟨vm, w.mc⟩ = (none, st') →
      st'.vm.abs = vm.abs.unmapped addr.toNat len.toNat) ∧
    (∀ (addr len : UInt64) prot, addr.toNat + len.toNat + 4095 < 2 ^ 64 →
      vmProtect env addr.toNat len.toNat prot ⟨vm, w.mc⟩ = (none, st') →
      st'.vm.abs = vm.abs.protect addr.toNat len.toNat prot) ∧
    (∀ (oldAddr oldLen newLen : UInt64) mayMove new,
      (remapSearches vm oldAddr.toNat (pageAlignUp oldLen.toNat) (pageAlignUp newLen.toNat) mayMove = true →
        gapCandidate vm (pageAlignUp newLen.toNat) + pageAlignUp newLen.toNat < 2 ^ 64) →
      vmRemap env oldAddr.toNat oldLen.toNat newLen.toNat mayMove ⟨vm, w.mc⟩ = (.ok new, st') →
      (∀ p, PageMap.inside new newLen.toNat p → ¬ PageMap.inside oldAddr.toNat oldLen.toNat p → vm.abs p = none) ∧
        st'.vm.abs = vm.abs.moved oldAddr.toNat oldLen.toNat new newLen.toNat) ∧
    (∀ (oldAddr oldLen newLen newAddr : UInt64) mayMove new,
      vmRemapFixed env oldAddr.toNat oldLen.toNat newLen.toNat mayMove newAddr.toNat ⟨vm, w.mc⟩ = (.ok new, st') →
      st'.vm.abs = vm.abs.moved oldAddr.toNat oldLen.toNat newAddr.toNat newLen.toNat) ∧
    (∀ start stop : Nat, (rangeIsolate env start stop ⟨vm, w.mc⟩).2.vm.abs = vm.abs) ∧
    (∀ (addr len : UInt64) e, vmUnmap env addr.toNat len.toNat ⟨vm, w.mc⟩ = (some e, st') →
      st'.vm.abs = vm.abs ∧ st'.vm.pageMap = vm.pageMap) ∧
    (∀ (addr len : UInt64) prot e, vmProtect env addr.toNat len.toNat prot ⟨vm, w.mc⟩ = (some e, st') →
      st'.vm.abs = vm.abs ∧ st'.vm.pageMap = vm.pageMap) ∧
    (∀ (oldAddr oldLen newLen : UInt64) mayMove e,
      (remapSearches vm oldAddr.toNat (pageAlignUp oldLen.toNat) (pageAlignUp newLen.toNat) mayMove = true →
        gapCandidate vm (pageAlignUp newLen.toNat) + pageAlignUp newLen.toNat < 2 ^ 64) →
      vmRemap env oldAddr.toNat oldLen.toNat newLen.toNat mayMove ⟨vm, w.mc⟩ = (.error e, st') →
      st'.vm.abs = vm.abs ∧ st'.vm.pageMap = vm.pageMap) := by
  have hok : SpaceOk (St.mk vm w.mc).vm := reachable_ok h i vm hi
  refine ⟨?_, ?_, ?_, ?_, ?_, ?_, ?_, ?_, ?_⟩
  · exact fun addr len prot flags fixed start hw hr => vmMap_refines env hok len.toNat_lt hw hr
  · exact fun addr len hw hr => vmUnmap_refines env hok hw hr
  · exact fun addr len prot hw hr => vmProtect_refines env hok hw hr
  · exact fun oldAddr oldLen newLen mayMove new hw hr => vmRemap_refines env hok oldLen.toNat_lt newLen.toNat_lt hw hr
  · exact fun oldAddr oldLen newLen newAddr mayMove new hr =>
      (vmRemapFixed_refines env hok oldLen.toNat_lt newLen.toNat_lt hr).2
  · exact fun start stop => funext fun p => (rangeIsolate_pieces env hok.areas.tiled).entry _
  · exact fun addr len e hr => vmUnmap_fails env hok hr
  · exact fun addr len prot e hr => vmProtect_fails env hok hr
  · exact fun oldAddr oldLen newLen mayMove e hw hr => vmRemap_fails env hok hw hr

/-- After `twoAreas`: a page mapped in the next gap, the touched page grown in
place, and the two pages of the second area unmapped. -/
theorem calls_refine_page_map_twoAreas : ∃ vm, (twoAreas.foldl World.step bootWorld).spaces 0 = some vm ∧
    let st : St := ⟨vm, (twoAreas.foldl World.step bootWorld).mc⟩
    ((vmMap plenty 0 4096 ⟨true, true, false⟩ ⟨false, false, false, false⟩ false st).1 = .ok 0x300000002000 ∧
      (vmMap plenty 0 4096 ⟨true, true, false⟩ ⟨false, false, false, false⟩ false st).2.vm.abs =
        vm.abs.mapped 0x300000002000 4096 ⟨true, true, false⟩ ⟨false, false, false, false⟩) ∧
    ((vmRemap plenty 0x40000000 4096 8192 true st).1 = .ok 0x40000000 ∧
      (vmRemap plenty 0x40000000 4096 8192 true st).2.vm.abs = vm.abs.moved 0x40000000 4096 0x40000000 8192) ∧
    (vmUnmap plenty 0x300000000000 8192 st).1 = none ∧
      (vmUnmap plenty 0x300000000000 8192 st).2.vm.abs = vm.abs.unmapped 0x300000000000 8192 := by
  have h := calls_refine_page_map twoAreas_reachable (i := 0) rfl plenty
  have pair : ∀ {α : Type} {r : α × St} {a : α}, r.1 = a → r = (a, r.2) := fun h => Prod.ext h rfl
  refine ⟨_, rfl, ⟨by decide +kernel, ?_⟩, ⟨by decide +kernel, ?_⟩, by decide, ?_⟩
  · exact ((h _).1 0 4096 _ _ false _ (fun _ => by decide) (pair (by decide +kernel))).2.2.2
  · exact ((h _).2.2.2.1 0x40000000 4096 8192 true _ (fun _ => by decide) (pair (by decide +kernel))).2
  · exact (h _).2.1 0x300000000000 8192 (by decide) (pair (by decide))

/-! ## A range end that wraps to its start

`vm_unmap` and `vm_protect` round `addr + len` up to a page and refuse a
range whose end lies before its start. With a length above 2^64 - 4096 the
end wraps to exactly `addr`: the check passes, the loops find nothing to do,
and the call reports success with every page of the range still mapped.
`vm_map` reports success without mapping anything where its gap search
wraps around. -/

namespace Bugs

/-- After `onePage`: `munmap(0x40000000, SIZE_MAX)` and
`mprotect(0x40000000, SIZE_MAX, PROT_NONE)` succeed and change nothing, and
`mmap(0, 0xFFFFFFFFFFFFF000, …)` succeeds with the page it returns unmapped. -/
theorem calls_skip_their_range : ∃ w vm, system.Reachable w ∧ w.spaces 0 = some vm ∧ (vm.abs 0x40000).isSome = true ∧
    ((vmUnmap plenty 0x40000000 0xFFFFFFFFFFFFFFFF ⟨vm, w.mc⟩).1 = none ∧
      ((vmUnmap plenty 0x40000000 0xFFFFFFFFFFFFFFFF ⟨vm, w.mc⟩).2.vm.abs 0x40000).isSome = true) ∧
    ((vmProtect plenty 0x40000000 0xFFFFFFFFFFFFFFFF Prot.none ⟨vm, w.mc⟩).1 = none ∧
      ((vmProtect plenty 0x40000000 0xFFFFFFFFFFFFFFFF Prot.none ⟨vm, w.mc⟩).2.vm.abs 0x40000).map
        Entry.prot ≠ some Prot.none) ∧
    ((vmMap plenty 0 0xFFFFFFFFFFFFF000 ⟨true, true, false⟩ ⟨false, false, false, false⟩ false
        ⟨vm, w.mc⟩).1.toOption = some 0x300000000000 ∧
      (vmMap plenty 0 0xFFFFFFFFFFFFF000 ⟨true, true, false⟩ ⟨false, false, false, false⟩ false
        ⟨vm, w.mc⟩).2.vm.abs 0x300000000 = none) := by
  refine ⟨onePage.foldl World.step bootWorld, _, ⟨bootWorld, onePage, bootWorld_boot, LTS.run_ofFn _ _ _ _⟩, rfl, ?_⟩
  decide

end Bugs

end Hermes.L2.Vm
