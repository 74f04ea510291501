import Hermes.L2Mem.VmInv

/-!
# Laws of single calls

What a call leaves alone: `SameOutside` for the program break, and the short cut of `vm_populate`, which looks at page
tables only. Both speak of the address spaces of runs in which no gap search wraps around.

* `brk_frame`: `vm_brk` (vm.c:766) moves the break and nothing else, exactly if rounding it does not wrap.
* `populate_fast_sound`: what `vm_populate` (vm.c:848) accepts without a look at the areas.
-/
namespace Hermes.L2.Vm

open Hermes.Intervals List

/-- The mappings and page-table entries outside `[lo, hi)` are the same. -/
structure SameOutside (vm vm' : VmSpace) (lo hi : Nat) : Prop where
  entry : ∀ va, va < lo ∨ hi ≤ va → entryAt vm'.areas va = entryAt vm.areas va
  pageMap : ∀ n, n * 4096 < lo ∨ hi ≤ n * 4096 → vm'.pageMap n = vm.pageMap n

variable {st : St}

section Outside

variable {vm vm' : VmSpace} {lo hi : Nat}

lemma SameOutside.refl (vm : VmSpace) (lo hi : Nat) : SameOutside vm vm lo hi := ⟨fun _ _ => rfl, fun _ _ => rfl⟩

lemma Cut.sameOutside (h : Cut vm vm') (lo hi : Nat) : SameOutside vm vm' lo hi :=
  ⟨fun va _ => h.areas.entry va, fun n _ => by rw [h.rest]⟩

lemma Unmapped.sameOutside (h : Unmapped vm vm' lo hi) : SameOutside vm vm' lo hi := by
  constructor
  · intro va hva
    rw [h.entry, if_neg (by omega)]
  intro n hn
  rw [h.pageMap, if_neg (by omega)]

variable {prot : Prot} {flags : AreaFlags} {addr l : Nat}

lemma Mapped.sameOutside (h : Mapped vm vm' lo hi prot flags) : SameOutside vm vm' lo hi := by
  constructor
  · intro va hva
    rw [h.entry, if_neg (by omega)]
  intro n hn
  rw [h.pageMap, if_neg (by omega)]

lemma Grown.sameOutside (h : Grown vm vm' lo hi) : SameOutside vm vm' lo hi := by
  obtain ⟨a, -, -, he⟩ := h.entry
  constructor
  · intro va hva
    rw [he, if_neg (by omega)]
  intro n _
  rw [h.pageMap]

variable {r : Except Errno Nat × St} {fixed : Bool}

/-- A mapping at a fixed address, whether or not it is made. -/
lemma MapOutcome.sameOutside (h : MapOutcome vm addr l prot flags true r) :
    SameOutside vm r.2.vm addr (addr + l) := by
  rcases h with ⟨start, -, hs, -, -, -, hm⟩ | ⟨e, -, hc | ⟨-, hu⟩⟩
  · rw [hs rfl] at hm
    exact hm.sameOutside
  · exact hc.sameOutside _ _
  · exact hu.sameOutside

/-- Over a free range a refused mapping changes nothing. -/
lemma MapOutcome.refused {e : Errno} (h : MapOutcome vm addr l prot flags fixed (.error e, st))
    (hfree : FreeIn vm.areas addr (addr + l)) (lo hi : Nat) : SameOutside vm st.vm lo hi := by
  rcases h with ⟨_, hc, -⟩ | ⟨_, -, hc | ⟨-, hu⟩⟩
  · cases hc
  · exact hc.sameOutside lo hi
  constructor
  · intro va _
    rw [hu.entry]
    split
    · rename_i hin
      rw [hfree.entry hin.1 hin.2]
    · rfl
  · intro n _
    rw [hu.pageMap, if_neg]
    rintro ⟨hin, hne⟩
    exact hne (hfree.entry hin.1 hin.2)

lemma brk_of_layout {L : List VmArea} (h : vm'.layout = { vm with areas := L }.layout) :
    vm'.brkStart = vm.brkStart ∧ vm'.brk = vm.brk := by
  have h1 := congrArg VmSpace.brkStart h
  have h2 := congrArg VmSpace.brk h
  exact ⟨h1, h2⟩

lemma MapOutcome.brk (h : MapOutcome vm addr l prot flags fixed r) :
    r.2.vm.brkStart = vm.brkStart ∧ r.2.vm.brk = vm.brk := by
  rcases h with ⟨_, -, -, -, -, -, hm⟩ | ⟨_, -, hc | ⟨-, hu⟩⟩
  · exact brk_of_layout hm.rest
  · rw [hc.rest]
    exact ⟨rfl, rfl⟩
  · exact brk_of_layout hu.rest

end Outside

/-! ## The program break -/

/-- `vm_brk`: every return of `brk_locked` is of `vm->brk` -/
def vmBrk (env : Env) (new : Nat) (st : St) : Nat × St := ((brkLocked env new st).vm.brk, brkLocked env new st)

/-- What a call with the break `new` may do: change the mappings between the two breaks and store `new`, or nothing. -/
def BrkFrame (vm vm' : VmSpace) (new : Nat) : Prop :=
  (vm'.brkStart = vm.brkStart ∧ vm'.brkStart ≤ vm'.brk ∧ vm'.brk ≤ userAddrLimit) ∧
  SameOutside vm vm' (min (pageAlignUp vm.brk) (pageAlignUp new)) (max (pageAlignUp vm.brk) (pageAlignUp new)) ∧
  (vm'.brk = new ∨ vm'.brk = vm.brk ∧ SameOutside vm vm' 0 0)

section Brk

variable {vm vm' : VmSpace} {new : Nat} (hb : vm.brkStart ≤ vm.brk ∧ vm.brk ≤ userAddrLimit)
include hb

lemma BrkFrame.refused (h1 : vm'.brkStart = vm.brkStart ∧ vm'.brk = vm.brk) (h2 : ∀ lo hi, SameOutside vm vm' lo hi) :
    BrkFrame vm vm' new := by
  unfold BrkFrame
  rw [h1.1, h1.2]
  exact ⟨⟨rfl, hb⟩, h2 _ _, .inr ⟨rfl, h2 0 0⟩⟩

variable {mc : Mach}

lemma brkFrame_grow (env : Env) (hok : SpaceOk vm) (hn : new + 4095 < 2 ^ 64) (hlow : vm.brkStart ≤ new)
    (hgrow : pageAlignUp vm.brk < pageAlignUp new) : BrkFrame vm (brkLocked env new ⟨vm, mc⟩).vm new := by
  have hold := pageAlignUp_aligned vm.brk
  have hnew := pageAlignUp_aligned new
  unfold brkLocked
  dsimp only
  rw [if_neg (by omega), if_pos hgrow]
  by_cases hroom : userRange (pageAlignUp vm.brk) (pageAlignUp new) = false ∨
      vmRangeFree vm.areas (pageAlignUp vm.brk) (pageAlignUp new) = false
  · rw [if_pos hroom]
    exact BrkFrame.refused hb ⟨rfl, rfl⟩ (SameOutside.refl vm)
  rw [if_neg hroom]
  simp only [not_or, Bool.not_eq_false] at hroom
  obtain ⟨-, hu, -⟩ := userRange_iff.1 hroom.1
  have hlimit : new ≤ userAddrLimit := le_trans (pageAlignUp_bounds hn).1 hu
  have hmin : min (pageAlignUp vm.brk) (pageAlignUp new) = pageAlignUp vm.brk := by omega
  have hmax : max (pageAlignUp vm.brk) (pageAlignUp new) = pageAlignUp new := by omega
  rcases hheap : heapArea vm (pageAlignUp vm.brk) with - | a
  · dsimp only
    have ⟨ho, _⟩ := @mapLocked_spec ⟨vm, mc⟩ env (pageAlignUp vm.brk) (pageAlignUp new - pageAlignUp vm.brk)
      ⟨true, true, false⟩ ⟨false, true, false, false⟩ true hok.areas hok.base (fun hs => absurd hs.1 (by decide))
    rw [@pageAlignUp_of_aligned (pageAlignUp new - pageAlignUp vm.brk) (by omega) (by omega)] at ho
    generalize mapLocked env _ _ _ _ _ _ = r at ho ⊢
    have hbrk := ho.brk
    have hout := ho.sameOutside
    rw [Nat.add_sub_cancel' (by omega)] at hout
    obtain ⟨e | start, st⟩ := r
    · refine BrkFrame.refused hb hbrk (ho.refused ?_)
      rw [Nat.add_sub_cancel' (by omega)]
      exact (vmRangeFree_iff hok.areas.tiled).1 hroom.2
    refine ⟨⟨hbrk.1, hbrk.1.symm ▸ hlow, hlimit⟩, ?_, .inl rfl⟩
    rw [hmin, hmax]
    exact ⟨hout.entry, hout.pageMap⟩
  · obtain ⟨ha, hstop⟩ := mem_of_heapArea hok.areas hheap
    rw [← hstop] at hroom
    have hg := grown_areaSet hok.areas ha hnew hroom.1 hroom.2
    refine ⟨⟨rfl, hlow, hlimit⟩, ?_, .inl rfl⟩
    rw [hmin, hmax, ← hstop]
    exact ⟨hg.sameOutside.entry, hg.sameOutside.pageMap⟩

lemma brkFrame_shrink (env : Env) (hok : SpaceOk vm) (hn : new + 4095 < 2 ^ 64) (hlow : vm.brkStart ≤ new)
    (hle : pageAlignUp new ≤ pageAlignUp vm.brk) : BrkFrame vm (brkLocked env new ⟨vm, mc⟩).vm new := by
  have hold := pageAlignUp_aligned vm.brk
  have hnew := pageAlignUp_aligned new
  have hlim : vm.brk ≤ 34359738368 * 4096 := hb.2
  have holdle := pageAlignUp_bounds (show vm.brk + 4095 < 2 ^ 64 by omega)
  -- the limit is a page boundary, so the rounded old break does not pass it
  have hlimit : new ≤ userAddrLimit := by
    have := (pageAlignUp_bounds hn).1
    show new ≤ 34359738368 * 4096
    omega
  unfold brkLocked
  dsimp only
  rw [if_neg (by omega), if_neg (by omega)]
  by_cases hlt : pageAlignUp new < pageAlignUp vm.brk
  swap
  · rw [if_neg hlt]
    exact ⟨⟨rfl, hlow, hlimit⟩, ⟨fun _ _ => rfl, fun _ _ => rfl⟩, .inl rfl⟩
  rw [if_pos hlt]
  have hmin : min (pageAlignUp vm.brk) (pageAlignUp new) = pageAlignUp new := by omega
  have hmax : max (pageAlignUp vm.brk) (pageAlignUp new) = pageAlignUp vm.brk := by omega
  have hend := @rangeEnd_of_aligned (pageAlignUp new) (pageAlignUp vm.brk - pageAlignUp new) hnew (by omega) (by omega)
  rw [Nat.add_sub_cancel' (by omega)] at hend
  rw [BrkFrame, hmin, hmax]
  rcases @unmapLocked_spec ⟨vm, mc⟩ env (pageAlignUp new) (pageAlignUp vm.brk - pageAlignUp new) hok.areas with
    ⟨st, hr, -, -, -, hu⟩ | ⟨e, st, hr, hc, -⟩
  · rw [hend] at hu
    have hs := (brk_of_layout hu.rest).1
    rw [hr]
    exact ⟨⟨hs, hs.symm ▸ hlow, hlimit⟩, ⟨hu.sameOutside.entry, hu.sameOutside.pageMap⟩, .inl rfl⟩
  have hs : st.vm.brkStart = vm.brkStart := by rw [hc.rest]
  have := hc.sameOutside (pageAlignUp new) (pageAlignUp vm.brk)
  rw [hr]
  exact ⟨⟨hs, hs.symm ▸ hlow, hlimit⟩, ⟨this.entry, this.pageMap⟩, .inl rfl⟩

end Brk

/-- Where the new break wraps around when it is rounded up to a page, it is stored, beyond the limit. -/
lemma brkLocked_wrapped {vm : VmSpace} {mc : Mach} (env : Env) {new : Nat} (hlow : vm.brkStart ≤ new) (hlt : new < 2 ^ 64)
    (hn : ¬ new + 4095 < 2 ^ 64) : (brkLocked env new ⟨vm, mc⟩).vm.brk = new := by
  have hzero : pageAlignUp new = 0 := by
    unfold pageAlignUp wrap
    omega
  unfold brkLocked
  dsimp only
  rw [if_neg (by omega), hzero, if_neg (by omega)]
  split <;> rfl

/-- **The frame of `vm_brk`.** Exactly where the new break does not wrap around when it is rounded up to a page, only the
range between the two rounded breaks is mapped differently, and the break that is stored and returned stays where it may
be; a new break that is refused changes no mapping. -/
theorem brk_frame {w : World} (h : (system.restrict NoWrap).Reachable w) {i : Nat} {vm : VmSpace}
    (hi : w.spaces i = some vm) (hb : vm.brkStart ≤ vm.brk ∧ vm.brk ≤ userAddrLimit) (env : Env) (newBrk : UInt64) :
    let r := vmBrk env newBrk.toNat ⟨vm, w.mc⟩
    r.1 = r.2.vm.brk ∧ (BrkFrame vm r.2.vm newBrk.toNat ↔ newBrk.toNat + 4095 < 2 ^ 64) := by
  have hok := reachable_ok h i vm hi
  refine ⟨rfl, fun hframe => ?_, fun hn => ?_⟩
  · by_contra hn
    have hlim : vm.brk ≤ 34359738368 * 4096 := hb.2
    have hle : (brkLocked env newBrk.toNat ⟨vm, w.mc⟩).vm.brk ≤ 34359738368 * 4096 := hframe.1.2.2
    rw [brkLocked_wrapped env (by omega) newBrk.toNat_lt hn] at hle
    omega
  show BrkFrame vm (brkLocked env newBrk.toNat ⟨vm, w.mc⟩).vm newBrk.toNat
  by_cases hlow : newBrk.toNat < vm.brkStart
  · have : brkLocked env newBrk.toNat ⟨vm, w.mc⟩ = ⟨vm, w.mc⟩ := if_pos hlow
    rw [this]
    exact BrkFrame.refused hb ⟨rfl, rfl⟩ (SameOutside.refl vm)
  rcases lt_or_ge (pageAlignUp vm.brk) (pageAlignUp newBrk.toNat) with hgrow | hle
  · exact brkFrame_grow hb env hok hn (by omega) hgrow
  · exact brkFrame_shrink hb env hok hn (by omega) hle

/-- One page is mapped at `0x40000000`, the break starts after it. -/
def pageThenBreak : List Ev := onePage ++ [.call 0 plenty (.setBrk 0x40001000)]

lemma pageThenBreak_reachable : (system.restrict NoWrap).Reachable (pageThenBreak.foldl World.step bootWorld) :=
  LTS.reachable_ofFn bootWorld_boot
    ⟨trivial, fun _ _ _ hl => absurd hl (by simp [Call.gapLen]), fun _ _ _ hl => absurd hl nofun,
      fun _ _ _ hl => absurd hl nofun, trivial⟩

theorem brk_frame_grown : ∃ vm, (pageThenBreak.foldl World.step bootWorld).spaces 0 = some vm ∧
      BrkFrame vm (vmBrk plenty 0x40003000 ⟨vm, (pageThenBreak.foldl World.step bootWorld).mc⟩).2.vm 0x40003000 :=
  ⟨_, rfl, (brk_frame pageThenBreak_reachable (i := 0) rfl (by decide) plenty 0x40003000).2.2 (by decide)⟩

/-- The last byte of the address space as the new break rounds up to 0: everything below the old break is unmapped, and
the break is beyond the limit. -/
theorem brk_wraps : ∃ w, (system.restrict NoWrap).Reachable w ∧ ∃ vm, w.spaces 0 = some vm ∧
    vm.brkStart = 0x40001000 ∧ vm.brk = 0x40001000 ∧ (entryAt vm.areas 0x40000000).isSome = true ∧
    let vm' := (vmBrk plenty (UInt64.ofNat (2 ^ 64 - 1)).toNat ⟨vm, w.mc⟩).2.vm
    entryAt vm'.areas 0x40000000 = none ∧ (vm'.pageMap 0x40000).frame ≠ (vm.pageMap 0x40000).frame ∧
    userAddrLimit < vm'.brk := by
  refine ⟨_, pageThenBreak_reachable, _, rfl, ?_⟩
  decide +kernel

/-! ## The short cut of `vm_populate` -/

/-- `populate_fast`: every page is present, for the user, and writable if it is to be written. -/
def populateFast (vm : VmSpace) (addr stop : Nat) (write : Bool) : Bool := (pages (pageBase addr) stop).all fun va =>
    let p := vm.pageMap (va / 4096)
    p.present && p.user && (!write || p.writable)

/-- The areas of the pages allow the access. -/
def Allowed (vm : VmSpace) (write : Bool) (l : List Nat) : Prop :=
  ∀ va ∈ l, ∀ a ∈ vm.areas, a.start ≤ va → va < a.stop → a.allows write = true

/-- A page that is present lies in an area, and one that is writable in an area that may be written. -/
lemma area_of_present {vm : VmSpace} (h : SpaceOk vm) {va : Nat} (hva : va % 4096 = 0)
    (hp : (vm.pageMap (va / 4096)).present = true) : ∃ a ∈ vm.areas, a.start ≤ va ∧ va < a.stop ∧
      ((vm.pageMap (va / 4096)).writable = true → a.prot.write = true) := by
  have hframe : (vm.pageMap (va / 4096)).frame ≠ 0 := by
    intro hz
    rw [(h.pte (va / 4096)).zero hz] at hp
    cases hp
  obtain ⟨e, he, hw⟩ := h.inArea (va / 4096) hframe
  rw [Nat.div_mul_cancel (Nat.dvd_of_mod_eq_zero hva)] at he
  obtain ⟨a, ha, h1, h2, rfl⟩ := (entryAt_eq_some h.areas.tiled).1 he
  exact ⟨a, ha, h1, h2, hw⟩

/-- The loop of `populate_locked` over pages the short cut accepts: it finds the area of every page and changes nothing, and
it gets to the end if all of them allow the access. -/
lemma populatePages_fast (env : Env) {write : Bool} (h : SpaceOk st.vm) : ∀ (l : List Nat) (cached : Option VmArea),
    (∀ a, cached = some a → a ∈ st.vm.areas ∧ a.allows write = true ∧ ∀ va ∈ l, a.start ≤ va) → l.Pairwise (· ≤ ·) →
    (∀ va ∈ l, va % 4096 = 0 ∧ (st.pte va).present = true ∧ (write = true → (st.pte va).writable = true)) →
    ∃ ok, populatePages env write l cached st = (ok, st) ∧ (ok = true ↔ Allowed st.vm write l) := by
  intro l
  induction l with
  | nil => exact fun _ _ _ _ => ⟨true, rfl, by simp [Allowed]⟩
  | cons va rest ih =>
    intro cached hcached hsorted hfast
    obtain ⟨hva, hpresent, hwritable⟩ := hfast va (by simp)
    obtain ⟨a, ha, h1, h2, -⟩ := area_of_present h hva hpresent
    -- the cached area, where it is not past its end, is the area of the page
    have hnow : areaNow cached st.vm.areas va = some a := by
      have hfind := (vmFind_eq_some h.areas.tiled).2 ⟨ha, h1, h2⟩
      cases cached with
      | none => exact hfind
      | some b =>
        obtain ⟨hb, -, hb1⟩ := hcached b rfl
        unfold areaNow
        dsimp only
        split
        · have := hb1 va (by simp)
          rw [h.areas.eq_of_overlap hb ha (by omega) (by omega)]
        · exact hfind
    have hpage : Allowed st.vm write (va :: rest) ↔ a.allows write = true ∧ Allowed st.vm write rest := by
      unfold Allowed
      rw [forall_mem_cons]
      refine and_congr_left fun _ => ⟨fun hall => hall a ha h1 h2, fun hallows b hb hb1 hb2 => ?_⟩
      rwa [h.areas.eq_of_overlap hb ha (by omega) (by omega)]
    unfold populatePages
    rw [hnow, hpage]
    dsimp only
    by_cases hallows : a.allows write = true
    swap
    · rw [if_pos (by simpa using hallows)]
      exact ⟨false, rfl, by simp [hallows]⟩
    rw [if_neg (by rw [hallows]; decide), if_pos, and_iff_right hallows]
    · refine ih (some a) ?_ hsorted.tail fun va hva => hfast va (by simp [hva])
      intro b hb
      obtain rfl := Option.some_inj.1 hb
      exact ⟨ha, hallows, fun va' hva' => h1.trans (rel_of_pairwise_cons hsorted hva')⟩
    · refine ⟨hpresent, ?_⟩
      cases write with
      | false => exact .inl rfl
      | true => exact .inr (hwritable rfl)

/-- **The short cut.** In a range `vm_populate` tries it on, it accepts only what `populate_locked` accepts without a change,
exactly if a read of pages that are all present and the user's finds each of their areas readable. -/
theorem populate_fast_sound {w : World} (h : (system.restrict NoWrap).Reachable w) {i : Nat} {vm : VmSpace}
    (hi : w.spaces i = some vm) (env : Env) (addr len : UInt64) (write : Bool)
    (hr : userRange addr.toNat (addr + len).toNat = true) :
    (populateFast vm addr.toNat (addr + len).toNat write = true →
      populateLocked env addr.toNat len.toNat write ⟨vm, w.mc⟩ = (true, ⟨vm, w.mc⟩)) ↔
    (write = false → (∀ va ∈ pages (pageBase addr.toNat) (addr + len).toNat,
        (vm.pageMap (va / 4096)).present = true ∧ (vm.pageMap (va / 4096)).user = true) →
      ∀ a ∈ vm.areas, a.start < (addr + len).toNat → addr.toNat < a.stop → a.prot.read = true) := by
  have hok := reachable_ok h i vm hi
  rw [UInt64.toNat_add] at hr ⊢
  obtain ⟨-, -, hlt⟩ := userRange_iff.1 hr
  have hlen : len.toNat ≠ 0 := fun h0 => by
    rw [h0, Nat.add_zero, Nat.mod_eq_of_lt addr.toNat_lt] at hlt
    exact lt_irrefl _ hlt
  generalize hstop : (addr.toNat + len.toNat) % 2 ^ 64 = stop at hr hlt ⊢
  generalize hl : pages (pageBase addr.toNat) stop = l
  have hloop : populateLocked env addr.toNat len.toNat write ⟨vm, w.mc⟩ = populatePages env write l none ⟨vm, w.mc⟩ := by
    have hw : wrap (addr.toNat + len.toNat) = stop := hstop
    unfold populateLocked
    dsimp only
    rw [if_neg hlen, hw, if_neg, hl]
    rintro (hc | hc)
    · exact absurd hc (Nat.not_lt.2 (le_of_lt hlt))
    · rw [hr] at hc
      cases hc
  have hpage : ∀ {va}, va ∈ l → ∃ k, va = pageBase addr.toNat + 4096 * k ∧ va < stop := by
    intro va hva
    rw [← hl] at hva
    exact mem_pages.1 hva
  have hbase : pageBase addr.toNat % 4096 = 0 := Nat.mul_mod_left _ _
  have hspec := fun hfast => @populatePages_fast ⟨vm, w.mc⟩ env write hok l none (fun _ h => by cases h) (by
    rw [← hl, pages, pairwise_map]
    exact pairwise_lt_range.imp fun hlt => by omega) hfast
  -- a page of the range lies in an area if and only if the area meets the range
  have hmeets : Allowed vm write l ↔ ∀ a ∈ vm.areas, a.start < stop → addr.toNat < a.stop → a.allows write = true := by
    constructor
    · intro hall a ha h1 h2
      have hends := hok.areas.area a ha
      have hstart := hends.start
      have hend := hends.stop
      have hpos : a.start < a.stop := hok.areas.tiled.proper a ha
      refine hall (max (pageBase addr.toNat) a.start) ?_ a ha (le_max_right _ _) ?_
      · rw [← hl]
        refine mem_pages.2 ⟨(max (pageBase addr.toNat) a.start - pageBase addr.toNat) / 4096, ?_, ?_⟩ <;>
          (unfold pageBase at *; omega)
      · unfold pageBase
        omega
    · intro hall va hva a ha h1 h2
      obtain ⟨k, rfl, hlt'⟩ := hpage hva
      have hend := (hok.areas.area a ha).stop
      refine hall a ha (h1.trans_lt hlt') ?_
      unfold pageBase at h2
      omega
  rw [hloop]
  simp only [populateFast, hl, all_eq_true, Bool.and_eq_true, Bool.or_eq_true, Bool.not_eq_true']
  constructor
  · rintro hsound rfl hpresent
    obtain ⟨ok, hrun, hiff⟩ := hspec fun va hva => ⟨by obtain ⟨k, rfl, -⟩ := hpage hva; omega, (hpresent va hva).1,
      fun h => by cases h⟩
    rw [hsound fun va hva => ⟨hpresent va hva, .inl rfl⟩] at hrun
    exact hmeets.1 (hiff.1 (congrArg Prod.fst hrun).symm)
  · intro hread hfast
    obtain ⟨ok, hrun, hiff⟩ := hspec fun va hva => by
      obtain ⟨k, rfl, -⟩ := hpage hva
      obtain ⟨⟨hp, -⟩, hw⟩ := hfast _ hva
      exact ⟨by omega, hp, fun hwr => hw.resolve_left (by rw [hwr]; decide)⟩
    rw [hrun]
    refine Prod.ext (hiff.2 ?_) rfl
    cases write with
    | false => exact hmeets.2 (hread rfl fun va hva => (hfast va hva).1)
    | true =>
      -- a writable entry lies in a writable area
      intro va hva a ha h1 h2
      obtain ⟨k, rfl, -⟩ := hpage hva
      obtain ⟨⟨hp, -⟩, hw⟩ := hfast _ hva
      obtain ⟨b, hb, hb1, hb2, hwb⟩ := area_of_present hok (by omega) hp
      obtain rfl := hok.areas.eq_of_overlap ha hb (by omega) (by omega)
      exact hwb (hw.resolve_left (by decide))

/-- The page of `onePage`, its area made executable only. -/
def execOnly : List Ev := onePage ++ [.call 0 plenty (.protect 0x40000000 4096 ⟨false, false, true⟩)]

lemma execOnly_reachable : (system.restrict NoWrap).Reachable (execOnly.foldl World.step bootWorld) :=
  LTS.reachable_ofFn bootWorld_boot
    ⟨trivial, fun _ _ _ hl => absurd hl (by simp [Call.gapLen]), fun _ _ _ hl => absurd hl nofun,
      fun _ _ _ hl => absurd hl nofun, trivial⟩

theorem populate_fast_sound_onePage :
    ∃ vm, (onePage.foldl World.step bootWorld).spaces 0 = some vm ∧ populateFast vm 0x40000010 0x40000020 true = true ∧
      (populateLocked plenty 0x40000010 16 true ⟨vm, (onePage.foldl World.step bootWorld).mc⟩).1 = true := by
  refine ⟨_, rfl, by decide +kernel, ?_⟩
  have h := (populate_fast_sound onePage_reachable (i := 0) rfl plenty 0x40000010 16 true (by decide)).2 nofun
    (by decide +kernel)
  exact congrArg Prod.fst h

/-- A read of a page that may only be executed: its entry is present, so the short cut lets the read through;
`populate_locked` refuses it. -/
theorem execOnly_read_accepted : ∃ w, (system.restrict NoWrap).Reachable w ∧ ∃ vm, w.spaces 0 = some vm ∧
    userRange 0x40000000 0x40001000 = true ∧ populateFast vm 0x40000000 0x40001000 false = true ∧
    (populateLocked plenty 0x40000000 4096 false ⟨vm, w.mc⟩).1 = false := by
  refine ⟨_, execOnly_reachable, _, rfl, ?_⟩
  decide +kernel

end Hermes.L2.Vm
