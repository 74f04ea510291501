import Hermes.L2Mem.VmPages

/-!
# What the calls do to an address space

For each call of `vm.c` that changes areas or page table, the relation
between the space before and after: `Cut` (areas split, nothing mapped
differently), `Unmapped`, `Mapped`, `Protected`, `Grown` and `Moved`. Every
one says what happens to `entryAt` and to the page table, and that the areas
keep their shape.
-/
namespace Hermes.L2.Vm

open Hermes.Intervals List Option

/-- Areas may have been split; nothing else changed. -/
structure Cut (vm vm' : VmSpace) : Prop where
  areas : Isolated vm.areas vm'.areas
  rest : vm' = { vm with areas := vm'.areas }

variable (env : Env) {vm vm' : VmSpace} {L : List VmArea} {a : VmArea} {va start : Nat} {st : St}

lemma Cut.refl (h : AreasOk vm.areas) : Cut vm vm := ⟨Isolated.refl h, rfl⟩

/-- Nothing is mapped in `[addr, stop)` any more. -/
structure Unmapped (vm vm' : VmSpace) (addr stop : Nat) : Prop where
  ok : AreasOk vm'.areas
  entry : ∀ va, entryAt vm'.areas va = if addr ≤ va ∧ va < stop then none else entryAt vm.areas va
  pageMap : ∀ n, vm'.pageMap n =
    if (addr ≤ n * 4096 ∧ n * 4096 < stop) ∧ entryAt vm.areas (n * 4096) ≠ none
    then Pte.cleared (vm.pageMap n) else vm.pageMap n
  rest : vm'.layout = { vm with areas := vm'.areas }.layout
  piece : ∀ a ∈ vm.areas, ∀ s e, a.start ≤ s → s < e → e ≤ a.stop → e ≤ addr ∨ stop ≤ s →
    ∃ b ∈ vm'.areas, b.start ≤ s ∧ e ≤ b.stop

/-! ## Unmapping -/

/-- The areas that `unmap_locked` and `protect_locked` treat. -/
def inRange (addr stop : Nat) (a : VmArea) : Bool := decide (addr ≤ a.start ∧ a.start < stop)

lemma not_inRange_of_le {addr stop : Nat} {a : VmArea} {L : List VmArea} (h : AreasOk (a :: L))
    (hs : stop ≤ a.start) : ∀ x ∈ a :: L, inRange addr stop x = false := by
  obtain ⟨-, h1, h2, -⟩ := areasOk_cons.1 h
  intro x hx
  rcases mem_cons.1 hx with rfl | hx
  · simp [inRange]
    omega
  have := h2 x hx
  simp [inRange]
  omega

/-- `F` is a loop that treats the areas in the range by `g`, and `t` is what it
leaves of each. -/
structure Treats (addr stop : Nat) (F : List VmArea → St → List VmArea × St)
    (t : VmArea → Option VmArea) (g : St → VmArea → St) : Prop where
  nil : ∀ st, F [] st = ([], st)
  cons : ∀ a rest st, F (a :: rest) st =
    if a.start < stop then
      if addr ≤ a.start then ((t a).toList ++ (F rest (g st a)).1, (F rest (g st a)).2)
      else (a :: (F rest st).1, (F rest st).2)
    else (a :: rest, st)
  outside : ∀ a, inRange addr stop a = false → t a = some a

section

variable {addr stop : Nat} {F : List VmArea → St → List VmArea × St} {t : VmArea → Option VmArea}
  {g : St → VmArea → St}

lemma Treats.eq (hF : Treats addr stop F t g) (h : AreasOk L) :
    ∀ st, F L st = (L.filterMap t, (L.filter (inRange addr stop)).foldl g st) := by
  induction L with
  | nil => exact hF.nil
  | cons a rest ih =>
    intro st
    have hrest := (areasOk_cons.1 h).2.2.2
    rw [hF.cons]
    by_cases hs : a.start < stop
    · rw [if_pos hs]
      by_cases ha : addr ≤ a.start
      · rw [if_pos ha, filter_cons_of_pos (by simp [inRange, ha, hs]), ih hrest, filterMap_cons]
        rcases t a <;> rfl
      have hout : inRange addr stop a = false := by simp [inRange, ha]
      rw [if_neg ha, filter_cons_of_neg (by simp [hout]), ih hrest, filterMap_cons_some (hF.outside a hout)]
    · have hout := @not_inRange_of_le addr stop a rest h (by omega)
      rw [if_neg hs, filter_eq_nil_iff.2 fun x hx => by simp [hout x hx],
        filterMap_congr fun x hx => hF.outside x (hout x hx), filterMap_some]
      rfl

end

/-- The state in which `unmap_locked` has treated the area `a`. -/
def unmapArea (env : Env) (a : VmArea) (st : St) : St := freeFrames a.start a.stop
    (if a.file ≠ 0 then queue env a 0 0 (queueDirty env a a.start a.stop false st) else st)

lemma unmapArea_layout (a : VmArea) (st : St) : (unmapArea env a st).vm.layout = st.vm.layout := by
  unfold unmapArea
  rw [freeFrames_layout]
  by_cases hf : a.file ≠ 0
  · rw [if_pos hf, queue_layout, queueDirty_layout]
  · rw [if_neg hf]

lemma unmapArea_pageMap (ha : a.start % 4096 = 0) (st : St) (n : Nat) : (unmapArea env a st).vm.pageMap n =
      if a.start ≤ n * 4096 ∧ n * 4096 < a.stop then Pte.cleared (st.vm.pageMap n)
      else st.vm.pageMap n := by
  unfold unmapArea
  rw [freeFrames_pageMap ha]
  by_cases hf : a.file ≠ 0
  · rw [if_pos hf, queue_pageMap, queueDirty_pageMap]
  · rw [if_neg hf]

lemma unmapFrom_treats (addr stop : Nat) : Treats addr stop (unmapFrom env addr stop)
    (Option.guard fun a => !inRange addr stop a) fun st a => unmapArea env a st := by
  refine ⟨fun _ => rfl, ?_, fun a h => by simp [h]⟩
  intro a rest st
  rw [unmapFrom]
  by_cases hs : a.start < stop
  · by_cases ha : addr ≤ a.start
    · simp [hs, ha, inRange, unmapArea, Option.guard]
    · simp [ha]
  · simp [hs]

variable {g : St → VmArea → St} {φ : Pte → Pte} {addr stop : Nat} {F : List VmArea → St → List VmArea × St}
  {t : VmArea → Option VmArea}

/-- A loop over areas that treats the pages of each by `φ`. -/
lemma foldl_areas_pageMap (hg : ∀ (st : St) (a : VmArea), a.start % 4096 = 0 → ∀ n, (g st a).vm.pageMap n =
      if a.start ≤ n * 4096 ∧ n * 4096 < a.stop then φ (st.vm.pageMap n) else st.vm.pageMap n) :
    ∀ (L : List VmArea) (st : St), AreasOk L → ∀ n, (L.foldl g st).vm.pageMap n =
      if entryAt L (n * 4096) ≠ none then φ (st.vm.pageMap n) else st.vm.pageMap n := by
  intro L
  induction L with
  | nil =>
    intro st _ n
    rw [if_neg (by simp [entryAt_nil])]
    rfl
  | cons a rest ih =>
    intro st h n
    obtain ⟨hok, hlt, hrest, hrok⟩ := areasOk_cons.1 h
    rw [foldl_cons, ih _ hrok, hg st a hok.start, entryAt_cons]
    by_cases hn : a.start ≤ n * 4096 ∧ n * 4096 < a.stop
    · -- the page is `a`'s, and no later area holds it
      have hno : entryAt rest (n * 4096) = none := by
        rw [entryAt_eq_none]
        intro b hb hv
        have := hrest b hb
        omega
      simp only [hn, hno, and_self, if_true, ne_eq, not_true_eq_false, if_false, reduceCtorEq, not_false_eq_true]
    · simp only [hn, if_false]

lemma foldl_areas_layout (hg : ∀ st a, (g st a).vm.layout = st.vm.layout) (L : List VmArea)
    (st : St) : (L.foldl g st).vm.layout = st.vm.layout :=
  foldl_keeps (g := fun st : St => st.vm.layout) hg L st

/-- In areas clear of both ends, being treated is being inside. -/
lemma inRange_iff (h : AreasOk L) (h1 : Clear L addr) (h2 : Clear L stop) (ha : a ∈ L)
    (hv : a.start ≤ va) (hv' : va < a.stop) : inRange addr stop a = true ↔ addr ≤ va ∧ va < stop := by
  have hp := h.lt ha
  have c1 := h1 a ha
  have c2 := h2 a ha
  simp only [inRange, decide_eq_true_eq]
  omega

/-- The areas before `addr` are not treated. -/
lemma not_inRange_before (h : AreasOk L) (ha : a ∈ areasBefore L addr) : inRange addr stop a = false := by
  have h1 := stop_of_areasBefore ha
  have hm : a ∈ L := by
    rw [← areasBefore_append L addr]
    simp [ha]
  have h2 := h.lt hm
  simp [inRange]
  omega

lemma Treats.areas (hF : Treats addr stop F t g) (h : AreasOk L) :
    areasBefore L addr ++ (areasFrom L addr).filterMap t = L.filterMap t := by
  conv_rhs => rw [← areasBefore_append L addr, filterMap_append,
    filterMap_congr fun x hx => hF.outside x (not_inRange_before h hx), filterMap_some]

/-- Dropping the treated areas of a list clear of both ends unmaps the range. -/
lemma entryAt_filter (h : AreasOk L) (h1 : Clear L addr) (h2 : Clear L stop)
    (va : Nat) : entryAt (L.filter fun a => !inRange addr stop a) va =
      if addr ≤ va ∧ va < stop then none else entryAt L va := by
  have hf : AreasOk (L.filter fun a => !inRange addr stop a) := h.sublist filter_sublist
  split <;> rename_i hin
  · rw [entryAt_eq_none]
    intro a ha hv
    obtain ⟨hm, hr⟩ := mem_filter.1 ha
    by_contra hc
    rw [(inRange_iff h h1 h2 hm hv (by omega)).2 hin] at hr
    cases hr
  · refine entryAt_congr hf.tiled h.tiled fun a h3 h4 => ?_
    rw [mem_filter, Bool.not_eq_true', ← Bool.not_eq_true, and_iff_left_iff_imp]
    exact fun ha hc => hin ((inRange_iff h h1 h2 ha h3 h4).1 hc)

/-- The treated areas map what the range maps. -/
lemma entryAt_treated (h : AreasOk L) (h1 : Clear L addr) (h2 : Clear L stop)
    (va : Nat) : entryAt ((areasFrom L addr).filter (inRange addr stop)) va ≠ none ↔
      (addr ≤ va ∧ va < stop) ∧ entryAt L va ≠ none := by
  have hf := ((h.areasFrom addr).sublist (filter_sublist (p := inRange addr stop))).tiled
  constructor
  · intro hne
    obtain ⟨e, he⟩ := ne_none_iff_exists'.1 hne
    obtain ⟨a, ha, h3, h4, _⟩ := (entryAt_eq_some hf).1 he
    obtain ⟨ha, hr⟩ := mem_filter.1 ha
    have hm : a ∈ L := by
      rw [← areasBefore_append L addr]
      simp [ha]
    refine ⟨(inRange_iff h h1 h2 hm h3 h4).1 hr, ?_⟩
    rw [entryAt_of_mem h.tiled hm h3 h4]
    exact some_ne_none _
  rintro ⟨hin, hne⟩
  obtain ⟨e, he⟩ := ne_none_iff_exists'.1 hne
  obtain ⟨a, hm, h3, h4, -⟩ := (entryAt_eq_some h.tiled).1 he
  have hr := (inRange_iff h h1 h2 hm h3 h4).2 hin
  have hfr : a ∈ areasFrom L addr := by
    rw [← areasBefore_append L addr] at hm
    rcases mem_append.1 hm with hb | hb
    · rw [not_inRange_before h hb] at hr
      cases hr
    · exact hb
  rw [entryAt_of_mem hf (mem_filter.2 ⟨hfr, hr⟩) h3 h4]
  exact some_ne_none _

/-- Such a loop over areas clear of both ends, each treated page by page. -/
lemma Treats.run (hF : Treats addr stop F t g) (hlay : ∀ st a, (g st a).vm.layout = st.vm.layout)
    (hpm : ∀ (st : St) (a : VmArea), a.start % 4096 = 0 → ∀ n, (g st a).vm.pageMap n =
      if a.start ≤ n * 4096 ∧ n * 4096 < a.stop then φ (st.vm.pageMap n) else st.vm.pageMap n)
    (st : St) {r : List VmArea × St} (hr : r = F (areasFrom st.vm.areas addr) st)
    (h : AreasOk st.vm.areas) (h1 : Clear st.vm.areas addr) (h2 : Clear st.vm.areas stop) :
    areasBefore st.vm.areas addr ++ r.1 = st.vm.areas.filterMap t ∧
      (∀ n, r.2.vm.pageMap n = if (addr ≤ n * 4096 ∧ n * 4096 < stop) ∧
        entryAt st.vm.areas (n * 4096) ≠ none then φ (st.vm.pageMap n) else st.vm.pageMap n) ∧
      r.2.vm.layout = st.vm.layout := by
  have hfrom := h.areasFrom addr
  rw [hF.eq hfrom] at hr
  subst hr
  refine ⟨hF.areas h, fun n => ?_, foldl_areas_layout hlay _ st⟩
  rw [foldl_areas_pageMap hpm _ st (hfrom.sublist filter_sublist)]
  exact if_congr (entryAt_treated h h1 h2 _) rfl rfl

/-- The piece at `s` of an area ends where the area does, or at an end of the range. -/
lemma isolated_at {L' : List VmArea} {s : Nat} (hL : AreasOk L) (h : Isolated L L')
    (hst : ∀ x ∈ L', x.stop = addr ∨ x.stop = stop ∨ ∃ y ∈ L, x.stop = y.stop) (ha : a ∈ L) (h1 : a.start ≤ s) (h2 : s < a.stop) :
    ∃ b ∈ L', b.start ≤ s ∧ s < b.stop ∧ (b.stop = addr ∨ b.stop = stop ∨ a.stop ≤ b.stop) := by
  have hcov := h.entry s
  rw [entryAt_of_mem hL.tiled ha h1 h2] at hcov
  obtain ⟨b, hb, h3, h4, -⟩ := (entryAt_eq_some h.ok.tiled).1 hcov
  refine ⟨b, hb, h3, h4, (hst b hb).imp id (.imp id ?_)⟩
  rintro ⟨y, hy, h6⟩
  -- an area of `L` that ends inside `a` would overlap it
  by_contra hne
  have hp := hL.lt hy
  obtain rfl := hL.eq_of_overlap hy ha (by omega) (by omega)
  omega

lemma layout_areas (h : vm.layout = vm'.layout) (L : List VmArea) :
    { vm with areas := L }.layout = { vm' with areas := L }.layout :=
  congrArg (fun v : VmSpace => { v with areas := L }) h

/-- The end of the range that `vm_unmap` and its relatives work on. -/
def rangeEnd (addr len : Nat) : Nat := pageAlignUp (wrap (addr + len))

lemma areas_shootdown (L : List VmArea) (st : St) :
    ({ st with vm.areas := L }.shootdown).vm = { st.vm with areas := L } := rfl

lemma rangeEnd_aligned (addr len : Nat) : rangeEnd addr len % 4096 = 0 := pageAlignUp_aligned _

/-- `unmap_locked` either unmaps its range or fails and maps the same; with enough memory it fails on its arguments
only. -/
lemma unmapLocked_spec (env : Env) (addr len : Nat) (h : AreasOk st.vm.areas) :
    (∃ st', unmapLocked env addr len st = (none, st') ∧ addr % 4096 = 0 ∧ len ≠ 0 ∧ addr ≤ rangeEnd addr len ∧
      Unmapped st.vm st'.vm addr (rangeEnd addr len)) ∨
    ∃ e st', unmapLocked env addr len st = (some e, st') ∧ Cut st.vm st'.vm ∧
      (Ample env → st' = st ∧ (addr % 4096 = 0 → len ≠ 0 → rangeEnd addr len < addr)) := by
  unfold unmapLocked
  by_cases hargs : addr % 4096 ≠ 0 ∨ len = 0 ∨ rangeEnd addr len < addr
  · refine .inr ⟨.einval, st, ?_, Cut.refl h, fun _ => ⟨rfl, by omega⟩⟩
    simp only [rangeEnd] at hargs
    simp only [hargs, if_true]
  have hal : addr % 4096 = 0 := by omega
  have hle : addr ≤ rangeEnd addr len := by omega
  obtain ⟨L', mc', hst, hiso, hclear⟩ := rangeIsolate_spec env hal (rangeEnd_aligned addr len) hle h
  have hstops := @rangeIsolate_stops env addr (rangeEnd addr len) st
  have hamp : Ample env → (rangeIsolate env addr (rangeEnd addr len) st).1 = none :=
    fun he => isolateFrom_ample env he _ _ _ _ _
  simp only [rangeEnd] at hargs hst hclear hstops hamp
  simp only [hargs, if_false]
  rcases hr : rangeIsolate env addr (pageAlignUp (wrap (addr + len))) st with ⟨_ | e, st'⟩
  · rw [hr] at hst hclear hstops
    obtain rfl : st' = _ := hst
    obtain ⟨hc1, hc2⟩ := hclear rfl
    have hok := hiso.ok
    refine .inl ⟨_, rfl, hal, by omega, hle, ?_⟩
    obtain ⟨hlist, hpm, hlay⟩ := (unmapFrom_treats env addr (rangeEnd addr len)).run
      (fun st a => unmapArea_layout env a st) (fun st a ha => unmapArea_pageMap env ha st)
      ⟨{ st.vm with areas := L' }, mc'⟩ rfl hok hc1 hc2
    rw [filterMap_eq_filter] at hlist
    simp only [rangeEnd] at hlist hlay hpm ⊢
    simp only [areas_shootdown, hlist]
    refine ⟨hok.sublist filter_sublist, ?_, ?_, ?_, ?_⟩
    · intro va
      rw [entryAt_filter hok hc1 hc2, hiso.entry]
    · intro n
      rw [← hiso.entry]
      exact hpm n
    · exact layout_areas hlay _
    intro a ha s e h1 hse h2 hout
    obtain ⟨b, hb, h3, h4, h5⟩ := isolated_at h hiso hstops ha h1 (by omega)
    simp only [rangeEnd] at hle
    refine ⟨b, mem_filter.2 ⟨hb, ?_⟩, h3, by omega⟩
    rw [Bool.not_eq_true', ← Bool.not_eq_true]
    intro hc
    have := (inRange_iff hok hc1 hc2 hb h3 h4).1 hc
    omega
  · rw [hr] at hst hamp
    obtain rfl : st' = _ := hst
    exact .inr ⟨e, _, rfl, ⟨hiso, rfl⟩, fun he => nomatch hamp he⟩

/-! ## Mapping -/

/-- `[start, stop)` is mapped afresh. -/
structure Mapped (vm vm' : VmSpace) (start stop : Nat) (prot : Prot) (flags : AreaFlags) : Prop where
  ok : AreasOk vm'.areas
  entry : ∀ va, entryAt vm'.areas va =
    if start ≤ va ∧ va < stop then some ⟨prot, flags, 0, va - start⟩ else entryAt vm.areas va
  pageMap : ∀ n, vm'.pageMap n =
    if (start ≤ n * 4096 ∧ n * 4096 < stop) ∧ entryAt vm.areas (n * 4096) ≠ none
    then Pte.cleared (vm.pageMap n) else vm.pageMap n
  rest : vm'.layout = { vm with areas := vm'.areas }.layout

/-- No area meets `[start, stop)`. -/
def FreeIn (L : List VmArea) (start stop : Nat) : Prop := ∀ a ∈ L, a.stop ≤ start ∨ stop ≤ a.start

lemma FreeIn.entry (h : FreeIn L start stop) (h1 : start ≤ va) (h2 : va < stop) : entryAt L va = none := by
  rw [entryAt_eq_none]
  intro a ha hv
  rcases h a ha with h3 | h3 <;> omega

/-- Nothing mapped on the page-aligned range: no area meets it. -/
lemma freeIn_of_entry (hL : AreasOk L) (hlt : start < stop)
    (h : ∀ va, start ≤ va → va < stop → entryAt L va = none) : FreeIn L start stop := by
  intro a ha
  by_contra hc
  have hp := hL.lt ha
  have := h (max a.start start) (by omega) (by omega)
  rw [entryAt_of_mem hL.tiled ha (by omega) (by omega)] at this
  cases this

variable {b : VmArea} {vm'' : VmSpace} {f : VmArea → VmArea}

lemma areasOk_insert (h : AreasOk L) (hb : AreaOk b) (hlt : b.start < b.stop) (hfree : FreeIn L b.start b.stop) :
    AreasOk (areaInsert b L) := by
  refine ⟨h.tiled.insert hlt hfree, ?_⟩
  intro a ha
  rcases mem_insert.1 ha with rfl | ha
  · exact hb
  · exact h.area a ha

lemma entryAt_insert (h : AreasOk L) (hb : AreaOk b) (hlt : b.start < b.stop) (hfree : FreeIn L b.start b.stop)
    (va : Nat) :
    entryAt (areaInsert b L) va =
      if b.start ≤ va ∧ va < b.stop then some (b.entry va) else entryAt L va := by
  have hok := areasOk_insert h hb hlt hfree
  split <;> rename_i hin
  · exact entryAt_of_mem hok.tiled (mem_insert.2 (.inl rfl)) hin.1 hin.2
  refine entryAt_congr hok.tiled h.tiled fun a h1 h2 => mem_insert.trans (or_iff_right ?_)
  rintro rfl
  exact hin ⟨h1, h2⟩

variable {l : Nat}

lemma userRange_iff : userRange start stop = true ↔ 0x40000000 ≤ start ∧ stop ≤ 0x800000000000 ∧ start < stop := by
  simp [userRange]

/-- The new area of `map_locked` on a free range. -/
lemma mapArea_spec (start len : Nat) (prot : Prot) (flags : AreaFlags) (h : AreasOk st.vm.areas)
    (hs : start % 4096 = 0) (hl : len % 4096 = 0) (hr : userRange start (start + len) = true)
    (hfree : FreeIn st.vm.areas start (start + len)) :
    ((mapArea env start len prot flags st).1 = .ok start ∧
      Mapped st.vm (mapArea env start len prot flags st).2.vm start (start + len) prot flags) ∨
    ((mapArea env start len prot flags st).1 = .error .enomem ∧
      (mapArea env start len prot flags st).2.vm = st.vm ∧ ¬ Ample env) := by
  obtain ⟨h1, h2, h3⟩ := userRange_iff.1 hr
  have hw : wrap (start + len) = start + len := wrap_of_lt (by omega)
  unfold mapArea areaNew Mach.malloc
  cases hm : env.malloc st.mc.tick with
  | false => exact .inr ⟨rfl, rfl, fun he => nomatch (he.malloc _).symm.trans hm⟩
  | true =>
    refine .inl ⟨rfl, ?_⟩
    rw [hw]
    have hb : AreaOk ⟨start, start + len, prot, flags, 0, 0⟩ := ⟨h1, h2, hs, by show (start + len) % 4096 = 0; omega⟩
    refine ⟨areasOk_insert h hb h3 hfree, ?_, ?_, rfl⟩
    · intro va
      refine (entryAt_insert h hb h3 hfree va).trans ?_
      by_cases hin : start ≤ va ∧ va < start + len
      · rw [if_pos hin, if_pos hin]
        simp only [VmArea.entry, VmArea.offsetAt, zero_add, Option.some.injEq, Entry.mk.injEq, true_and]
        exact wrap_of_lt (by omega)
      · rw [if_neg hin, if_neg hin]
    · intro n
      rw [if_neg]
      rintro ⟨hin, hne⟩
      exact hne (hfree.entry hin.1 hin.2)

/-- Where the gap search ends: a place at which nothing is in the way. -/
lemma gapFrom_spec (len : Nat) : ∀ (L : List VmArea) (c : Nat), AreasOk L →
    (∀ a ∈ L, c < a.stop) → c % 4096 = 0 → gapFrom len L c + len < 2 ^ 64 →
    c ≤ gapFrom len L c ∧ gapFrom len L c % 4096 = 0 ∧ FreeIn L (gapFrom len L c) (gapFrom len L c + len) := by
  intro L
  induction L with
  | nil => exact fun c _ _ hc _ => ⟨le_rfl, hc, fun a ha => absurd ha (by simp)⟩
  | cons a rest ih =>
    intro c h hlt hc hw
    obtain ⟨hok, hp, hrest, hrok⟩ := areasOk_cons.1 h
    unfold gapFrom at hw ⊢
    by_cases hbreak : wrap (c + len) ≤ a.start
    · rw [if_pos hbreak] at hw ⊢
      rw [wrap_of_lt hw] at hbreak
      refine ⟨le_rfl, hc, ?_⟩
      intro b hb
      rcases mem_cons.1 hb with rfl | hb
      · exact .inr hbreak
      have := hrest b hb
      exact .inr (by omega)
    rw [if_neg hbreak] at hw ⊢
    have hlt' : ∀ b ∈ rest, a.stop < b.stop := by
      intro b hb
      have h1 := hrest b hb
      have h2 := hrok.lt hb
      omega
    obtain ⟨h1, h2, h3⟩ := ih a.stop hrok hlt' hok.stop hw
    have := hlt a (by simp)
    refine ⟨by omega, h2, ?_⟩
    intro b hb
    rcases mem_cons.1 hb with rfl | hb
    · exact .inl h1
    · exact h3 b hb

/-- `find_gap` without overflow: a free range of the user half. -/
lemma findGap_spec (h : AreasOk vm.areas) (hbase : vm.mmapBase = userMmapBase) {len : Nat}
    (hlen : 0 < len) (hw : gapCandidate vm len + len < 2 ^ 64) (hne : findGap vm len ≠ 0) :
    findGap vm len % 4096 = 0 ∧ userRange (findGap vm len) (findGap vm len + len) = true ∧
      FreeIn vm.areas (findGap vm len) (findGap vm len + len) := by
  obtain ⟨h1, h2, h3⟩ := gapFrom_spec len (areasFrom vm.areas vm.mmapBase) vm.mmapBase
    (h.areasFrom _) (fun a ha => stop_of_areasFrom h.tiled ha) (by rw [hbase]; decide) hw
  have hfg : wrap (gapCandidate vm len + len) ≤ userStackTop - userStackLimit ∧
      findGap vm len = gapCandidate vm len := by
    unfold findGap at hne ⊢
    by_cases hc : wrap (gapCandidate vm len + len) ≤ userStackTop - userStackLimit
    · simp only [hc, if_true, and_self]
    · simp only [hc, if_false, ne_eq, not_true_eq_false] at hne
  rw [wrap_of_lt hw] at hfg
  rw [hfg.2]
  have htop := hfg.1
  have hb : vm.mmapBase = 0x300000000000 := hbase
  change gapCandidate vm len + len ≤ 0x7FFFFFFFF000 - 0x800000 at htop
  change vm.mmapBase ≤ gapCandidate vm len at h1
  refine ⟨h2, userRange_iff.2 ⟨by omega, by omega, by omega⟩, ?_⟩
  intro a ha
  rw [← areasBefore_append vm.areas vm.mmapBase] at ha
  rcases mem_append.1 ha with ha | ha
  · exact .inl ((stop_of_areasBefore ha).trans h1)
  · exact h3 a ha

lemma layout_trans (h : vm'.layout = { vm with areas := vm'.areas }.layout)
    (h' : vm''.layout = { vm' with areas := vm''.areas }.layout) :
    vm''.layout = { vm with areas := vm''.areas }.layout := by
  rw [h']
  exact layout_areas h _

lemma Unmapped.freeIn (h : Unmapped vm vm' addr stop) (hlt : addr < stop) : FreeIn vm'.areas addr stop := by
  refine freeIn_of_entry h.ok hlt ?_
  intro va h1 h2
  rw [h.entry, if_pos ⟨h1, h2⟩]

/-- Unmapping a range and then mapping it. -/
lemma Unmapped.mapped {prot : Prot} {flags : AreaFlags} (h : Unmapped vm vm' start stop)
    (h' : Mapped vm' vm'' start stop prot flags) : Mapped vm vm'' start stop prot flags := by
  refine ⟨h'.ok, ?_, ?_, layout_trans h.rest h'.rest⟩
  · intro va
    rw [h'.entry, h.entry]
    by_cases hin : start ≤ va ∧ va < stop
    · rw [if_pos hin, if_pos hin]
    · rw [if_neg hin, if_neg hin, if_neg hin]
  intro n
  rw [h'.pageMap, h.entry]
  by_cases hin : start ≤ n * 4096 ∧ n * 4096 < stop
  · simp only [if_pos hin, ne_eq, not_true_eq_false, and_false, if_false]
    rw [h.pageMap]
  · rw [if_neg (fun hc => hin hc.1), h.pageMap]

lemma userRange_wrap {a : Nat} (hl : l < 2 ^ 64) (h : userRange a (wrap (a + l)) = true) : wrap (a + l) = a + l := by
  obtain ⟨-, h1, h2⟩ := userRange_iff.1 h
  unfold wrap at h1 h2 ⊢
  omega

lemma rangeEnd_of_aligned {a l : Nat} (ha : a % 4096 = 0) (hl : l % 4096 = 0) (h : a + l < 2 ^ 64) :
    rangeEnd a l = a + l := by
  unfold rangeEnd
  rw [wrap_of_lt h, pageAlignUp_of_aligned (by omega) h]

/-- How `map_locked` can end: the range mapped; or an error, after the range
was unmapped to make room or with nothing mapped differently. -/
def MapOutcome (vm : VmSpace) (addr l : Nat) (prot : Prot) (flags : AreaFlags) (fixed : Bool)
    (r : Except Errno Nat × St) : Prop :=
  (∃ start, r.1 = .ok start ∧ (fixed = true → start = addr) ∧ start % 4096 = 0 ∧
    userRange start (start + l) = true ∧ (fixed = false → FreeIn vm.areas start (start + l)) ∧
    Mapped vm r.2.vm start (start + l) prot flags) ∨
  (∃ e, r.1 = .error e ∧ (Cut vm r.2.vm ∨ fixed = true ∧ Unmapped vm r.2.vm addr (addr + l)))

/-- Mapping a range that is free already. -/
lemma mapArea_outcome (addr start l : Nat) (prot : Prot) (flags : AreaFlags) (h : AreasOk st.vm.areas)
    (hs : start % 4096 = 0) (hl : l % 4096 = 0) (hr : userRange start (start + l) = true)
    (hfree : FreeIn st.vm.areas start (start + l)) :
    MapOutcome st.vm addr l prot flags false (mapArea env start l prot flags st) := by
  rcases mapArea_spec env start l prot flags h hs hl hr hfree with ⟨h1, h2⟩ | ⟨h1, h2, -⟩
  · exact .inl ⟨start, h1, nofun, hs, hr, fun _ => hfree, h2⟩
  refine .inr ⟨_, h1, .inl ?_⟩
  rw [h2]
  exact Cut.refl h

/-- Mapping over whatever is there. -/
lemma mapFixed_outcome (addr l : Nat) (prot : Prot) (flags : AreaFlags) (h : AreasOk st.vm.areas)
    (ha : addr % 4096 = 0) (hl : l % 4096 = 0) (hr : userRange addr (addr + l) = true) :
    ∃ r, (match unmapLocked env addr l st with
        | (some e, st) => (.error e, st)
        | (none, st) => mapArea env addr l prot flags st) = r ∧
      MapOutcome st.vm addr l prot flags true r ∧ (Ample env → ∀ e, r.1 ≠ .error e) := by
  refine ⟨_, rfl, ?_⟩
  obtain ⟨-, h2, h3⟩ := userRange_iff.1 hr
  have hend := rangeEnd_of_aligned ha hl (by omega)
  rcases unmapLocked_spec env addr l h with ⟨st', hu, -, -, -, hun⟩ | ⟨e, st', hu, hcut, hamp⟩ <;> rw [hu]
  · rw [hend] at hun
    rcases mapArea_spec env addr l prot flags hun.ok ha hl hr (hun.freeIn (by omega)) with ⟨h4, h5⟩ | ⟨h4, h5, h6⟩
    · exact ⟨.inl ⟨addr, h4, fun _ => rfl, ha, hr, nofun, hun.mapped h5⟩, fun _ e hc => nomatch h4.symm.trans hc⟩
    · exact ⟨.inr ⟨_, h4, .inr ⟨rfl, by rw [h5]; exact hun⟩⟩, fun he => absurd he h6⟩
  · exact ⟨.inr ⟨e, rfl, .inl hcut⟩, fun he => absurd ((hamp he).2 ha (by omega)) (by omega)⟩

/-- The call gets to `find_gap`. -/
def searches (vm : VmSpace) (addr l : Nat) (fixed : Bool) : Prop :=
  fixed = false ∧ (addr = 0 ∨ userRange addr (wrap (addr + l)) = false
    ∨ vmRangeFree vm.areas addr (wrap (addr + l)) = false)

lemma mapLocked_spec (env : Env) (addr len : Nat) (prot : Prot) (flags : AreaFlags) (fixed : Bool)
    (h : AreasOk st.vm.areas) (hbase : st.vm.mmapBase = userMmapBase)
    (hw : searches st.vm addr (pageAlignUp len) fixed →
      gapCandidate st.vm (pageAlignUp len) + pageAlignUp len < 2 ^ 64) :
    MapOutcome st.vm addr (pageAlignUp len) prot flags fixed (mapLocked env addr len prot flags fixed st) ∧
      (Ample env → fixed = true → ∀ e, (mapLocked env addr len prot flags fixed st).1 = .error e →
        (mapLocked env addr len prot flags fixed st).2 = st) := by
  have hal := pageAlignUp_aligned len
  have hlt := pageAlignUp_lt len
  unfold mapLocked
  generalize pageAlignUp len = l at hw hal hlt ⊢
  by_cases hargs : l = 0 ∨ addr % 4096 ≠ 0
  · simp only [hargs, if_true]
    exact ⟨.inr ⟨_, rfl, .inl (Cut.refl h)⟩, fun _ _ _ _ => trivial⟩
  simp only [hargs, if_false]
  have ha : addr % 4096 = 0 := by omega
  cases fixed with
  | true =>
    simp only [if_true]
    by_cases hur : userRange addr (wrap (addr + l)) = true
    · rw [if_pos hur]
      rw [userRange_wrap hlt hur] at hur
      obtain ⟨_, rfl, hout, hamp⟩ := mapFixed_outcome env addr l prot flags h ha hal hur
      exact ⟨hout, fun he _ e hc => absurd hc (hamp he e)⟩
    · rw [if_neg hur]
      exact ⟨.inr ⟨_, rfl, .inl (Cut.refl h)⟩, fun _ _ _ _ => rfl⟩
  | false =>
    refine ⟨?_, nofun⟩
    simp only [Bool.false_eq_true, if_false]
    by_cases hs : addr = 0 ∨ userRange addr (wrap (addr + l)) = false
        ∨ vmRangeFree st.vm.areas addr (wrap (addr + l)) = false
    · rw [if_pos hs]
      split
      · exact .inr ⟨_, rfl, .inl (Cut.refl h)⟩
      rename_i h0
      obtain ⟨h1, h2, h3⟩ := findGap_spec h hbase (by omega) (hw ⟨rfl, hs⟩) h0
      exact mapArea_outcome env addr _ l prot flags h h1 hal h2 h3
    rw [if_neg hs]
    simp only [not_or, Bool.not_eq_false] at hs
    obtain ⟨-, hur, hfr⟩ := hs
    have hnw := userRange_wrap hlt hur
    rw [hnw] at hur hfr
    exact mapArea_outcome env addr addr l prot flags h ha hal hur ((vmRangeFree_iff h.tiled).1 hfr)

/-! ## Protection -/

/-- `[addr, stop)`, all of it mapped, has protection `prot`. -/
structure Protected (vm vm' : VmSpace) (addr stop : Nat) (prot : Prot) : Prop where
  ok : AreasOk vm'.areas
  mapped : ∀ va, addr ≤ va → va < stop → ∃ e, entryAt vm.areas va = some e ∧ (prot.write && e.flags.noWrite) = false
  entry : ∀ va, entryAt vm'.areas va =
    if addr ≤ va ∧ va < stop then (entryAt vm.areas va).map ({ · with prot := prot })
    else entryAt vm.areas va
  pageMap : ∀ n, vm'.pageMap n =
    if addr ≤ n * 4096 ∧ n * 4096 < stop then Pte.reprot prot (vm.pageMap n) else vm.pageMap n
  rest : vm'.layout = { vm with areas := vm'.areas }.layout

/-- Fewer areas end after `a` than after an address before its end. -/
lemma fewer_after (ha : a ∈ L) (h : va < a.stop) : (L.filter fun b => decide (a.stop < b.stop)).length <
      (L.filter fun b => decide (va < b.stop)).length := by
  have hsub : (L.filter fun b => decide (a.stop < b.stop)) =
      (L.filter fun b => decide (va < b.stop)).filter fun b => decide (a.stop < b.stop) := by
    rw [List.filter_filter]
    apply filter_congr
    intro b _
    by_cases hb : a.stop < b.stop
    · simp [hb, show va < b.stop by omega]
    · simp [hb]
  rw [hsub, length_filter_lt_length_iff_exists]
  exact ⟨a, mem_filter.2 ⟨ha, by simpa using h⟩, by simp⟩

/-- The check of `protect_locked`, given a turn for each area that ends after
`va` and one more: all of `[va, stop)` is mapped and may get `prot`. -/
lemma protectCheck_none (h : AreasOk L) (prot : Prot) (stop : Nat) : ∀ (n va : Nat),
    (L.filter fun a => decide (va < a.stop)).length < n → protectCheck L prot stop n va = none → ∀ u, va ≤ u →
    u < stop → ∃ e, entryAt L u = some e ∧ (prot.write && e.flags.noWrite) = false := by
  intro n
  induction n with
  | zero => exact fun va hn => absurd hn (Nat.not_lt_zero _)
  | succ n ih =>
    intro va hn hc u h1 h2
    unfold protectCheck at hc
    rw [if_pos (by omega)] at hc
    rcases hf : vmFind L va with - | a <;> rw [hf] at hc
    · cases hc
    obtain ⟨ha, h3, h4⟩ := (vmFind_eq_some h.tiled).1 hf
    by_cases hw : (prot.write && a.flags.noWrite) = true
    · simp only [hw, if_true, reduceCtorEq] at hc
    simp only [hw] at hc
    by_cases hu : u < a.stop
    · exact ⟨a.entry u, entryAt_of_mem h.tiled ha (by omega) hu, Bool.eq_false_iff.2 hw⟩
    -- the areas that end after `a` are fewer: `a` itself does not
    refine ih a.stop ?_ hc u (by omega) h2
    have := fewer_after ha h4
    omega

/-- The area with its new protection. -/
def VmArea.reprot (addr stop : Nat) (prot : Prot) (a : VmArea) : VmArea :=
  if inRange addr stop a then { a with prot := prot } else a

lemma protectFrom_treats (addr stop : Nat) (prot : Prot) : Treats addr stop
    (protectFrom addr stop prot) (some ∘ VmArea.reprot addr stop prot)
    fun st a => (pages a.start a.stop).foldl (protectPage prot) st := by
  refine ⟨fun _ => rfl, ?_, fun a h => by simp [VmArea.reprot, h]⟩
  intro a rest st
  rw [protectFrom]
  by_cases hs : a.start < stop
  · by_cases ha : addr ≤ a.start
    · simp [hs, ha, Nat.not_lt.2 ha, inRange, VmArea.reprot]
    · simp [hs, ha]
  · simp [hs]

@[simp] lemma reprot_start (addr stop : Nat) (prot : Prot) (a : VmArea) :
    (a.reprot addr stop prot).start = a.start := by
  unfold VmArea.reprot
  split <;> rfl

@[simp] lemma reprot_stop (addr stop : Nat) (prot : Prot) (a : VmArea) : (a.reprot addr stop prot).stop = a.stop := by
  unfold VmArea.reprot
  split <;> rfl

/-- A change of areas that keeps their bounds keeps their shape. -/
lemma areasOk_map (h : AreasOk L) (h1 : ∀ a, (f a).start = a.start) (h2 : ∀ a, (f a).stop = a.stop) :
    AreasOk (L.map f) := by
  induction L with
  | nil => exact h
  | cons a rest ih =>
    obtain ⟨hok, hlt, hrest, hrok⟩ := areasOk_cons.1 h
    rw [map_cons]
    refine areasOk_cons.2 ⟨⟨?_, ?_, ?_, ?_⟩, ?_, ?_, ih hrok⟩
    · rw [h1]; exact hok.min
    · rw [h2]; exact hok.limit
    · rw [h1]; exact hok.start
    · rw [h2]; exact hok.stop
    · rw [h1, h2]; exact hlt
    · intro x hx
      obtain ⟨y, hy, rfl⟩ := mem_map.1 hx
      rw [h1, h2]
      exact hrest y hy

/-- What such a change does to the map, given its effect inside each area. -/
lemma entryAt_map (h1 : ∀ a, (f a).start = a.start) (h2 : ∀ a, (f a).stop = a.stop) (va : Nat) :
    entryAt (L.map f) va = (cover L va).map fun a => (f a).entry va := by
  unfold entryAt cover
  rw [List.find?_map, Option.map_map]
  have : (fun x : VmArea => decide (Interval.lo x ≤ va ∧ va < Interval.hi x)) ∘ f =
      fun x => decide (Interval.lo x ≤ va ∧ va < Interval.hi x) := by
    funext x
    simp only [Function.comp, lo_area, hi_area, h1, h2]
  rw [this]
  rfl

lemma entryAt_reprot (h : AreasOk L) (h1 : Clear L addr) (h2 : Clear L stop) (prot : Prot) (va : Nat) :
    entryAt (L.map (VmArea.reprot addr stop prot)) va =
      if addr ≤ va ∧ va < stop then (entryAt L va).map ({ · with prot := prot })
      else entryAt L va := by
  rw [entryAt_map (reprot_start addr stop prot) (reprot_stop addr stop prot)]
  unfold entryAt
  rcases hc : cover L va with - | a
  · simp
  obtain ⟨ha, h3, h4⟩ := (cover_eq_some h.tiled).1 hc
  have hiff := inRange_iff h h1 h2 ha h3 h4
  split <;> rename_i hin
  · rw [map_some, VmArea.reprot, if_pos (hiff.2 hin)]
    rfl
  rw [map_some, VmArea.reprot, if_neg (fun hc => hin (hiff.1 hc))]
  rfl

/-- `protect_locked` protects its range, does nothing on an empty one, or
fails and maps the same. -/
lemma protectLocked_spec (addr len : Nat) (prot : Prot) (h : AreasOk st.vm.areas) :
    ((protectLocked env addr len prot st).1 = none ∧ len = 0 ∧ (protectLocked env addr len prot st).2 = st) ∨
    ((protectLocked env addr len prot st).1 = none ∧ len ≠ 0 ∧ addr % 4096 = 0 ∧ addr ≤ rangeEnd addr len ∧
      Protected st.vm (protectLocked env addr len prot st).2.vm addr (rangeEnd addr len) prot) ∨
    ((protectLocked env addr len prot st).1 ≠ none ∧ Cut st.vm (protectLocked env addr len prot st).2.vm) := by
  unfold protectLocked
  by_cases hargs : addr % 4096 ≠ 0 ∨ rangeEnd addr len < addr
  · refine .inr (.inr ?_)
    simp only [rangeEnd] at hargs
    simp only [hargs, if_true]
    exact ⟨some_ne_none _, Cut.refl h⟩
  have hal : addr % 4096 = 0 := by omega
  have hle : addr ≤ rangeEnd addr len := by omega
  obtain ⟨L', mc', hst, hiso, hclear⟩ := rangeIsolate_spec env hal (rangeEnd_aligned addr len) hle h
  have hcheck := protectCheck_none h prot (rangeEnd addr len) (st.vm.areas.length + 1) addr
    (Nat.lt_succ_of_le (length_filter_le _ _))
  simp only [rangeEnd] at hargs hst hclear hcheck
  simp only [hargs, if_false]
  by_cases h0 : len = 0
  · rw [if_pos h0]
    exact .inl ⟨rfl, h0, rfl⟩
  rw [if_neg h0]
  rcases hc : protectCheck st.vm.areas prot (pageAlignUp (wrap (addr + len))) (st.vm.areas.length + 1) addr with - | e
  swap
  · exact .inr (.inr ⟨some_ne_none _, Cut.refl h⟩)
  rcases hr : rangeIsolate env addr (pageAlignUp (wrap (addr + len))) st with ⟨_ | e, st'⟩
  · rw [hr] at hst hclear
    obtain rfl : st' = _ := hst
    obtain ⟨hc1, hc2⟩ := hclear rfl
    have hok := hiso.ok
    refine .inr (.inl ⟨rfl, h0, hal, hle, ?_⟩)
    obtain ⟨hlist, hpm, hlay⟩ := (protectFrom_treats addr (rangeEnd addr len) prot).run
      (fun st a => foldl_keeps (g := fun st : St => st.vm.layout) (protectPage_layout prot) (pages a.start a.stop) st)
      (fun st a ha => foldl_pages (protectPage_pageMap prot) ha st)
      ⟨{ st.vm with areas := L' }, mc'⟩ rfl hok hc1 hc2
    rw [filterMap_eq_map] at hlist
    simp only [rangeEnd] at hlist hlay hpm ⊢
    simp only [areas_shootdown, hlist]
    refine ⟨areasOk_map hok (reprot_start _ _ _) (reprot_stop _ _ _), hcheck hc, ?_, ?_, ?_⟩
    · intro va
      rw [entryAt_reprot hok hc1 hc2, hiso.entry]
    · intro n
      rw [hpm n]
      refine if_congr ⟨And.left, fun hin => ⟨hin, ?_⟩⟩ rfl rfl
      obtain ⟨e, he, -⟩ := hcheck hc _ hin.1 hin.2
      rw [hiso.entry, he]
      exact some_ne_none _
    · exact layout_areas hlay _
  · rw [hr] at hst
    obtain rfl : st' = _ := hst
    exact .inr (.inr ⟨some_ne_none _, hiso, rfl⟩)

end Hermes.L2.Vm
