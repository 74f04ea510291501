import Hermes.L2Mem.VmOps

/-!
# Moving and growing areas

`move_locked` moves page-table entries one by one and, when a page table
cannot be allocated half way, moves those it has moved back again. Both
loops are `shift` with the two ranges exchanged, and `shiftAll_back` says
that the way back undoes the way out.
-/
namespace Hermes.L2.Vm

open Hermes.Intervals Function List

/-! ## Shifting entries -/

/-- Move the entry of page `o + k`, if it holds a frame, to page `w + k`. -/
def shift (o w : Nat) (pm : Nat → Pte) (k : Nat) : Nat → Pte :=
  if (pm (o + k)).frame = 0 then pm
  else update (update pm (w + k) (pm (o + k))) (o + k) Pte.zero

def shiftAll (o w : Nat) (pm : Nat → Pte) (K : Nat) : Nat → Pte := (List.range K).foldl (shift o w) pm

lemma shiftAll_succ (o w : Nat) (pm : Nat → Pte) (K : Nat) :
    shiftAll o w pm (K + 1) = shift o w (shiftAll o w pm K) K := by
  simp [shiftAll, range_succ]

/-- The page ranges `[o, o + K)` and `[w, w + K)` do not meet. -/
def Apart (o w K : Nat) : Prop := o + K ≤ w ∨ w + K ≤ o

variable {o w K s va : Nat} {vm vm' : VmSpace} {L' : List VmArea} {a' : VmArea}

lemma shiftAll_eq (h : Apart o w K) (pm : Nat → Pte) (n : Nat) : shiftAll o w pm K n =
      if w ≤ n ∧ n < w + K then
        if (pm (o + (n - w))).frame = 0 then pm n else pm (o + (n - w))
      else if o ≤ n ∧ n < o + K then if (pm n).frame = 0 then pm n else Pte.zero
      else pm n := by
  induction K generalizing n with
  | zero =>
    rw [if_neg (by omega), if_neg (by omega)]
    rfl
  | succ K ih =>
    have hK : Apart o w K := by unfold Apart at h ⊢; omega
    have ho : shiftAll o w pm K (o + K) = pm (o + K) := by
      rw [ih hK, if_neg (by unfold Apart at h; omega), if_neg (by omega)]
    rw [shiftAll_succ, shift, ho]
    split <;> rename_i hf
    · rw [ih hK]
      by_cases hn : n = w + K
      · subst hn
        rw [if_neg (by omega), if_neg (by unfold Apart at h; omega), if_pos (by omega),
          Nat.add_sub_cancel_left, if_pos hf]
      by_cases hn' : n = o + K
      · subst hn'
        rw [if_neg (by unfold Apart at h; omega), if_neg (by omega),
          if_neg (by unfold Apart at h; omega), if_pos (by omega), if_pos hf]
      · refine if_congr (by omega) rfl (if_congr (by omega) rfl rfl)
    · by_cases hn' : n = o + K
      · subst hn'
        rw [update_self, if_neg (by unfold Apart at h; omega), if_pos (by omega), if_neg hf]
      rw [update_of_ne hn']
      by_cases hn : n = w + K
      · subst hn
        rw [update_self, if_pos (by omega), Nat.add_sub_cancel_left, if_neg hf]
      rw [update_of_ne hn, ih hK]
      exact if_congr (by omega) rfl (if_congr (by omega) rfl rfl)

/-- Moving back what was moved to empty entries restores the page table. -/
lemma shiftAll_back (h : Apart o w K) (pm : Nat → Pte) (hempty : ∀ k, k < K → pm (w + k) = Pte.zero) :
    shiftAll w o (shiftAll o w pm K) K = pm := by
  have h' : Apart w o K := by unfold Apart at h ⊢; omega
  have hz : Pte.zero.frame = 0 := rfl
  funext n
  rw [shiftAll_eq h']
  by_cases hn : o ≤ n ∧ n < o + K
  · have e1 : shiftAll o w pm K (w + (n - o)) =
        if (pm n).frame = 0 then Pte.zero else pm n := by
      rw [shiftAll_eq h, if_pos (by omega), hempty (n - o) (by omega),
        show o + (w + (n - o) - w) = n by omega]
    have e2 : shiftAll o w pm K n = if (pm n).frame = 0 then pm n else Pte.zero := by
      rw [shiftAll_eq h, if_neg (by unfold Apart at h; omega), if_pos hn]
    rw [if_pos hn, e1, e2]
    by_cases hf : (pm n).frame = 0
    · simp only [hf, if_true, hz]
    · simp only [hf, if_false]
  rw [if_neg hn, shiftAll_eq h]
  by_cases hn' : w ≤ n ∧ n < w + K
  · have e := hempty (n - w) (by omega)
    rw [show w + (n - w) = n by omega] at e
    rw [if_pos hn', if_pos hn', e]
    by_cases hf : (pm (o + (n - w))).frame = 0
    · simp only [hf, if_true, hz]
    · simp only [hf, if_false]
  · rw [if_neg hn', if_neg hn', if_neg hn]

/-! ## The loops of `move_locked` -/

lemma pages_zero (K : Nat) : pages 0 (4096 * K) = (List.range K).map (4096 * ·) := by
  unfold pages
  rw [show (4096 * K - 0 + 4095) / 4096 = K by omega]
  simp

lemma same_but_pages {vm'' : VmSpace} (h : vm' = { vm with pageMap := vm'.pageMap })
    (h' : vm'' = { vm' with pageMap := vm''.pageMap }) : vm'' = { vm with pageMap := vm''.pageMap } := by
  rw [h', h]

section

variable (env : Env) {oldAddr newAddr : Nat} (ho : oldAddr % 4096 = 0) (hn : newAddr % 4096 = 0)
include ho hn

lemma moveOut_spec (pm : Nat → Pte) : ∀ (m s : Nat) (st : St),
    st.vm.pageMap = shiftAll (oldAddr / 4096) (newAddr / 4096) pm s →
    ∃ st', st'.vm = { st.vm with pageMap := st'.vm.pageMap } ∧
      ((moveOut env oldAddr newAddr ((List.range' s m).map (4096 * ·)) st = (none, st') ∧
        st'.vm.pageMap = shiftAll (oldAddr / 4096) (newAddr / 4096) pm (s + m)) ∨
      ∃ j, s ≤ j ∧ j < s + m ∧
        moveOut env oldAddr newAddr ((List.range' s m).map (4096 * ·)) st = (some (4096 * j), st') ∧
        st'.vm.pageMap = shiftAll (oldAddr / 4096) (newAddr / 4096) pm j) := by
  intro m
  induction m with
  | zero => exact fun s st h => ⟨st, rfl, .inl ⟨rfl, h⟩⟩
  | succ m ih =>
    intro s st h
    have hold : (oldAddr + 4096 * s) / 4096 = oldAddr / 4096 + s := by omega
    have hnew : (newAddr + 4096 * s) / 4096 = newAddr / 4096 + s := by omega
    rw [List.range'_succ, map_cons]
    simp only [moveOut]
    -- the entry at `s` has no frame, cannot be mapped, or is moved
    split <;> rename_i hf
    · have hs : st.vm.pageMap = shiftAll (oldAddr / 4096) (newAddr / 4096) pm (s + 1) := by
        rw [shiftAll_succ, shift, ← h, if_pos]
        rw [← hold]
        exact hf
      obtain ⟨st', h1, h2 | ⟨j, h3, h4, h5⟩⟩ := ih (s + 1) st hs
      · rw [show s + 1 + m = s + (m + 1) by omega] at h2
        exact ⟨st', h1, .inl h2⟩
      · exact ⟨st', h1, .inr ⟨j, by omega, by omega, h5⟩⟩
    unfold St.mapPageIn
    cases env.tables st.mc.tick with
    | false =>
      exact ⟨{ st with mc.tick := st.mc.tick + 1 }, rfl, .inr ⟨s, le_rfl, by omega, rfl, h⟩⟩
    | true =>
      simp only [if_true]
      generalize hst1 : St.invalidate (oldAddr + 4096 * s) _ = st1
      have hpm : st1.vm.pageMap = shiftAll (oldAddr / 4096) (newAddr / 4096) pm (s + 1) := by
        rw [← hst1, shiftAll_succ, shift, ← h, if_neg (by rw [← hold]; exact hf), ← hold, ← hnew]
        rfl
      have hvm : st1.vm = { st.vm with pageMap := st1.vm.pageMap } := by
        rw [← hst1]
        rfl
      obtain ⟨st', h1, h2 | ⟨j, h3, h4, h5⟩⟩ := ih (s + 1) st1 hpm
      · rw [show s + 1 + m = s + (m + 1) by omega] at h2
        exact ⟨st', same_but_pages hvm h1, .inl h2⟩
      · exact ⟨st', same_but_pages hvm h1, .inr ⟨j, by omega, by omega, h5⟩⟩

lemma moveBack_spec (st : St) : ∀ K,
    (((List.range K).map (4096 * ·)).foldl (moveBack oldAddr newAddr) st).vm = { st.vm with
      pageMap := (((List.range K).map (4096 * ·)).foldl (moveBack oldAddr newAddr) st).vm.pageMap } ∧
    (((List.range K).map (4096 * ·)).foldl (moveBack oldAddr newAddr) st).vm.pageMap =
      shiftAll (newAddr / 4096) (oldAddr / 4096) st.vm.pageMap K := by
  intro K
  induction K with
  | zero => exact ⟨rfl, rfl⟩
  | succ K ih =>
    rw [range_succ, map_append, foldl_append, shiftAll_succ, ← ih.2]
    generalize ((List.range K).map (4096 * ·)).foldl (moveBack oldAddr newAddr) st = st1 at ih ⊢
    have hold : (oldAddr + 4096 * K) / 4096 = oldAddr / 4096 + K := by omega
    have hnew : (newAddr + 4096 * K) / 4096 = newAddr / 4096 + K := by omega
    simp only [map_cons, map_nil, foldl_cons, foldl_nil, moveBack]
    split <;> rename_i hf
    · rw [shift, if_pos (by rw [← hnew]; exact hf)]
      exact ⟨ih.1, rfl⟩
    rw [shift, if_neg (by rw [← hnew]; exact hf), ← hold, ← hnew]
    exact ⟨same_but_pages ih.1 rfl, rfl⟩

end

lemma moveOut_ample {env : Env} (he : Ample env) (oldAddr newAddr : Nat) : ∀ (offs : List Nat) (st : St),
    (moveOut env oldAddr newAddr offs st).1 = none := by
  intro offs
  induction offs with
  | nil => exact fun _ => rfl
  | cons off rest ih =>
    intro st
    unfold moveOut St.mapPageIn
    simp only [he.tables]
    split <;> exact ih _

/-! ## `move_locked` -/

/-- The entry `d` bytes further on. -/
def Entry.shift (e : Entry) (d : Nat) : Entry := { e with offset := wrap (e.offset + d) }

lemma entry_shift {a : VmArea} (h1 : a.start ≤ s) (h2 : s ≤ va) : (a.entry s).shift (va - s) = a.entry va := by
  simp only [VmArea.entry, Entry.shift, Entry.mk.injEq, true_and]
  exact offsetAt_shift h1 h2

/-- What lies in one area counts on from its start. -/
lemma entry_from {L : List VmArea} (h : AreasOk L) {a : VmArea} (ha : a ∈ L) (h1 : a.start ≤ s) (h2 : s ≤ va)
    (h3 : va < a.stop) : entryAt L va = (entryAt L s).map (Entry.shift · (va - s)) := by
  rw [entryAt_of_mem h.tiled ha h1 (by omega), entryAt_of_mem h.tiled ha (by omega) h3, Option.map_some,
    entry_shift h1 h2]

/-- What began at `oldAddr` begins at `newAddr` and goes on there for `newLen` bytes. -/
def EntriesMoved (vm vm' : VmSpace) (oldAddr oldLen newAddr newLen : Nat) : Prop := ∀ va, entryAt vm'.areas va =
    if newAddr ≤ va ∧ va < newAddr + newLen then
      (entryAt vm.areas oldAddr).map (Entry.shift · (va - newAddr))
    else if oldAddr ≤ va ∧ va < oldAddr + oldLen then none
    else entryAt vm.areas va

/-- `[oldAddr, oldAddr + len)` has moved to `newAddr`, and goes on from there
to `newAddr + newLen`. -/
structure Moved (vm vm' : VmSpace) (oldAddr len newAddr newLen : Nat) : Prop where
  ok : AreasOk vm'.areas
  entry : ∀ va, entryAt vm'.areas va =
    if newAddr ≤ va ∧ va < newAddr + newLen then
      (entryAt vm.areas oldAddr).map (Entry.shift · (va - newAddr))
    else if oldAddr ≤ va ∧ va < oldAddr + len then none
    else entryAt vm.areas va
  pageMap : vm'.pageMap = shiftAll (oldAddr / 4096) (newAddr / 4096) vm.pageMap (len / 4096)
  rest : vm'.layout = { vm with areas := vm'.areas }.layout

variable {L : List VmArea} {a : VmArea} {e : Nat}

lemma areasOk_erase (h : AreasOk L) (a : VmArea) : AreasOk (L.erase a) := h.sublist erase_sublist

lemma entryAt_erase (h : AreasOk L) (ha : a ∈ L) (va : Nat) :
    entryAt (L.erase a) va = if a.start ≤ va ∧ va < a.stop then none else entryAt L va := by
  have he := areasOk_erase h a
  split
  · rw [entryAt_eq_none]
    intro b hb hv
    obtain ⟨hne, hm⟩ := (h.tiled.nodup.mem_erase_iff).1 hb
    have := h.tiled.apart hm ha hne
    simp only [lo_area, hi_area] at this
    omega
  · rename_i hin
    refine entryAt_congr he.tiled h.tiled fun b h1 h2 => ?_
    rw [h.tiled.nodup.mem_erase_iff, and_iff_right_iff_imp]
    rintro - rfl
    exact hin ⟨h1, h2⟩

lemma Isolated.freeIn (h : Isolated L L') (hf : FreeIn L s e) : FreeIn L' s e := by
  intro x hx
  obtain ⟨y, hy, h1, h2⟩ := h.within x hx
  rcases hf y hy with h3 | h3 <;> omega

/-- After isolating a range inside one area, one piece is the range. -/
lemma isolated_piece (hL : AreasOk L) (h : Isolated L L') (hc1 : Clear L' s) (hc2 : Clear L' e)
    (hst : ∀ x ∈ L', x.stop = s ∨ x.stop = e ∨ ∃ y ∈ L, x.stop = y.stop) (ha : a ∈ L) (h1 : a.start ≤ s)
    (h2 : e ≤ a.stop) (hlt : s < e) : ∃ src, vmFind L' s = some src ∧ src.start = s ∧ src.stop = e := by
  obtain ⟨src, hm, h3, h4, h5⟩ := isolated_at hL h hst ha h1 (by omega)
  have h6 := hc1 src hm
  have h7 := hc2 src hm (by omega)
  exact ⟨src, (vmFind_eq_some h.ok.tiled).2 ⟨hm, h3, h4⟩, by omega, by omega⟩

/-- `move_locked` moves the range, or fails for want of memory with areas split at most. -/
lemma moveLocked_spec (env : Env) {oldAddr len newAddr newLen : Nat} {st : St}
    (h : AreasOk st.vm.areas) (ho : oldAddr % 4096 = 0) (hl : len % 4096 = 0) (hpos : 0 < len)
    (hsrc : ∃ a ∈ st.vm.areas, a.start ≤ oldAddr ∧ oldAddr + len ≤ a.stop)
    (hn : newAddr % 4096 = 0) (hnl : newLen % 4096 = 0) (hle : len ≤ newLen)
    (hr : userRange newAddr (newAddr + newLen) = true)
    (hfree : FreeIn st.vm.areas newAddr (newAddr + newLen))
    (hempty : ∀ n, newAddr ≤ n * 4096 → n * 4096 < newAddr + newLen → st.vm.pageMap n = Pte.zero) :
    (∃ st', moveLocked env oldAddr len newAddr newLen st = (none, st') ∧
      Moved st.vm st'.vm oldAddr len newAddr newLen) ∨
    ∃ e st', moveLocked env oldAddr len newAddr newLen st = (some e, st') ∧ Cut st.vm st'.vm ∧ ¬ Ample env := by
  obtain ⟨a, ha, ha1, ha2⟩ := hsrc
  have halim : a.stop ≤ 0x800000000000 := (h.area a ha).limit
  obtain ⟨hr1, hr2, hr3⟩ := userRange_iff.1 hr
  have hw : wrap (oldAddr + len) = oldAddr + len := wrap_of_lt (by omega)
  have hw' : wrap (newAddr + newLen) = newAddr + newLen := wrap_of_lt (by omega)
  obtain ⟨L', mc', hst, hiso, hclear⟩ :=
    rangeIsolate_spec env ho (show (oldAddr + len) % 4096 = 0 by omega) (by omega) h
  have hstops := @rangeIsolate_stops env oldAddr (oldAddr + len) st
  have hamp : Ample env → (rangeIsolate env oldAddr (oldAddr + len) st).1 = none :=
    fun he => isolateFrom_ample env he _ _ _ _ _
  have hapart : Apart (oldAddr / 4096) (newAddr / 4096) (len / 4096) := by
    unfold Apart
    rcases hfree a ha with h1 | h1 <;> omega
  unfold moveLocked
  rw [hw, hw']
  rcases hri : rangeIsolate env oldAddr (oldAddr + len) st with ⟨_ | e, st'⟩
  swap
  · rw [hri] at hst hamp
    obtain rfl : st' = _ := hst
    exact .inr ⟨e, _, rfl, ⟨hiso, rfl⟩, fun he => by cases hamp he⟩
  rw [hri] at hst hclear hstops
  obtain rfl : st' = _ := hst
  obtain ⟨hc1, hc2⟩ := hclear rfl
  obtain ⟨src, hfind, hs1, hs2⟩ := isolated_piece h hiso hc1 hc2 hstops ha ha1 ha2 (by omega)
  have hmem := ((vmFind_eq_some hiso.ok.tiled).1 hfind).1
  simp only [hfind]
  unfold areaNew Mach.malloc
  cases hm : env.malloc mc'.tick with
  | false => exact .inr ⟨_, _, rfl, ⟨hiso, rfl⟩, fun he => by cases (he.malloc _).symm.trans hm⟩
  | true =>
    have hpages : pages 0 len = (List.range' 0 (len / 4096)).map (4096 * ·) := by
      rw [← range_eq_range', ← pages_zero, show 4096 * (len / 4096) = len by omega]
    simp only [hpages]
    obtain ⟨st', hvm, ⟨hmo, hpm⟩ | ⟨j, -, hj, hmo, hpm⟩⟩ := moveOut_spec env ho hn st.vm.pageMap
      (len / 4096) 0 ⟨{ st.vm with areas := L' }, { mc' with tick := mc'.tick + 1 }⟩ rfl
    · -- every entry moved: the area follows
      rw [hmo]
      have hareas : st'.vm.areas = L' := congrArg VmSpace.areas hvm
      refine .inl ⟨_, rfl, ?_⟩
      generalize hdst : (⟨newAddr, newAddr + newLen, src.prot, src.flags, src.file, src.offset⟩ : VmArea) = dst
      have hd : dst.start = newAddr ∧ dst.stop = newAddr + newLen := by subst hdst; exact ⟨rfl, rfl⟩
      have hdok : AreaOk dst := by
        subst hdst
        exact ⟨hr1, hr2, hn, by show (newAddr + newLen) % 4096 = 0; omega⟩
      have hfree' : FreeIn (L'.erase src) dst.start dst.stop := by
        rw [hd.1, hd.2]
        exact fun x hx => hiso.freeIn hfree x (mem_of_mem_erase hx)
      have hdlt : dst.start < dst.stop := by omega
      refine ⟨?_, ?_, ?_, ?_⟩
      · show AreasOk (areaInsert dst (st'.vm.areas.erase src))
        rw [hareas]
        exact areasOk_insert (areasOk_erase hiso.ok src) hdok hdlt hfree'
      · intro va
        show entryAt (areaInsert dst (st'.vm.areas.erase src)) va = _
        rw [hareas, entryAt_insert (areasOk_erase hiso.ok src) hdok hdlt hfree',
          entryAt_erase hiso.ok hmem, hiso.entry, hd.1, hd.2, hs1, hs2]
        refine if_congr Iff.rfl ?_ rfl
        rw [← hiso.entry, entryAt_of_mem hiso.ok.tiled hmem (by omega) (by omega), Option.map_some]
        subst hdst
        simp only [VmArea.entry, Entry.shift, VmArea.offsetAt, hs1, Nat.sub_self, Nat.add_zero,
          Option.some.injEq, Entry.mk.injEq, true_and]
        unfold wrap
        omega
      · show st'.vm.pageMap = _
        rw [hpm, zero_add]
      · have := congrArg (fun v : VmSpace =>
          { v with areas := areaInsert dst (st'.vm.areas.erase src) }.layout) hvm
        exact this
    · -- an entry could not be mapped: the way back
      rw [hmo]
      have hback := moveBack_spec ho hn st' j
      refine .inr ⟨_, _, rfl, ?_, fun he => by cases (congrArg Prod.fst hmo).symm.trans (moveOut_ample he _ _ _ _)⟩
      simp only [pages_zero]
      have hz : ∀ k, k < j → st.vm.pageMap (newAddr / 4096 + k) = Pte.zero := by
        intro k hk
        exact hempty _ (by omega) (by omega)
      have hap : Apart (oldAddr / 4096) (newAddr / 4096) j := by
        unfold Apart at hapart ⊢
        omega
      have hpm' := hback.2
      rw [hpm, shiftAll_back hap _ hz] at hpm'
      generalize ((List.range j).map (4096 * ·)).foldl (moveBack oldAddr newAddr) st' = st2 at hback hpm'
      have hvm2 : st2.vm = { st.vm with areas := L' } := by rw [hback.1, hpm', hvm]
      show Cut st.vm st2.vm
      rw [hvm2]
      exact ⟨hiso, rfl⟩

/-! ## Growing in place -/

/-- The area that ended at `last` goes on to `stop`. -/
structure Grown (vm vm' : VmSpace) (last stop : Nat) : Prop where
  ok : AreasOk vm'.areas
  entry : ∃ a ∈ vm.areas, a.stop = last ∧ ∀ va, entryAt vm'.areas va =
    if last ≤ va ∧ va < stop then some (a.entry va) else entryAt vm.areas va
  free : FreeIn vm.areas last stop
  pageMap : vm'.pageMap = vm.pageMap

lemma mem_areaSet {x : VmArea} (ha : a ∈ L) : x ∈ areaSet L a a' ↔ x = a' ∨ (x ∈ L ∧ x ≠ a) := by
  unfold areaSet
  rw [mem_map]
  constructor
  · rintro ⟨y, hy, rfl⟩
    split
    · exact .inl rfl
    rename_i hya
    exact .inr ⟨hy, hya⟩
  · rintro (rfl | ⟨hx, hne⟩)
    · exact ⟨a, ha, if_pos rfl⟩
    · exact ⟨x, hx, if_neg hne⟩

lemma areaSet_of_notMem (h : a ∉ L) : areaSet L a a' = L := by
  conv_rhs => rw [← map_id' L]
  apply map_congr_left
  intro x hx
  rw [if_neg]
  rintro rfl
  exact h hx

lemma areasOk_grow (h : AreasOk L) (ha : a ∈ L) (he : e % 4096 = 0) (hlt : a.stop < e)
    (hlim : e ≤ userAddrLimit) (hfree : FreeIn L a.stop e) :
    AreasOk (areaSet L a { a with stop := e }) := by
  induction L with
  | nil => cases ha
  | cons x L ih =>
    obtain ⟨hok, hp, hrest, hrok⟩ := areasOk_cons.1 h
    have hfr : FreeIn L a.stop e := fun y hy => hfree y (by simp [hy])
    have hset : areaSet (x :: L) a { a with stop := e } =
        (if x = a then { a with stop := e } else x) :: areaSet L a { a with stop := e } := rfl
    rw [hset]
    by_cases hxa : x = a
    · subst hxa
      have hno : x ∉ L := fun hc => by
        have := hrest x hc
        omega
      rw [if_pos rfl, areaSet_of_notMem hno]
      refine areasOk_cons.2 ⟨⟨hok.min, hlim, hok.start, he⟩, hp.trans hlt, ?_, hrok⟩
      intro y hy
      show e ≤ y.start
      have h1 := hrest y hy
      have h2 := hrok.lt hy
      rcases hfr y hy with h3 | h3 <;> omega
    · rw [if_neg hxa]
      have haL : a ∈ L := by
        rcases mem_cons.1 ha with rfl | ha
        · exact absurd rfl hxa
        · exact ha
      refine areasOk_cons.2 ⟨hok, hp, ?_, ih hrok haL hfr⟩
      intro y hy
      rcases (mem_areaSet haL).1 hy with rfl | ⟨hy, -⟩
      · exact hrest a haL
      · exact hrest y hy

/-- An area that takes the place of one of its own or smaller bounds. -/
lemma entryAt_areaSet {a' : VmArea} (h : AreasOk L) (h' : AreasOk (areaSet L a a')) (ha : a ∈ L)
    (hs : a'.start ≤ a.start) (he : a.stop ≤ a'.stop) (va : Nat) :
    entryAt (areaSet L a a') va = if a'.start ≤ va ∧ va < a'.stop then some (a'.entry va) else entryAt L va := by
  by_cases hin : a'.start ≤ va ∧ va < a'.stop
  · rw [if_pos hin]
    exact entryAt_of_mem h'.tiled ((mem_areaSet ha).2 (.inl rfl)) hin.1 hin.2
  rw [if_neg hin]
  refine entryAt_congr h'.tiled h.tiled fun b h1 h2 => (mem_areaSet ha).trans ?_
  constructor
  · rintro (rfl | ⟨hb, -⟩)
    · exact absurd ⟨h1, h2⟩ hin
    · exact hb
  refine fun hb => .inr ⟨hb, ?_⟩
  rintro rfl
  exact hin ⟨by omega, by omega⟩

lemma areasOk_areaSet (h : AreasOk L) (hs : a'.start = a.start) (he : a'.stop = a.stop) :
    AreasOk (areaSet L a a') := by
  refine areasOk_map h (fun x => ?_) fun x => ?_
  · split
    · rw [hs, ‹x = a›]
    · rfl
  split
  · rw [he, ‹x = a›]
  · rfl

lemma entryAt_attach (h : AreasOk L) (ha : a ∈ L) (file offset va : Nat) :
    entryAt (areaSet L a { a with file := file, offset := offset }) va =
      if a.start ≤ va ∧ va < a.stop then some ({ a with file := file, offset := offset }.entry va) else entryAt L va :=
  @entryAt_areaSet L a { a with file := file, offset := offset } h (areasOk_areaSet h rfl rfl) ha le_rfl
    le_rfl va

lemma entryAt_grow (h : AreasOk L) (ha : a ∈ L) (he : e % 4096 = 0) (hlt : a.stop < e)
    (hlim : e ≤ userAddrLimit) (hfree : FreeIn L a.stop e) (va : Nat) :
    entryAt (areaSet L a { a with stop := e }) va =
      if a.stop ≤ va ∧ va < e then some (a.entry va) else entryAt L va := by
  have hp := h.lt ha
  rw [entryAt_areaSet h (areasOk_grow h ha he hlt hlim hfree) ha le_rfl (le_of_lt hlt)]
  dsimp only
  by_cases hold : a.start ≤ va ∧ va < a.stop
  · rw [if_pos (by omega), if_neg (by omega), entryAt_of_mem h.tiled ha hold.1 hold.2]
    rfl
  · exact if_congr (by omega) rfl rfl

/-- The area that ends at `last`, extended over free space. -/
lemma grown_areaSet (h : AreasOk vm.areas) (ha : a ∈ vm.areas) (he : e % 4096 = 0) (hr : userRange a.stop e = true)
    (hfree : vmRangeFree vm.areas a.stop e = true) :
    Grown vm { vm with areas := areaSet vm.areas a { a with stop := e } } a.stop e := by
  obtain ⟨-, h1, h2⟩ := userRange_iff.1 hr
  have hf := (vmRangeFree_iff h.tiled).1 hfree
  exact ⟨areasOk_grow h ha he h2 h1 hf, ⟨a, ha, rfl, entryAt_grow h ha he h2 h1 hf⟩, hf, rfl⟩

/-- An area that grows at its end goes on counting. -/
lemma Grown.moved {last stop : Nat} (hok : AreasOk vm.areas) (h : Grown vm vm' last stop) (ha : a ∈ vm.areas)
    (h1 : a.start ≤ s) (h2 : s < last) (h3 : last ≤ a.stop) (h4 : last ≤ stop) :
    EntriesMoved vm vm' s (last - s) s (stop - s) := by
  intro va
  obtain ⟨b, hb, hb1, hbe⟩ := h.entry
  have hbp := hok.lt hb
  -- the area that ends at `last` is the one that holds the range
  obtain rfl := hok.eq_of_overlap hb ha (by omega) (by omega)
  rw [hbe]
  by_cases hin : last ≤ va ∧ va < stop
  · rw [if_pos hin, if_pos (by omega), entryAt_of_mem hok.tiled ha h1 (by omega), Option.map_some,
      entry_shift h1 (by omega)]
  rw [if_neg hin]
  split
  · rename_i hin'
    exact entry_from hok ha h1 hin'.1 (by omega)
  · rw [if_neg (by omega)]

end Hermes.L2.Vm
