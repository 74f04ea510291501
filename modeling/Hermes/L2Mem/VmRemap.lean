import Hermes.L2Mem.VmMove

/-!
# Remapping and the program break

The calls built from the others: `remap_locked` shrinks, grows or moves,
`remap_fixed_locked` unmaps the destination first, and `brk_locked` grows or
shrinks the heap. Their specifications are assembled from those of the
parts; `SpaceOk` is the invariant that the parts need and keep.
-/
namespace Hermes.L2.Vm

open Hermes.Intervals Option

/-! ## The invariant of an address space -/

structure PteOk (p : Pte) : Prop where
  zero : p.frame = 0 → p = Pte.zero
  user : p.frame ≠ 0 → p.user = true
  cow : p.writable = true → p.cow = false

/-- The areas keep their shape; an entry that holds a frame lies in an area,
and one that is writable in an area that may be written. -/
structure SpaceOk (vm : VmSpace) : Prop where
  areas : AreasOk vm.areas
  base : vm.mmapBase = userMmapBase
  noWrite : ∀ va e, entryAt vm.areas va = some e → e.flags.noWrite = true → e.prot.write = false
  pte : ∀ n, PteOk (vm.pageMap n)
  inArea : ∀ n, (vm.pageMap n).frame ≠ 0 → ∃ e, entryAt vm.areas (n * 4096) = some e ∧
    ((vm.pageMap n).writable = true → e.prot.write = true)

lemma pteOk_zero : PteOk Pte.zero := ⟨fun _ => rfl, fun h => absurd rfl h, nofun⟩

variable {p : Pte} {vm vm' : VmSpace} {stop oldAddr : Nat} {prot : Prot}

lemma PteOk.cleared (h : PteOk p) : Pte.cleared p = Pte.zero := by
  unfold Pte.cleared
  by_cases hf : p.frame = 0
  · rw [if_pos (.inr hf), h.zero hf]
  · simp [h.user hf, hf]

lemma SpaceOk.empty (h : SpaceOk vm) {n : Nat} (hn : entryAt vm.areas (n * 4096) = none) :
    vm.pageMap n = Pte.zero := by
  apply (h.pte n).zero
  by_contra hf
  obtain ⟨e, he, -⟩ := h.inArea n hf
  rw [hn] at he
  cases he

lemma base_of_layout (h : vm'.layout = { vm with areas := vm'.areas }.layout) : vm'.mmapBase = vm.mmapBase := by
  have := congrArg VmSpace.mmapBase h
  exact this

lemma Cut.spaceOk (h : SpaceOk vm) (hc : Cut vm vm') : SpaceOk vm' := by
  have hpm : vm'.pageMap = vm.pageMap := by rw [hc.rest]
  refine ⟨hc.areas.ok, by rw [hc.rest]; exact h.base, ?_, ?_, ?_⟩
  · intro va e he
    rw [hc.areas.entry] at he
    exact h.noWrite va e he
  · rw [hpm]
    exact h.pte
  rw [hpm]
  intro n hf
  rw [hc.areas.entry]
  exact h.inArea n hf

/-- Clearing the entries of a range and mapping it anew, or not at all. -/
lemma SpaceOk.cleared {lo : Nat} (h : SpaceOk vm) (hok : AreasOk vm'.areas)
    (hrest : vm'.layout = { vm with areas := vm'.areas }.layout)
    (hpm : ∀ n, vm'.pageMap n =
      if (lo ≤ n * 4096 ∧ n * 4096 < stop) ∧ entryAt vm.areas (n * 4096) ≠ none
      then Pte.cleared (vm.pageMap n) else vm.pageMap n) {f : Nat → Option Entry}
    (hent : ∀ va, entryAt vm'.areas va = if lo ≤ va ∧ va < stop then f va else entryAt vm.areas va)
    (hf : ∀ va e, f va = some e → e.flags.noWrite = true → e.prot.write = false) : SpaceOk vm' := by
  refine ⟨hok, (base_of_layout hrest).trans h.base, ?_, ?_, ?_⟩
  · intro va e he
    rw [hent] at he
    by_cases hin : lo ≤ va ∧ va < stop
    · rw [if_pos hin] at he
      exact hf va e he
    rw [if_neg hin] at he
    exact h.noWrite va e he
  · intro n
    rw [hpm, (h.pte n).cleared]
    split
    · exact pteOk_zero
    · exact h.pte n
  intro n
  rw [hpm, (h.pte n).cleared, hent]
  by_cases hin : lo ≤ n * 4096 ∧ n * 4096 < stop
  · by_cases he : entryAt vm.areas (n * 4096) = none
    · rw [if_neg (fun hc => hc.2 he), h.empty he]
      exact fun hf => absurd rfl hf
    rw [if_pos ⟨hin, he⟩]
    exact fun hf => absurd rfl hf
  · rw [if_neg (fun hc => hin hc.1), if_neg hin]
    exact h.inArea n

variable {addr newAddr newLen oldLen : Nat} {st : St} {r : Except Errno Nat × St}

lemma Unmapped.spaceOk (h : SpaceOk vm) (hu : Unmapped vm vm' addr stop) : SpaceOk vm' :=
  h.cleared hu.ok hu.rest hu.pageMap hu.entry nofun

lemma Mapped.spaceOk {start : Nat} {flags : AreaFlags} (h : SpaceOk vm) (hm : Mapped vm vm' start stop prot flags)
    (hnw : flags.noWrite = true → prot.write = false) : SpaceOk vm' := by
  refine h.cleared hm.ok hm.rest hm.pageMap hm.entry ?_
  rintro va e he
  obtain rfl := some_inj.1 he
  exact hnw

lemma pteOk_withProt (h : p.frame ≠ 0) (prot : Prot) : PteOk (pteWithProt p prot) := by
  refine ⟨fun hf => absurd hf h, fun _ => ?_, ?_⟩
  · show (pteFlags prot).user = true
    unfold pteFlags
    split <;> rfl
  intro hw
  change ((pteFlags prot).writable && !p.cow) = true at hw
  simp only [Bool.and_eq_true, Bool.not_eq_true'] at hw
  exact hw.2

lemma write_of_withProt (h : (pteWithProt p prot).writable = true) : prot.write = true := by
  change ((pteFlags prot).writable && !p.cow) = true at h
  rw [Bool.and_eq_true] at h
  unfold pteFlags at h
  by_cases hn : prot = Prot.none
  · rw [if_pos hn] at h
    exact absurd h.1 Bool.false_ne_true
  rw [if_neg hn] at h
  exact h.1

lemma Protected.spaceOk (h : SpaceOk vm) (hp : Protected vm vm' addr stop prot) : SpaceOk vm' := by
  refine ⟨hp.ok, (base_of_layout hp.rest).trans h.base, ?_, ?_, ?_⟩
  · intro va e he
    rw [hp.entry] at he
    by_cases hin : addr ≤ va ∧ va < stop
    · obtain ⟨e', he', hnw⟩ := hp.mapped va hin.1 hin.2
      rw [if_pos hin, he'] at he
      obtain rfl := some_inj.1 he
      intro hf
      rwa [hf, Bool.and_true] at hnw
    · rw [if_neg hin] at he
      exact h.noWrite va e he
  · intro n
    rw [hp.pageMap]
    split
    · unfold Pte.reprot
      split
      · exact h.pte n
      · exact pteOk_withProt ‹_› prot
    · exact h.pte n
  intro n
  rw [hp.pageMap, hp.entry]
  by_cases hin : addr ≤ n * 4096 ∧ n * 4096 < stop
  · rw [if_pos hin, if_pos hin]
    intro _
    obtain ⟨e', he', -⟩ := hp.mapped _ hin.1 hin.2
    refine ⟨_, by rw [he']; rfl, ?_⟩
    unfold Pte.reprot
    by_cases hf : (vm.pageMap n).frame = 0
    · rw [(h.pte n).zero hf]
      exact nofun
    rw [if_neg hf]
    exact write_of_withProt
  · rw [if_neg hin, if_neg hin]
    exact h.inArea n

lemma Grown.spaceOk {last : Nat} (h : SpaceOk vm) (hg : Grown vm vm' last stop)
    (hb : vm'.mmapBase = vm.mmapBase) : SpaceOk vm' := by
  obtain ⟨a, ha, hlast, hent⟩ := hg.entry
  have hp := h.areas.lt ha
  refine ⟨hg.ok, hb.trans h.base, ?_, ?_, ?_⟩
  · intro va e he
    rw [hent] at he
    by_cases hin : last ≤ va ∧ va < stop
    · rw [if_pos hin] at he
      obtain rfl := some_inj.1 he
      have := h.noWrite a.start (a.entry a.start) (entryAt_of_mem h.areas.tiled ha le_rfl hp)
      exact this
    · rw [if_neg hin] at he
      exact h.noWrite va e he
  · rw [hg.pageMap]
    exact h.pte
  · intro n
    rw [hg.pageMap, hent]
    by_cases hin : last ≤ n * 4096 ∧ n * 4096 < stop
    · rw [h.empty (hg.free.entry hin.1 hin.2)]
      exact fun hf => absurd rfl hf
    rw [if_neg hin]
    exact h.inArea n

lemma Moved.spaceOk {len : Nat} (h : SpaceOk vm) (hm : Moved vm vm' oldAddr len newAddr newLen)
    (ho : oldAddr % 4096 = 0) (hl : len % 4096 = 0) (hn : newAddr % 4096 = 0) (hle : len ≤ newLen)
    (hsrc : ∃ a ∈ vm.areas, a.start ≤ oldAddr ∧ oldAddr + len ≤ a.stop) (hpos : 0 < len)
    (hfree : FreeIn vm.areas newAddr (newAddr + newLen)) : SpaceOk vm' := by
  obtain ⟨a, ha, ha1, ha2⟩ := hsrc
  have hap : Apart (oldAddr / 4096) (newAddr / 4096) (len / 4096) := by
    unfold Apart
    rcases hfree a ha with h1 | h1 <;> omega
  have hent : ∀ va, oldAddr ≤ va → va < oldAddr + len → entryAt vm.areas va = some (a.entry va) :=
    fun va h1 h2 => entryAt_of_mem h.areas.tiled ha (by omega) (by omega)
  have hnone : ∀ va, newAddr ≤ va → va < newAddr + newLen → entryAt vm.areas va = none :=
    fun va h1 h2 => hfree.entry h1 h2
  refine ⟨hm.ok, (base_of_layout hm.rest).trans h.base, ?_, ?_, ?_⟩
  · intro va e he
    rw [hm.entry] at he
    by_cases hin : newAddr ≤ va ∧ va < newAddr + newLen
    · rw [if_pos hin, hent oldAddr le_rfl (by omega)] at he
      obtain rfl := some_inj.1 he
      have := h.noWrite oldAddr (a.entry oldAddr) (hent oldAddr le_rfl (by omega))
      exact this
    rw [if_neg hin] at he
    by_cases hold : oldAddr ≤ va ∧ va < oldAddr + len
    · rw [if_pos hold] at he
      cases he
    rw [if_neg hold] at he
    exact h.noWrite va e he
  · intro n
    rw [hm.pageMap, shiftAll_eq hap]
    split
    · split
      · exact h.pte n
      · exact h.pte _
    split
    · split
      · exact h.pte n
      · exact pteOk_zero
    · exact h.pte n
  intro n
  rw [hm.pageMap, shiftAll_eq hap, hm.entry]
  by_cases hin : newAddr ≤ n * 4096 ∧ n * 4096 < newAddr + newLen
  · rw [if_pos hin, hent oldAddr le_rfl (by omega)]
    by_cases hk : newAddr / 4096 ≤ n ∧ n < newAddr / 4096 + len / 4096
    · rw [if_pos hk]
      by_cases hf : (vm.pageMap (oldAddr / 4096 + (n - newAddr / 4096))).frame = 0
      · rw [if_pos hf, h.empty (hnone _ hin.1 hin.2)]
        exact fun hf => absurd rfl hf
      rw [if_neg hf]
      intro _
      refine ⟨_, rfl, ?_⟩
      -- the entry came from a page of the same area
      obtain ⟨e, he, hw⟩ := h.inArea _ hf
      rw [hent _ (by omega) (by omega)] at he
      obtain rfl := some_inj.1 he
      exact hw
    · rw [if_neg hk, if_neg, h.empty (hnone _ hin.1 hin.2)]
      · exact fun hf => absurd rfl hf
      · rcases hfree a ha with h1 | h1 <;> omega
  · rw [if_neg hin, if_neg (by omega)]
    by_cases hold : oldAddr ≤ n * 4096 ∧ n * 4096 < oldAddr + len
    · rw [if_pos (by omega), if_pos hold]
      split
      · rename_i hf
        exact fun hc => absurd hf hc
      · exact fun hc => absurd rfl hc
    · rw [if_neg (by omega), if_neg hold]
      exact h.inArea n

/-! ## `remap_locked` -/

/-- How `remap_locked` can end, for rounded lengths: an error that maps
nothing differently; the tail cut off; the area grown in place; or moved to
free space. -/
def RemapOutcome (vm : VmSpace) (oldAddr oldLen newLen : Nat) (r : Except Errno Nat × St) : Prop :=
  (∃ e, r.1 = .error e ∧ Cut vm r.2.vm) ∨
  ((oldAddr % 4096 = 0 ∧ 0 < oldLen ∧ 0 < newLen ∧ ∃ a ∈ vm.areas, a.start ≤ oldAddr ∧ oldAddr + oldLen ≤ a.stop) ∧
    ((r.1 = .ok oldAddr ∧ newLen ≤ oldLen ∧ Unmapped vm r.2.vm (oldAddr + newLen) (oldAddr + oldLen)) ∨
      (r.1 = .ok oldAddr ∧ oldLen < newLen ∧ Grown vm r.2.vm (oldAddr + oldLen) (oldAddr + newLen) ∧
        r.2.vm = { vm with areas := r.2.vm.areas }) ∨
      (∃ new, r.1 = .ok new ∧ oldLen < newLen ∧ new % 4096 = 0 ∧
        userRange new (new + newLen) = true ∧ FreeIn vm.areas new (new + newLen) ∧
        Moved vm r.2.vm oldAddr oldLen new newLen)))

lemma unmapped_refl (h : AreasOk vm.areas) (a : Nat) : Unmapped vm vm a a := by
  refine ⟨h, ?_, ?_, rfl, fun b hb s e h1 _ h2 _ => ⟨b, hb, h1, h2⟩⟩
  · intro va
    rw [if_neg (by omega)]
  intro n
  rw [if_neg (by omega)]

/-- Entries in a free range are zero. -/
lemma SpaceOk.empty_of_free (h : SpaceOk vm) {s e : Nat} (hf : FreeIn vm.areas s e) :
    ∀ n, s ≤ n * 4096 → n * 4096 < e → vm.pageMap n = Pte.zero :=
  fun _ h1 h2 => h.empty (hf.entry h1 h2)

lemma remapLocked_spec (env : Env) (oldAddr oldLen newLen : Nat) (mayMove : Bool) (h : SpaceOk st.vm)
    (hw : remapSearches st.vm oldAddr (pageAlignUp oldLen) (pageAlignUp newLen) mayMove = true →
      gapCandidate st.vm (pageAlignUp newLen) + pageAlignUp newLen < 2 ^ 64) :
    RemapOutcome st.vm oldAddr (pageAlignUp oldLen) (pageAlignUp newLen)
      (remapLocked env oldAddr oldLen newLen mayMove st) := by
  have hol := pageAlignUp_aligned oldLen
  have hnl := pageAlignUp_aligned newLen
  have holt := pageAlignUp_lt oldLen
  have hnlt := pageAlignUp_lt newLen
  unfold remapLocked
  generalize pageAlignUp oldLen = ol at hw hol holt ⊢
  generalize pageAlignUp newLen = nl at hw hnl hnlt ⊢
  by_cases hargs : oldAddr % 4096 ≠ 0 ∨ ol = 0 ∨ nl = 0 ∨ wrap (oldAddr + ol) < oldAddr
  · simp only [hargs, if_true]
    exact .inl ⟨_, rfl, Cut.refl h.areas⟩
  simp only [hargs, if_false]
  have ho : oldAddr % 4096 = 0 := by omega
  rcases hfind : vmFind st.vm.areas oldAddr with - | a
  · exact .inl ⟨_, rfl, Cut.refl h.areas⟩
  obtain ⟨ha, ha1, ha2⟩ := (vmFind_eq_some h.areas.tiled).1 hfind
  have halim : a.stop ≤ 0x800000000000 := (h.areas.area a ha).limit
  have hamin : 0x40000000 ≤ a.start := (h.areas.area a ha).min
  simp only []
  by_cases hin : a.stop < wrap (oldAddr + ol)
  · rw [if_pos hin]
    exact .inl ⟨_, rfl, Cut.refl h.areas⟩
  have hend : wrap (oldAddr + ol) = oldAddr + ol := by
    unfold wrap at hargs hin ⊢
    omega
  rw [hend] at hin ⊢
  have hpre : oldAddr % 4096 = 0 ∧ 0 < ol ∧ 0 < nl ∧ ∃ a ∈ st.vm.areas, a.start ≤ oldAddr ∧ oldAddr + ol ≤ a.stop :=
    ⟨ho, by omega, by omega, a, ha, ha1, by omega⟩
  rw [if_neg hin]
  by_cases hshrink : nl ≤ ol
  · rw [if_pos hshrink]
    by_cases hlt : nl < ol
    · rw [if_pos hlt]
      have hre : rangeEnd (oldAddr + nl) (ol - nl) = oldAddr + ol := by
        rw [rangeEnd_of_aligned (by omega) (by omega) (by omega)]
        omega
      rcases unmapLocked_spec env (oldAddr + nl) (ol - nl) h.areas with ⟨st', hu, -, -, -, hun⟩ | ⟨e, st', hu, hcut, -⟩
      · rw [hre] at hun
        rw [hu]
        exact .inr ⟨hpre, .inl ⟨rfl, hshrink, hun⟩⟩
      · rw [hu]
        exact .inl ⟨e, rfl, hcut⟩
    · rw [if_neg hlt]
      obtain rfl : nl = ol := by omega
      exact .inr ⟨hpre, .inl ⟨rfl, le_rfl, unmapped_refl h.areas _⟩⟩
  rw [if_neg hshrink]
  by_cases hplace : oldAddr + ol = a.stop ∧ userRange oldAddr (wrap (oldAddr + nl)) = true ∧
      vmRangeFree st.vm.areas (oldAddr + ol) (wrap (oldAddr + nl)) = true
  · rw [if_pos hplace]
    obtain ⟨h1, h2, h3⟩ := hplace
    have hnw := userRange_wrap hnlt h2
    rw [hnw] at h2 h3 ⊢
    obtain ⟨h4, h5, h6⟩ := userRange_iff.1 h2
    rw [h1] at h3
    have hg := grown_areaSet h.areas ha (e := oldAddr + nl) (by omega) (userRange_iff.2 ⟨by omega, h5, by omega⟩) h3
    rw [← h1] at hg
    exact .inr ⟨hpre, .inr (.inl ⟨rfl, by omega, hg, rfl⟩)⟩
  rw [if_neg hplace]
  by_cases hmm : mayMove = false
  · rw [if_pos hmm]
    exact .inl ⟨_, rfl, Cut.refl h.areas⟩
  rw [if_neg hmm]
  by_cases h0 : findGap st.vm nl = 0
  · rw [if_pos h0]
    exact .inl ⟨_, rfl, Cut.refl h.areas⟩
  rw [if_neg h0]
  have hs : remapSearches st.vm oldAddr ol nl mayMove = true := by
    simp only [remapSearches, hfind, Option.any_some, hend, Bool.and_eq_true, Bool.not_eq_true', decide_eq_true_iff,
      ← Bool.not_eq_true, and_assoc]
    exact ⟨Bool.not_eq_false _ ▸ hmm, by omega, hplace⟩
  obtain ⟨h1, h2, h3⟩ := findGap_spec h.areas h.base (by omega) (hw hs) h0
  rcases moveLocked_spec env h.areas ho hol (by omega) ⟨a, ha, ha1, by omega⟩ h1 hnl (by omega) h2 h3
    (h.empty_of_free h3) with ⟨st', hm, hmoved⟩ | ⟨e, st', hm, hcut, -⟩
  · rw [hm]
    exact .inr ⟨hpre, .inr (.inr ⟨_, rfl, by omega, h1, h2, h3, hmoved⟩)⟩
  rw [hm]
  exact .inl ⟨e, rfl, hcut⟩

lemma RemapOutcome.spaceOk (h : SpaceOk vm) (hl : oldLen % 4096 = 0) (ho : RemapOutcome vm oldAddr oldLen newLen r) :
    SpaceOk r.2.vm := by
  rcases ho with ⟨e, -, hcut⟩ | ⟨⟨h1, h2, h3, hsrc⟩, hres⟩
  · exact hcut.spaceOk h
  rcases hres with ⟨-, -, hun⟩ | ⟨-, -, hg, hrest⟩ | ⟨new, -, hlt, hn, hr, hfree, hm⟩
  · exact hun.spaceOk h
  · refine hg.spaceOk h ?_
    rw [hrest]
  · exact hm.spaceOk h h1 hl hn (by omega) hsrc h2 hfree

/-- A remapping that succeeds moves the entries, also where it grows or
shrinks a range in place. -/
lemma RemapOutcome.moved (h : SpaceOk vm) {new : Nat} (hr : RemapOutcome vm oldAddr oldLen newLen r)
    (hok : r.1 = .ok new) :
    (oldAddr % 4096 = 0 ∧ 0 < oldLen ∧ 0 < newLen ∧ ∃ a ∈ vm.areas, a.start ≤ oldAddr ∧ oldAddr + oldLen ≤ a.stop) ∧
      new % 4096 = 0 ∧ EntriesMoved vm r.2.vm oldAddr oldLen new newLen := by
  rcases hr with ⟨e, he, -⟩ | ⟨hpre, hres⟩
  · cases he.symm.trans hok
  refine ⟨hpre, ?_⟩
  obtain ⟨hal, hol, hnl, a, ha, ha1, ha2⟩ := hpre
  rcases hres with ⟨hk, hle, hu⟩ | ⟨hk, hlt, hg, -⟩ | ⟨n, hk, -, hn, -, -, hm⟩
  · obtain rfl := Except.ok.inj (hk.symm.trans hok)
    refine ⟨hal, fun va => ?_⟩
    rw [hu.entry]
    by_cases hin : oldAddr ≤ va ∧ va < oldAddr + newLen
    · rw [if_neg (by omega), if_pos hin]
      exact entry_from h.areas ha ha1 hin.1 (by omega)
    rw [if_neg hin]
    exact if_congr (by omega) rfl rfl
  · obtain rfl := Except.ok.inj (hk.symm.trans hok)
    have hmv := hg.moved h.areas ha ha1 (by omega) ha2 (by omega)
    rw [Nat.add_sub_cancel_left, Nat.add_sub_cancel_left] at hmv
    exact ⟨hal, hmv⟩
  · obtain rfl := Except.ok.inj (hk.symm.trans hok)
    exact ⟨hn, hm.entry⟩

/-- Where a remapping that succeeds adds addresses, nothing was mapped. -/
lemma RemapOutcome.fresh {new va : Nat} (hr : RemapOutcome vm oldAddr oldLen newLen r) (hok : r.1 = .ok new)
    (h1 : new ≤ va) (h2 : va < new + newLen) (h3 : ¬ (oldAddr ≤ va ∧ va < oldAddr + oldLen)) :
    entryAt vm.areas va = none := by
  rcases hr with ⟨e, he, -⟩ | ⟨-, ⟨hk, hle, -⟩ | ⟨hk, -, hg, -⟩ | ⟨n, hk, -, -, -, hf, -⟩⟩
  · cases he.symm.trans hok
  · obtain rfl := Except.ok.inj (hk.symm.trans hok)
    omega
  · obtain rfl := Except.ok.inj (hk.symm.trans hok)
    exact hg.free.entry (by omega) h2
  · obtain rfl := Except.ok.inj (hk.symm.trans hok)
    exact hf.entry h1 h2

/-! ## `remap_fixed_locked` -/

/-- What `remap_fixed_locked` leaves mapped when it succeeds. -/
structure MovedOver (vm vm' : VmSpace) (oldAddr oldLen newAddr newLen : Nat) : Prop where
  ok : SpaceOk vm'
  entry : ∀ va, entryAt vm'.areas va =
    if newAddr ≤ va ∧ va < newAddr + newLen then
      (entryAt vm.areas oldAddr).map (Entry.shift · (va - newAddr))
    else if oldAddr ≤ va ∧ va < oldAddr + oldLen then none
    else entryAt vm.areas va

def RemapFixedOutcome (vm : VmSpace) (oldAddr oldLen newLen newAddr : Nat) (r : Except Errno Nat × St) : Prop :=
  (∃ e, r.1 = .error e ∧ SpaceOk r.2.vm) ∨
  (r.1 = .ok newAddr ∧ oldAddr % 4096 = 0 ∧ newAddr % 4096 = 0 ∧ 0 < oldLen ∧ 0 < newLen ∧
    (∃ a ∈ vm.areas, a.start ≤ oldAddr ∧ oldAddr + oldLen ≤ a.stop) ∧
    userRange newAddr (newAddr + newLen) = true ∧
    (newAddr + newLen ≤ oldAddr ∨ oldAddr + oldLen ≤ newAddr) ∧
    MovedOver vm r.2.vm oldAddr oldLen newAddr newLen)

/-- Cutting the old range to the length that is kept. -/
lemma cutTail_spec (env : Env) {oldAddr ol nl : Nat} {st : St} (h : AreasOk st.vm.areas)
    (ho : oldAddr % 4096 = 0) (hol : ol % 4096 = 0) (hnl : nl % 4096 = 0)
    (hlt : oldAddr + ol < 2 ^ 64) :
    ∃ err st', (if nl < ol then unmapLocked env (oldAddr + nl) (ol - nl) st else (none, st)) = (err, st') ∧
      ((err = none ∧ Unmapped st.vm st'.vm (oldAddr + min ol nl) (oldAddr + ol)) ∨
        ∃ e, err = some e ∧ Cut st.vm st'.vm ∧ ¬ Ample env) := by
  by_cases hc : nl < ol
  · have hend := @rangeEnd_of_aligned (oldAddr + nl) (ol - nl) (by omega) (by omega) (by omega)
    rw [if_pos hc, show min ol nl = nl by omega, show oldAddr + ol = oldAddr + nl + (ol - nl) by omega, ← hend]
    rcases unmapLocked_spec env (oldAddr + nl) (ol - nl) h with ⟨st', hu, -, -, -, hun⟩ | ⟨e, st', hu, hcut, hamp⟩
    · exact ⟨_, _, hu, .inl ⟨rfl, hun⟩⟩
    · exact ⟨_, _, hu, .inr ⟨e, rfl, hcut, fun he => absurd ((hamp he).2 (by omega) (by omega)) (by omega)⟩⟩
  · rw [if_neg hc, show min ol nl = ol by omega]
    exact ⟨_, _, rfl, .inl ⟨rfl, unmapped_refl h _⟩⟩

/-- The last step: the space in which destination and tail are unmapped
already. -/
lemma movedOver_of_moved {vm1 vm2 vm3 : VmSpace} {ol nl : Nat} (hpos : 0 < min ol nl)
    (hdis : newAddr + nl ≤ oldAddr ∨ oldAddr + ol ≤ newAddr) (h1 : Unmapped vm vm1 newAddr (newAddr + nl))
    (h2 : Unmapped vm1 vm2 (oldAddr + min ol nl) (oldAddr + ol)) (h3 : Moved vm2 vm3 oldAddr (min ol nl) newAddr nl)
    (hok : SpaceOk vm3) : MovedOver vm vm3 oldAddr ol newAddr nl := by
  refine ⟨hok, ?_⟩
  intro va
  have hold : entryAt vm2.areas oldAddr = entryAt vm.areas oldAddr := by
    rw [h2.entry, if_neg (by omega), h1.entry, if_neg (by omega)]
  rw [h3.entry, hold]
  by_cases hin : newAddr ≤ va ∧ va < newAddr + nl
  · rw [if_pos hin, if_pos hin]
  rw [if_neg hin, if_neg hin, h2.entry, h1.entry, if_neg hin]
  by_cases hold' : oldAddr ≤ va ∧ va < oldAddr + ol
  · rw [if_pos hold']
    by_cases hm : va < oldAddr + min ol nl
    · rw [if_pos ⟨hold'.1, hm⟩]
    · rw [if_neg (by omega), if_pos (by omega)]
  · rw [if_neg hold', if_neg (by omega), if_neg (by omega)]

lemma remapFixedLocked_spec (env : Env) (oldAddr oldLen newLen : Nat) (mayMove : Bool) (newAddr : Nat)
    (h : SpaceOk st.vm) :
    RemapFixedOutcome st.vm oldAddr (pageAlignUp oldLen) (pageAlignUp newLen) newAddr
      (remapFixedLocked env oldAddr oldLen newLen mayMove newAddr st) ∧
      (Ample env → ∀ e, (remapFixedLocked env oldAddr oldLen newLen mayMove newAddr st).1 = .error e →
        (remapFixedLocked env oldAddr oldLen newLen mayMove newAddr st).2 = st) := by
  have hol := pageAlignUp_aligned oldLen
  have hnl := pageAlignUp_aligned newLen
  have holt := pageAlignUp_lt oldLen
  have hnlt := pageAlignUp_lt newLen
  unfold remapFixedLocked
  generalize pageAlignUp oldLen = ol at hol holt ⊢
  generalize pageAlignUp newLen = nl at hnl hnlt ⊢
  by_cases hargs : oldAddr % 4096 ≠ 0 ∨ newAddr % 4096 ≠ 0 ∨ ol = 0 ∨ nl = 0 ∨
      wrap (oldAddr + ol) < oldAddr ∨ mayMove = false ∨
      userRange newAddr (wrap (newAddr + nl)) = false
  · simp only [hargs, if_true]
    exact ⟨.inl ⟨_, rfl, h⟩, fun _ _ _ => trivial⟩
  simp only [hargs, if_false]
  simp only [not_or, ne_eq, not_not, Bool.not_eq_false] at hargs
  obtain ⟨ho, hn, hol0, hnl0, howr, -, hur⟩ := hargs
  have hnw := userRange_wrap hnlt hur
  rw [hnw] at hur ⊢
  obtain ⟨hu1, hu2, hu3⟩ := userRange_iff.1 hur
  by_cases hover : newAddr < wrap (oldAddr + ol) ∧ oldAddr < newAddr + nl
  · rw [if_pos hover]
    exact ⟨.inl ⟨_, rfl, h⟩, fun _ _ _ => rfl⟩
  rw [if_neg hover]
  rcases hfind : vmFind st.vm.areas oldAddr with - | a
  · exact ⟨.inl ⟨_, rfl, h⟩, fun _ _ _ => rfl⟩
  obtain ⟨ha, ha1, ha2⟩ := (vmFind_eq_some h.areas.tiled).1 hfind
  have halim : a.stop ≤ 0x800000000000 := (h.areas.area a ha).limit
  simp only []
  by_cases hin : a.stop < wrap (oldAddr + ol)
  · rw [if_pos hin]
    exact ⟨.inl ⟨_, rfl, h⟩, fun _ _ _ => rfl⟩
  have hend : wrap (oldAddr + ol) = oldAddr + ol := by
    unfold wrap at howr hin ⊢
    omega
  rw [hend] at hin hover
  rw [hend, if_neg hin]
  -- unmap the destination
  have hend' := rangeEnd_of_aligned hn hnl (by omega)
  rcases unmapLocked_spec env newAddr nl h.areas with ⟨st1, hu, -, -, -, hun1⟩ | ⟨e, st1, hu, hcut, hamp⟩
  swap
  · rw [hu]
    exact ⟨.inl ⟨e, rfl, hcut.spaceOk h⟩, fun he => absurd ((hamp he).2 hn hnl0) (by omega)⟩
  rw [hu]
  rw [hend'] at hun1
  have hok1 : SpaceOk st1.vm := hun1.spaceOk h
  -- cut the source
  obtain ⟨err, st2, hcut, hres⟩ := @cutTail_spec env oldAddr ol nl st1 hok1.areas ho hol hnl (by omega)
  simp only [hcut]
  rcases hres with ⟨rfl, hun2⟩ | ⟨e, rfl, hcut2, hno⟩
  swap
  · exact ⟨.inl ⟨e, rfl, hcut2.spaceOk hok1⟩, fun he => absurd he hno⟩
  have hok2 : SpaceOk st2.vm := hun2.spaceOk hok1
  -- move what is left of it
  obtain ⟨b, hb, hb1, hb2⟩ := hun1.piece a ha oldAddr (oldAddr + ol) ha1 (by omega) (by omega) (by omega)
  obtain ⟨c, hc, hc1, hc2⟩ := hun2.piece b hb oldAddr (oldAddr + min ol nl) hb1 (by omega) (by omega) (.inl le_rfl)
  have hfree : FreeIn st2.vm.areas newAddr (newAddr + nl) := by
    refine freeIn_of_entry hok2.areas (by omega) ?_
    intro va h1 h2
    rw [hun2.entry]
    split
    · rfl
    · rw [hun1.entry, if_pos ⟨h1, h2⟩]
  have hmin : min ol nl % 4096 = 0 := by omega
  rcases moveLocked_spec env hok2.areas ho hmin (by omega) ⟨c, hc, hc1, hc2⟩ hn hnl (min_le_right _ _) hur hfree
    (hok2.empty_of_free hfree) with ⟨st3, hm, hmoved⟩ | ⟨e, st3, hm, hcut3, hno⟩
  · have hok3 := hmoved.spaceOk hok2 ho hmin hn (min_le_right _ _) ⟨c, hc, hc1, hc2⟩ (by omega) hfree
    simp only [hm]
    exact ⟨.inr ⟨rfl, ho, hn, by omega, by omega, ⟨a, ha, ha1, by omega⟩, hur, by omega,
      movedOver_of_moved (by omega) (by omega) hun1 hun2 hmoved hok3⟩, fun _ _ hc => nomatch hc⟩
  · simp only [hm]
    exact ⟨.inl ⟨e, rfl, hcut3.spaceOk hok2⟩, fun he => absurd he hno⟩

end Hermes.L2.Vm
