import Hermes.L2Mem.VmFile

/-!
# The invariant of every address space

Every critical section keeps `SpaceOk` as long as its gap search, if it
makes one, does not wrap around; so do cloning, creation and release. With
that, in every run without a wrapping gap search the areas are sorted,
disjoint and inside the user half, the searches return the right area, and
page tables agree with the areas.
-/
namespace Hermes.L2.Vm

open Hermes.Intervals Function Option

/-! ## Changes that leave the areas alone -/

variable (env : Env) {vm vm' : VmSpace} {a b : VmArea} {p : Pte} {w : World}

/-- The bounds, protections and flags decide: a space with the same areas and
base, whose entries give no more than before. -/
lemma SpaceOk.weaken (h : SpaceOk vm) (ha : vm'.areas = vm.areas) (hb : vm'.mmapBase = vm.mmapBase)
    (hp : ∀ n, PteOk (vm'.pageMap n) ∧ ((vm'.pageMap n).frame ≠ 0 → (vm.pageMap n).frame ≠ 0 ∧
      ((vm'.pageMap n).writable = true → (vm.pageMap n).writable = true)))
    : SpaceOk vm' := by
  refine ⟨ha ▸ h.areas, hb.trans h.base, ?_, fun n => (hp n).1, ?_⟩
  · rw [ha]
    exact h.noWrite
  intro n hf
  obtain ⟨h1, h2⟩ := (hp n).2 hf
  obtain ⟨e, he, hw⟩ := h.inArea n h1
  rw [ha]
  exact ⟨e, he, fun hx => hw (h2 hx)⟩

lemma SpaceOk.congr (h : SpaceOk vm) (ha : vm'.areas = vm.areas) (hb : vm'.mmapBase = vm.mmapBase)
    (hp : vm'.pageMap = vm.pageMap) : SpaceOk vm' := by
  refine h.weaken ha hb fun n => ?_
  rw [hp]
  exact ⟨h.pte n, fun hf => ⟨hf, id⟩⟩

/-- An entry that may stand in area `a`. -/
structure Fits (a : VmArea) (p : Pte) : Prop where
  ok : PteOk p
  write : p.writable = true → a.prot.write = true

variable {va : Nat} {st : St}

lemma page_in_area {L : List VmArea} (h : AreasOk L) (ha : a ∈ L) (h1 : a.start ≤ va) (h2 : va < a.stop) :
    entryAt L (va / 4096 * 4096) = some (a.entry (va / 4096 * 4096)) := by
  have := (h.area a ha).start
  exact entryAt_of_mem h.tiled ha (by omega) (by omega)

lemma SpaceOk.fits (h : SpaceOk vm) (ha : a ∈ vm.areas) (h1 : a.start ≤ va) (h2 : va < a.stop) :
    Fits a (vm.pageMap (va / 4096)) := by
  refine ⟨h.pte _, fun hw => ?_⟩
  by_cases hf : (vm.pageMap (va / 4096)).frame = 0
  · rw [(h.pte _).zero hf] at hw
    cases hw
  obtain ⟨e, he, hwr⟩ := h.inArea _ hf
  rw [page_in_area h.areas ha h1 h2] at he
  obtain rfl := some_inj.1 he
  exact hwr hw

/-- Writing one entry that fits the area of its page. -/
lemma SpaceOk.setPage (h : SpaceOk vm) (ha : a ∈ vm.areas) (h1 : a.start ≤ va) (h2 : va < a.stop)
    (hp : Fits a p) : SpaceOk { vm with pageMap := update vm.pageMap (va / 4096) p } := by
  refine ⟨h.areas, h.base, h.noWrite, ?_, ?_⟩
  · exact (forall_update_iff _ fun _ => PteOk).2 ⟨hp.ok, fun n _ => h.pte n⟩
  intro n
  by_cases hn : n = va / 4096
  · subst hn
    intro _
    refine ⟨_, page_in_area h.areas ha h1 h2, ?_⟩
    show (update vm.pageMap (va / 4096) p (va / 4096)).writable = true → a.prot.write = true
    rw [update_self]
    exact hp.write
  · simpa [update_of_ne hn] using h.inArea n

/-! ## Discarding and write-back -/

lemma pteOk_cleaned (h : PteOk p) : PteOk (Pte.cleaned p) := by
  unfold Pte.cleaned
  split
  · exact h
  rename_i hc
  have hf : p.frame ≠ 0 := fun hz => hc (.inl hz)
  exact ⟨fun hz => absurd hz hf, fun _ => h.user hf, h.cow⟩

lemma cleaned_frame (p : Pte) : (Pte.cleaned p).frame = p.frame := by
  unfold Pte.cleaned
  split <;> rfl

lemma cleaned_writable (p : Pte) : (Pte.cleaned p).writable = p.writable := by
  unfold Pte.cleaned
  split <;> rfl

lemma discardLocked_ok (addr len : Nat) (h : SpaceOk st.vm) : SpaceOk (discardLocked addr len st).2.vm := by
  refine @discardLocked_keeps (fun st => SpaceOk st.vm) (fun st h => h.areas) (fun st h => h) ?_ addr len st h
  intro lo hi st hlo hst
  refine hst.weaken (areas_of_layout (freeFrames_layout _ _ _))
    (congrArg VmSpace.mmapBase (freeFrames_layout lo hi st) :) fun n => ?_
  rw [freeFrames_pageMap hlo, (hst.pte n).cleared]
  split
  · exact ⟨pteOk_zero, fun hf => absurd rfl hf⟩
  · exact ⟨hst.pte n, fun hf => ⟨hf, id⟩⟩

lemma syncLocked_ok (addr len : Nat) (h : SpaceOk st.vm) : SpaceOk (syncLocked env addr len st).2.vm := by
  refine @syncLocked_keeps (fun st => SpaceOk st.vm) (fun st h => h.areas) (fun st h => h) env ?_ addr len st h
  intro a lo hi st hlo hst
  refine hst.weaken (areas_of_layout (queueDirty_layout env a lo hi true st))
    (congrArg VmSpace.mmapBase (queueDirty_layout env a lo hi true st) :) fun n => ?_
  rw [queueDirty_clear_pageMap env a hlo]
  split
  · refine ⟨pteOk_cleaned (hst.pte n), fun hf => ?_⟩
    rw [cleaned_frame] at hf
    rw [cleaned_writable]
    exact ⟨hf, id⟩
  · exact ⟨hst.pte n, fun hf => ⟨hf, id⟩⟩

/-! ## Faults and kernel writes -/

variable {f : Nat} {prot : Prot} {flags : AreaFlags}

lemma fits_flags (a : VmArea) (hf : f ≠ 0) : Fits a { pteFlags a.prot with frame := f } := by
  unfold pteFlags
  by_cases hn : a.prot = Prot.none
  · rw [if_pos hn]
    exact ⟨⟨fun h => absurd h hf, fun _ => rfl, nofun⟩, nofun⟩
  rw [if_neg hn]
  exact ⟨⟨fun h => absurd h hf, fun _ => rfl, fun _ => rfl⟩, id⟩

lemma fits_withProt (a : VmArea) (hf : p.frame ≠ 0) : Fits a (pteWithProt p a.prot) :=
  ⟨pteOk_withProt hf a.prot, write_of_withProt⟩

/-- The space with one entry rewritten. -/
def VmSpace.putPte (vm : VmSpace) (va : Nat) (p : Pte) : VmSpace :=
  { vm with pageMap := update vm.pageMap (va / 4096) p }

lemma putPte_self (vm : VmSpace) (va : Nat) : vm.putPte va (vm.pageMap (va / 4096)) = vm := by
  unfold VmSpace.putPte
  rw [update_eq_self]

@[simp] lemma putPte_pageMap_self (vm : VmSpace) (va : Nat) (p : Pte) :
    (vm.putPte va p).pageMap (va / 4096) = p := update_self ..

/-- `frame_for` puts a frame at the page, or leaves the space as it is. -/
lemma frameFor_spec (va : Nat) (prot : Prot) (st : St) :
    ((frameFor env va prot st).1 = true ∧ ∃ p, (frameFor env va prot st).2.vm = st.vm.putPte va p ∧
      p.frame ≠ 0 ∧ (p = st.pte va ∨ ∃ f, f ≠ 0 ∧ p = { pteFlags prot with frame := f })) ∨
    ((frameFor env va prot st).1 = false ∧ (frameFor env va prot st).2.vm = st.vm) := by
  unfold frameFor
  by_cases hf : (st.pte va).frame ≠ 0
  · rw [if_pos hf]
    exact .inl ⟨rfl, st.pte va, (putPte_self st.vm va).symm, hf, .inl rfl⟩
  rw [if_neg hf]
  rcases ha : st.mc.allocPhysicalPage env with ⟨_ | f, mc⟩
  · exact .inr ⟨rfl, rfl⟩
  simp only [St.mapPageIn]
  cases env.tables (mc.setMem (f + 1) fun _ => 0).tick with
  | true =>
    exact .inl ⟨rfl, { pteFlags prot with frame := f + 1 }, rfl, Nat.succ_ne_zero f,
      .inr ⟨f + 1, Nat.succ_ne_zero f, rfl⟩⟩
  | false => exact .inr ⟨rfl, rfl⟩

lemma flushOthers_vm (st : St) : (flushOthers st).vm = st.vm := by
  unfold flushOthers
  split <;> rfl

/-- `cow_break` gives the page a frame of its own, or leaves the space as it is. -/
lemma cowBreak_spec (va : Nat) (st : St) (hf : (st.pte va).frame ≠ 0) : ((cowBreak env va st).1 = true ∧ ∃ f, f ≠ 0 ∧
      (cowBreak env va st).2.vm = st.vm.putPte va { st.pte va with frame := f, cow := false }) ∨
    ((cowBreak env va st).1 = false ∧ (cowBreak env va st).2.vm = st.vm) := by
  unfold cowBreak
  dsimp only
  by_cases hs : st.mc.pageShared (st.pte va).frame = false
  · rw [if_pos hs]
    exact .inl ⟨rfl, _, hf, rfl⟩
  rw [if_neg hs]
  rcases ha : st.mc.allocPhysicalPage env with ⟨_ | f, mc⟩
  · exact .inr ⟨rfl, rfl⟩
  refine .inl ⟨rfl, f + 1, Nat.succ_ne_zero f, ?_⟩
  show (flushOthers _).vm = _
  rw [flushOthers_vm]
  rfl

/-- Copy-on-write broken or not, the entry still fits. -/
lemma fits_broken (h : Fits a p) (hf : p.frame ≠ 0) (hf' : f ≠ 0) : Fits a { p with frame := f, cow := false } :=
  ⟨⟨fun hz => absurd hz hf', fun _ => h.ok.user hf, fun _ => rfl⟩, h.write⟩

lemma pte_of_vm (h : st.vm = vm.putPte va p) : st.pte va = p := by
  unfold St.pte
  rw [h, putPte_pageMap_self]

/-- Only the entries of the pages in `S` change, and nothing the file system sees. -/
structure Touched (S : Nat → Prop) (st st' : St) : Prop extends Still st st' where
  pageMap : ∀ n, ¬ S n → st'.vm.pageMap n = st.vm.pageMap n

section Touched

variable {S S' : Nat → Prop} {st st' st'' : St} {va : Nat}

lemma Touched.refl (st : St) : Touched S st st := ⟨.refl st, fun _ _ => rfl⟩

lemma Touched.trans (h : Touched S st st') (h' : Touched S st' st'') : Touched S st st'' :=
  ⟨h.toStill.trans h'.toStill, fun n hn => (h'.pageMap n hn).trans (h.pageMap n hn)⟩

lemma Touched.mono (h : Touched S st st') (hS : ∀ n, S n → S' n) : Touched S' st st' :=
  ⟨h.toStill, fun n hn => h.pageMap n (mt (hS n) hn)⟩

lemma Still.touched (h : Still st st') (hp : st'.vm.pageMap = st.vm.pageMap) : Touched S st st' :=
  ⟨h, fun n _ => congrFun hp n⟩

lemma Still.touched_putPte (h : Still st st') (hvm : st'.vm = st.vm.putPte va p) : Touched (· = va / 4096) st st' :=
  ⟨h, fun n hn => by rw [hvm]; exact update_of_ne hn _ _⟩

end Touched

/-- A frame for a page of area `a`. -/
lemma frameFor_ok (h : SpaceOk st.vm) (ha : a ∈ st.vm.areas) (h1 : a.start ≤ va) (h2 : va < a.stop) :
    SpaceOk (frameFor env va a.prot st).2.vm ∧ Touched (· = va / 4096) st (frameFor env va a.prot st).2 ∧
    ((frameFor env va a.prot st).1 = true → ((frameFor env va a.prot st).2.pte va).frame ≠ 0) := by
  have hstill := Still.frameFor env va a.prot st
  rcases frameFor_spec env va a.prot st with ⟨-, p, hvm, hf, hp⟩ | ⟨hfalse, hvm⟩
  · have hfit : Fits a p := by
      rcases hp with rfl | ⟨f, hf', rfl⟩
      · exact h.fits ha h1 h2
      · exact fits_flags a hf'
    refine ⟨?_, hstill.touched_putPte hvm, fun _ => ?_⟩
    · rw [hvm]
      exact h.setPage ha h1 h2 hfit
    rw [pte_of_vm hvm]
    exact hf
  · refine ⟨hvm ▸ h, hstill.touched (by rw [hvm]), ?_⟩
    rw [hfalse]
    exact nofun

/-- The entry of a page of area `a`, made private if `c`. -/
lemma breakIf_ok (h : SpaceOk st.vm) (ha : a ∈ st.vm.areas) (h1 : a.start ≤ va)
    (h2 : va < a.stop) (hf : (st.pte va).frame ≠ 0) (c : Bool) {b : Bool × St}
    (hb : b = if c then cowBreak env va st else (true, st)) :
    SpaceOk b.2.vm ∧ Touched (· = va / 4096) st b.2 ∧ (b.2.pte va).frame ≠ 0 := by
  cases c with
  | false =>
    obtain rfl : b = (true, st) := hb
    exact ⟨h, .refl st, hf⟩
  | true =>
    obtain rfl : b = cowBreak env va st := hb
    have hstill := Still.cowBreak env va st
    rcases cowBreak_spec env va st hf with ⟨-, f, hf', hvm⟩ | ⟨-, hvm⟩
    · refine ⟨?_, hstill.touched_putPte hvm, ?_⟩
      · rw [hvm]
        exact h.setPage ha h1 h2 (fits_broken (h.fits ha h1 h2) hf hf')
      rw [pte_of_vm hvm]
      exact hf'
    · refine ⟨hvm ▸ h, hstill.touched (by rw [hvm]), ?_⟩
      unfold St.pte at hf ⊢
      rwa [hvm]

lemma faultLocked_ok (addr : Nat) (write : Bool) (h : SpaceOk st.vm) : SpaceOk (faultLocked env addr write st).2.vm ∧
    Touched (· = pageBase addr / 4096) st (faultLocked env addr write st).2 := by
  unfold faultLocked
  rcases hfind : vmFind st.vm.areas addr with - | a
  · exact ⟨h, .refl st⟩
  obtain ⟨ha, ha1, ha2⟩ := (vmFind_eq_some h.areas.tiled).1 hfind
  have hal := (h.areas.area a ha).start
  have h1 : a.start ≤ pageBase addr := by unfold pageBase; omega
  have h2 : pageBase addr < a.stop := by unfold pageBase; omega
  dsimp only
  split
  · exact ⟨h, .refl st⟩
  split
  · exact ⟨h, (Still.invalidate _ st).touched rfl⟩
  obtain ⟨hok1, ht1, hfr1⟩ := frameFor_ok env h ha h1 h2
  generalize frameFor env (pageBase addr) a.prot st = r at hok1 ht1 hfr1 ⊢
  obtain ⟨_ | _, st1⟩ := r
  · exact ⟨hok1, ht1⟩
  dsimp only at hok1 ht1 hfr1 ⊢
  have ha' : a ∈ st1.vm.areas := ht1.areas ▸ ha
  generalize hb : (if (write && (st1.pte (pageBase addr)).cow) = true then
    cowBreak env (pageBase addr) st1 else (true, st1)) = b
  obtain ⟨hok2, ht2, hfr2⟩ := breakIf_ok env hok1 ha' h1 h2 (hfr1 rfl) _ hb.symm
  obtain ⟨_ | _, st2⟩ := b
  · exact ⟨hok2, ht1.trans ht2⟩
  have ha2' : a ∈ st2.vm.areas := ht2.areas ▸ ha'
  exact ⟨hok2.setPage ha2' h1 h2 (fits_withProt a hfr2), (ht1.trans ht2).trans
    (((Still.setPte _ _ st2).trans (.invalidate _ _)).touched_putPte rfl)⟩

lemma populatePages_ok (write : Bool) {S : Nat → Prop} : ∀ (l : List Nat) (cached : Option VmArea)
    (st : St), SpaceOk st.vm → (∀ va ∈ l, S (pageBase va / 4096)) →
    SpaceOk (populatePages env write l cached st).2.vm ∧ Touched S st (populatePages env write l cached st).2 := by
  intro l
  induction l with
  | nil => exact fun cached st h _ => ⟨h, .refl st⟩
  | cons va rest ih =>
    intro cached st h hl
    obtain ⟨hva, hrest⟩ := List.forall_mem_cons.1 hl
    unfold populatePages
    rcases areaNow cached st.vm.areas va with - | a
    · exact ⟨h, .refl st⟩
    dsimp only
    split
    · exact ⟨h, .refl st⟩
    split
    · exact ih _ _ h hrest
    obtain ⟨hf, ht⟩ := faultLocked_ok env va write h
    have ht := ht.mono fun n hn => show S n from hn ▸ hva
    generalize faultLocked env va write st = r at hf ht ⊢
    obtain ⟨_ | _, st1⟩ := r
    · exact ⟨hf, ht⟩
    · exact (ih _ _ hf hrest).imp_right ht.trans

/-- Page `n` meets `[lo, hi)`. -/
def PageMeets (lo hi n : Nat) : Prop := lo < (n + 1) * 4096 ∧ n * 4096 < hi

lemma populateLocked_ok (env : Env) (addr len : Nat) (write : Bool) (h : SpaceOk st.vm) :
    SpaceOk (populateLocked env addr len write st).2.vm ∧
      Touched (PageMeets (pageBase addr) (wrap (addr + len))) st (populateLocked env addr len write st).2 := by
  unfold populateLocked
  split
  · exact ⟨h, .refl st⟩
  dsimp only
  split
  · exact ⟨h, .refl st⟩
  refine populatePages_ok env write _ _ _ h fun va hva => ?_
  obtain ⟨k, rfl, hlt⟩ := mem_pages.1 hva
  unfold PageMeets pageBase at *
  omega

/-- What a kernel write touches, as long as it does not wrap around. -/
lemma writeFrom_ok (src : Option (Nat → UInt8)) : ∀ (n addr pos len : Nat) (st : St),
    SpaceOk st.vm → SpaceOk (writeFrom env src n addr pos len st).2.vm ∧
      Touched (fun k => addr + len < 2 ^ 64 → PageMeets (pageBase addr) (addr + len) k) st
        (writeFrom env src n addr pos len st).2 := by
  intro n
  induction n with
  | zero => exact fun addr pos len st h => ⟨h, .refl st⟩
  | succ n ih =>
    intro addr pos len st h
    unfold writeFrom
    split
    · exact ⟨h, .refl st⟩
    rename_i hlen
    rcases hfind : vmFind st.vm.areas addr with - | a
    · exact ⟨h, .refl st⟩
    obtain ⟨ha, ha1, ha2⟩ := (vmFind_eq_some h.areas.tiled).1 hfind
    have hal := (h.areas.area a ha).start
    have hbase : pageBase addr ≤ addr ∧ pageBase addr % 4096 = 0 := by unfold pageBase; omega
    have h1 : a.start ≤ pageBase addr := by unfold pageBase; omega
    have h2 : pageBase addr < a.stop := by omega
    have hmono : ∀ k, k = pageBase addr / 4096 → addr + len < 2 ^ 64 → PageMeets (pageBase addr) (addr + len) k := by
      unfold PageMeets
      omega
    dsimp only
    obtain ⟨hok1, ht1, hfr1⟩ := frameFor_ok env h ha h1 h2
    generalize frameFor env (pageBase addr) a.prot st = r at hok1 ht1 hfr1 ⊢
    obtain ⟨_ | _, st1⟩ := r
    · exact ⟨hok1, ht1.mono hmono⟩
    dsimp only at hok1 ht1 hfr1 ⊢
    have ha' : a ∈ st1.vm.areas := ht1.areas ▸ ha
    generalize hb : (if (st1.pte (pageBase addr)).cow = true then
      cowBreak env (pageBase addr) st1 else (true, st1)) = b
    obtain ⟨hok2, ht2, -⟩ := breakIf_ok env hok1 ha' h1 h2 (hfr1 rfl) _ hb.symm
    obtain ⟨_ | _, st2⟩ := b
    · exact ⟨hok2, (ht1.trans ht2).mono hmono⟩
    dsimp only at hok2 ht2 ⊢
    generalize hs : ({ st2 with mc := _ } : St) = st3
    have hset : Touched (· = pageBase addr / 4096) st2 st3 := hs ▸ (Still.setMem _ _ st2).touched rfl
    refine (ih _ _ _ st3 (by rw [← hs]; exact hok2)).imp_right
      fun ht3 => (((ht1.trans ht2).trans hset).mono hmono).trans (ht3.mono fun k hk hlt => ?_)
    -- the address of the rest of the bytes does not wrap around either
    unfold PageMeets wrap pageBase at *
    omega

/-! ## The other calls -/

lemma insertFrameLocked_ok (env : Env) (va : Nat) {frame : Nat} (hf : frame ≠ 0)
    (h : SpaceOk st.vm) : SpaceOk (insertFrameLocked env va frame st).2.vm ∧
      Touched (· = va / 4096) st (insertFrameLocked env va frame st).2 := by
  unfold insertFrameLocked
  rcases hfind : vmFind st.vm.areas va with - | a
  · exact ⟨h, .refl st⟩
  obtain ⟨ha, h1, h2⟩ := (vmFind_eq_some h.areas.tiled).1 hfind
  dsimp only
  split
  · exact ⟨h, .refl st⟩
  have hnew := h.setPage ha h1 h2 (fits_flags a hf)
  have hm := Still.mapPageIn env va { pteFlags a.prot with frame := frame } st
  unfold St.mapPageIn at hm ⊢
  cases ht : env.tables st.mc.tick with
  | false =>
    rw [ht] at hm
    exact ⟨h, hm.touched rfl⟩
  | true =>
    rw [ht] at hm
    simp only [if_true] at hm ⊢
    split
    · exact ⟨hnew, ((hm.trans (.freePage _ _)).trans (.invalidate va _)).touched_putPte rfl⟩
    · exact ⟨hnew, (hm.trans (.invalidate va _)).touched_putPte rfl⟩

lemma unmapLocked_ok (addr len : Nat) (h : SpaceOk st.vm) : SpaceOk (unmapLocked env addr len st).2.vm := by
  rcases unmapLocked_spec env addr len h.areas with ⟨st', he, -, -, -, hu⟩ | ⟨e, st', he, hc, -⟩ <;> rw [he]
  · exact hu.spaceOk h
  exact hc.spaceOk h

lemma protectLocked_ok (addr len : Nat) (prot : Prot) (h : SpaceOk st.vm) :
    SpaceOk (protectLocked env addr len prot st).2.vm := by
  rcases protectLocked_spec env addr len prot h.areas with ⟨-, -, he⟩ | ⟨-, -, -, -, hp⟩ | ⟨-, hc⟩
  · rw [he]
    exact h
  · exact hp.spaceOk h
  · exact hc.spaceOk h

lemma MapOutcome.spaceOk (h : SpaceOk vm) {addr l : Nat} {fixed : Bool} {r : Except Errno Nat × St}
    (hnw : flags.noWrite = true → prot.write = false) (ho : MapOutcome vm addr l prot flags fixed r) :
    SpaceOk r.2.vm := by
  rcases ho with ⟨start, -, -, -, -, -, hm⟩ | ⟨e, -, hc | ⟨-, hu⟩⟩
  · exact hm.spaceOk h hnw
  · exact hc.spaceOk h
  · exact hu.spaceOk h

lemma mem_of_heapArea (h : AreasOk vm.areas) {last : Nat} (hh : heapArea vm last = some a) :
    a ∈ vm.areas ∧ a.stop = last := by
  obtain ⟨hsome, hcond⟩ := filter_eq_some_iff.1 hh
  simp only [Bool.and_eq_true, decide_eq_true_eq] at hcond
  split at hsome
  · exact ⟨((vmFind_eq_some h.tiled).1 hsome).1, hcond.2⟩
  · cases hsome

lemma brkLocked_ok (newBrk : Nat) (h : SpaceOk st.vm) : SpaceOk (brkLocked env newBrk st).vm := by
  unfold brkLocked
  split
  · exact h
  dsimp only
  split
  · split
    · exact h
    rename_i hfree
    simp only [not_or, Bool.not_eq_false] at hfree
    -- the heap area grows, or a new one is mapped over the free range
    rcases hheap : heapArea st.vm (pageAlignUp st.vm.brk) with - | a
    · have hspec := mapLocked_spec env (pageAlignUp st.vm.brk)
        (pageAlignUp newBrk - pageAlignUp st.vm.brk) ⟨true, true, false⟩ ⟨false, true, false, false⟩
        true h.areas h.base (fun hs => absurd hs.1 (by decide))
      have hok := hspec.1.spaceOk h (fun hc => absurd hc (by decide))
      generalize mapLocked env _ _ _ _ _ _ = r at hok ⊢
      obtain ⟨e | v, st'⟩ := r
      · exact hok
      · exact hok.congr rfl rfl rfl
    · obtain ⟨ha, hstop⟩ := mem_of_heapArea h.areas hheap
      rw [← hstop] at hfree
      have hg := grown_areaSet h.areas ha (pageAlignUp_aligned newBrk) hfree.1 hfree.2
      exact (hg.spaceOk h rfl).congr rfl rfl rfl
  split
  · exact (unmapLocked_ok env _ _ h).congr rfl rfl rfl
  · exact h.congr rfl rfl rfl

lemma attachFile_ok (start file offset : Nat) (h : SpaceOk st.vm) :
    SpaceOk (attachFile start file offset st).2.vm := by
  unfold attachFile
  rcases hfind : vmFind st.vm.areas start with - | a
  · exact h
  obtain ⟨ha, _⟩ := (vmFind_eq_some h.areas.tiled).1 hfind
  dsimp only
  split
  swap
  · exact h
  -- the area keeps its bounds, protection and flags
  refine ⟨areasOk_areaSet h.areas rfl rfl, h.base, ?_, h.pte, ?_⟩
  · intro va e he
    change entryAt (areaSet st.vm.areas a _) va = _ at he
    rw [entryAt_attach h.areas ha] at he
    split at he
    · rename_i hin
      obtain rfl := some_inj.1 he
      exact (h.noWrite va (a.entry va) (entryAt_of_mem h.areas.tiled ha hin.1 hin.2) :)
    · exact h.noWrite va e he
  intro n hf
  obtain ⟨e, he, hw⟩ := h.inArea n hf
  show ∃ e, entryAt (areaSet st.vm.areas a _) _ = some e ∧ _
  rw [entryAt_attach h.areas ha]
  split
  · rename_i hin
    rw [entryAt_of_mem h.areas.tiled ha hin.1 hin.2] at he
    obtain rfl := some_inj.1 he
    exact ⟨_, rfl, hw⟩
  · exact ⟨e, he, hw⟩

lemma userStore_ok (addr : Nat) (byte : UInt8) (h : SpaceOk st.vm) : SpaceOk (userStore addr byte st).vm := by
  unfold userStore
  dsimp only
  split
  swap
  · exact h
  rename_i hp
  simp only [Bool.and_eq_true] at hp
  have hf : (st.pte addr).frame ≠ 0 := by
    intro hz
    have hzero : st.pte addr = Pte.zero := (h.pte (addr / 4096)).zero hz
    rw [hzero] at hp
    exact absurd hp.1.1 (by decide)
  refine h.weaken rfl rfl fun n => ?_
  by_cases hn : n = addr / 4096
  · subst hn
    simp only [update_self]
    exact ⟨⟨fun hz => absurd hz hf, fun _ => hp.2, (h.pte _).cow⟩, fun _ => ⟨hf, id⟩⟩
  · simp only [update_of_ne hn]
    exact ⟨h.pte n, fun hf => ⟨hf, id⟩⟩

/-! ## Cloning -/

/-- One more area, over a free range. -/
lemma SpaceOk.addArea (h : SpaceOk vm) (hb : AreaOk b) (hlt : b.start < b.stop)
    (hfree : FreeIn vm.areas b.start b.stop) (hnw : b.flags.noWrite = true → b.prot.write = false) :
    SpaceOk { vm with areas := areaInsert b vm.areas } := by
  refine ⟨areasOk_insert h.areas hb hlt hfree, h.base, ?_, h.pte, ?_⟩
  · intro va e he
    change entryAt (areaInsert b vm.areas) va = some e at he
    rw [entryAt_insert h.areas hb hlt hfree] at he
    by_cases hin : b.start ≤ va ∧ va < b.stop
    · rw [if_pos hin] at he
      obtain rfl := some_inj.1 he
      exact hnw
    · rw [if_neg hin] at he
      exact h.noWrite va e he
  · intro n hf
    show ∃ e, entryAt (areaInsert b vm.areas) _ = _ ∧ _
    rw [entryAt_insert h.areas hb hlt hfree, if_neg]
    · exact h.inArea n hf
    intro hin
    obtain ⟨e, he, -⟩ := h.inArea n hf
    rw [hfree.entry hin.1 hin.2] at he
    cases he

/-- Both spaces of a cloning in progress keep the invariant, and their areas. -/
structure CloneOk (c c' : Cloning) : Prop where
  src : SpaceOk c'.src.vm
  dst : SpaceOk c'.dst
  srcAreas : c'.src.vm.areas = c.src.vm.areas
  dstAreas : c'.dst.areas = c.dst.areas

lemma clonePage_ok (shared : Bool) {c : Cloning} (hs : SpaceOk c.src.vm) (hd : SpaceOk c.dst)
    (ha : a ∈ c.src.vm.areas) (ha1 : a.start ≤ va) (ha2 : va < a.stop) (hb : b ∈ c.dst.areas) (hb1 : b.start ≤ va)
    (hb2 : va < b.stop) (hprot : b.prot = a.prot) : CloneOk c (clonePage env shared va c).2 := by
  unfold clonePage
  dsimp only
  by_cases hz : (c.src.pte va).frame = 0
  · rw [if_pos hz]
    exact ⟨hs, hd, rfl, rfl⟩
  rw [if_neg hz]
  generalize hsrc : (if shared = false ∧ (c.src.pte va).cow = false
    then (c.src.setPte va { c.src.pte va with writable := false, cow := true }).invalidate va
    else c.src) = src
  have hsok : SpaceOk src.vm ∧ src.vm.areas = c.src.vm.areas := by
    rw [← hsrc]
    split
    · refine ⟨hs.setPage ha ha1 ha2 ⟨⟨fun h => absurd h hz, fun _ => ?_, nofun⟩, nofun⟩, rfl⟩
      exact (hs.pte _).user hz
    · exact ⟨hs, rfl⟩
  have hfit : Fits b (src.pte va) := by
    obtain ⟨h1, h2⟩ := hsok.1.fits (hsok.2 ▸ ha) ha1 ha2
    exact ⟨h1, fun hw => hprot ▸ h2 hw⟩
  split
  · exact ⟨hsok.1, hd.setPage hb hb1 hb2 hfit, hsok.2, rfl⟩
  · exact ⟨hsok.1, hd, hsok.2, rfl⟩

lemma clonePages_ok (shared : Bool) (hprot : b.prot = a.prot) : ∀ (l : List Nat) (c : Cloning), SpaceOk c.src.vm →
    SpaceOk c.dst → a ∈ c.src.vm.areas → b ∈ c.dst.areas →
    (∀ va ∈ l, a.start ≤ va ∧ va < a.stop ∧ b.start ≤ va ∧ va < b.stop) → CloneOk c (clonePages env shared l c).2 := by
  intro l
  induction l with
  | nil => exact fun c hs hd _ _ _ => ⟨hs, hd, rfl, rfl⟩
  | cons va rest ih =>
    intro c hs hd ha hb hl
    obtain ⟨h1, h2, h3, h4⟩ := hl va (by simp)
    have hpage := clonePage_ok env shared hs hd ha h1 h2 hb h3 h4 hprot
    unfold clonePages
    generalize clonePage env shared va c = r at hpage ⊢
    obtain ⟨_ | _, c'⟩ := r
    · refine ⟨?_, hpage.dst, ?_, hpage.dstAreas⟩
      · show SpaceOk (flushOthers c'.src).vm
        rw [flushOthers_vm]
        exact hpage.src
      show (flushOthers c'.src).vm.areas = _
      rw [flushOthers_vm]
      exact hpage.srcAreas
    · have := ih c' hpage.src hpage.dst (hpage.srcAreas ▸ ha) (hpage.dstAreas ▸ hb) fun va hva => hl va (by simp [hva])
      exact ⟨this.src, this.dst, this.srcAreas.trans hpage.srcAreas, this.dstAreas.trans hpage.dstAreas⟩

lemma mem_pages_bounds {s e : Nat} (h : va ∈ pages s e) : s ≤ va ∧ va < e := by
  obtain ⟨k, rfl, hlt⟩ := mem_pages.1 h
  exact ⟨by omega, hlt⟩

lemma cloneAreas_ok : ∀ (rest : List VmArea) (c : Cloning), SpaceOk c.src.vm → SpaceOk c.dst → AreasOk rest →
    (∀ a ∈ rest, a ∈ c.src.vm.areas) → (∀ d ∈ c.dst.areas, ∀ a ∈ rest, d.stop ≤ a.start) →
    SpaceOk (cloneAreas env rest c).2.src.vm ∧ SpaceOk (cloneAreas env rest c).2.dst := by
  intro rest
  induction rest with
  | nil => exact fun c hs hd _ _ _ => ⟨hs, hd⟩
  | cons a rest ih =>
    intro c hs hd hok hmem hbelow
    obtain ⟨haok, hlt, hrest, hrok⟩ := areasOk_cons.1 hok
    have ha := hmem a (by simp)
    unfold cloneAreas areaNew Mach.malloc
    cases env.malloc c.src.mc.tick with
    | false => exact ⟨hs, hd⟩
    | true =>
      dsimp only [areaSetFile]
      have hnw : a.flags.noWrite = true → a.prot.write = false :=
        hs.noWrite a.start (a.entry a.start) (entryAt_of_mem hs.areas.tiled ha le_rfl hlt)
      have hadd := hd.addArea (b := ⟨a.start, a.stop, a.prot, a.flags, a.file, a.offset⟩)
        ⟨haok.min, haok.limit, haok.start, haok.stop⟩ hlt
        (fun d hd' => .inl (hbelow d hd' a (by simp))) hnw
      generalize hc0 : (⟨_, _⟩ : Cloning) = c0
      have h0s : c0.src.vm = c.src.vm := by rw [← hc0]
      have h0d : c0.dst = { c.dst with
          areas := areaInsert ⟨a.start, a.stop, a.prot, a.flags, a.file, a.offset⟩ c.dst.areas } := by
        rw [← hc0]
      have hpg := clonePages_ok env a.flags.shared (a := a)
        (b := ⟨a.start, a.stop, a.prot, a.flags, a.file, a.offset⟩) rfl (pages a.start a.stop) c0
        (h0s ▸ hs) (h0d ▸ hadd) (h0s ▸ ha) (by rw [h0d]; exact mem_insert.2 (.inl rfl))
        (fun va hva => ⟨(mem_pages_bounds hva).1, (mem_pages_bounds hva).2, mem_pages_bounds hva⟩)
      generalize clonePages env a.flags.shared (pages a.start a.stop) c0 = r at hpg ⊢
      obtain ⟨_ | _, c1⟩ := r
      · exact ⟨hpg.src, hpg.dst⟩
      refine ih c1 hpg.src hpg.dst hrok ?_ ?_
      · intro x hx
        rw [hpg.srcAreas, h0s]
        exact hmem x (by simp [hx])
      intro d hd' x hx
      rw [hpg.dstAreas, h0d] at hd'
      rcases mem_insert.1 hd' with rfl | hd'
      · exact hrest x hx
      · exact hbelow d hd' x (by simp [hx])

lemma vmCreate_ok (mc : Mach) (h : (vmCreate env mc).1 = some vm) :
    vm = ⟨[], fun _ => Pte.zero, 1, 0, 0, userMmapBase, []⟩ := by
  unfold vmCreate Mach.malloc at h
  cases hm : env.malloc mc.tick with
  | false =>
    rw [hm] at h
    exact absurd h (by simp)
  | true =>
    rw [hm] at h
    dsimp only at h
    by_cases ht : env.tables (mc.tick + 1) = true
    · rw [if_pos ht] at h
      exact (some_inj.1 h).symm
    rw [if_neg ht] at h
    exact absurd h (by simp)

lemma spaceOk_empty (ha : vm.areas = []) (hb : vm.mmapBase = userMmapBase) (hp : vm.pageMap = fun _ => Pte.zero) :
    SpaceOk vm := by
  refine ⟨?_, hb, ?_, ?_, ?_⟩
  · rw [ha]
    exact ⟨tiled_nil, by simp⟩
  · rw [ha]
    intro va e he
    cases he
  · rw [hp]
    exact fun _ => pteOk_zero
  · rw [hp]
    exact fun _ hf => absurd rfl hf

/-- Cloning keeps the invariant of the source, and the copy has it. -/
lemma cloneLocked_ok (env : Env) (h : SpaceOk st.vm) :
    SpaceOk (cloneLocked env st).2.vm ∧ ∀ vm, (cloneLocked env st).1 = some vm → SpaceOk vm := by
  unfold cloneLocked
  rcases hc : vmCreate env st.mc with ⟨_ | vm, mc⟩
  · exact ⟨h, nofun⟩
  have hvm : vm = _ := vmCreate_ok env st.mc (by rw [hc])
  dsimp only
  have hloop := cloneAreas_ok env st.vm.areas ⟨{ st with mc := mc }, { vm with
      brkStart := st.vm.brkStart, brk := st.vm.brk, mmapBase := st.vm.mmapBase }⟩ h
    (spaceOk_empty (by rw [hvm]) h.base (by rw [hvm])) h.areas (fun a ha => ha)
    (by rw [hvm]; exact fun d hd => absurd hd (by simp))
  generalize cloneAreas env st.vm.areas _ = r at hloop ⊢
  obtain ⟨_ | _, c⟩ := r
  · exact ⟨hloop.1, nofun⟩
  refine ⟨?_, fun v hv => ?_⟩
  · show SpaceOk (flushOthers c.src).vm
    rw [flushOthers_vm]
    exact hloop.1
  · obtain rfl := some_inj.1 hv
    exact hloop.2

/-! ## Every run -/

lemma MapBy.flags_noWrite {caller : MapBy} (h : caller.flags prot = some flags) :
    flags.noWrite = true → prot.write = false := by
  cases caller with
  | mmap shared file =>
    dsimp only [MapBy.flags] at h
    by_cases hc : (shared && file == some false && prot.write) = true
    · rw [if_pos hc] at h
      cases h
    rw [if_neg hc] at h
    obtain rfl := some_inj.1 h
    intro hn
    change (shared && file == some false) = true at hn
    rw [hn, Bool.true_and] at hc
    exact Bool.eq_false_iff.2 hc
  | image | stack =>
    obtain rfl := some_inj.1 h
    exact nofun

lemma Call.apply_ok (c : Call) (h : SpaceOk st.vm) (hw : c.NoWrap st.vm) : SpaceOk (c.apply env st).vm := by
  cases c with
  | map addr len prot caller fixed =>
    dsimp only [Call.apply]
    rcases hf : caller.flags prot with - | flags
    · exact h
    refine (mapLocked_spec env addr.toNat len.toNat prot flags fixed h.areas h.base ?_).1.spaceOk h
      (MapBy.flags_noWrite hf)
    intro hs
    exact hw _ (if_pos hs)
  | unmap addr len => exact unmapLocked_ok env _ _ h
  | protect addr len prot => exact protectLocked_ok env _ _ _ h
  | discard addr len => exact discardLocked_ok _ _ h
  | brk newBrk => exact brkLocked_ok env _ h
  | setBrk start | drain | acquire => exact h.congr rfl rfl rfl
  | remap oldAddr oldLen newLen mayMove =>
    refine (remapLocked_spec env _ _ _ mayMove h ?_).spaceOk h (pageAlignUp_aligned _)
    intro hs
    exact hw _ (if_pos hs)
  | remapFixed oldAddr oldLen newLen mayMove newAddr =>
    rcases (remapFixedLocked_spec env oldAddr.toNat oldLen.toNat newLen.toNat mayMove newAddr.toNat h).1
      with ⟨e, -, hok⟩ | ⟨-, -, -, -, -, -, -, -, hm⟩
    · exact hok
    · exact hm.ok
  | sync addr len => exact syncLocked_ok env _ _ h
  | attachFile start file offset => exact attachFile_ok _ _ _ h
  | insertFrame va frame => exact (insertFrameLocked_ok env _ frame.2 h).1
  | fault addr wr => exact (faultLocked_ok env _ wr h).1
  | populate addr len wr => exact (populateLocked_ok env _ _ wr h).1
  | write addr src len => exact (writeFrom_ok env src _ _ _ _ _ h).1
  | store addr byte => exact userStore_ok _ _ h

lemma vmRelease_ok (mc : Mach) (h : SpaceOk vm) (hr : (vmRelease env vm mc).1 = some vm') : SpaceOk vm' := by
  unfold vmRelease at hr
  split at hr
  · obtain rfl := some_inj.1 hr
    exact h.congr rfl rfl rfl
  · exact absurd hr (by simp)

/-- Every address space has the invariant. -/
def World.Ok (w : World) : Prop := ∀ i vm, w.spaces i = some vm → SpaceOk vm

lemma World.Ok.set (h : w.Ok) {i : Nat} {vm : Option VmSpace} {mc : Mach} (hvm : ∀ v, vm = some v → SpaceOk v) :
    (w.set i vm mc).Ok := by
  exact (forall_update_iff w.spaces fun _ o => ∀ v, o = some v → SpaceOk v).2 ⟨hvm, fun j _ => h j⟩

lemma step_ok {l : Ev} (h : w.Ok) (hl : NoWrap w l) : (w.step l).Ok := by
  cases l with dsimp only [World.step]
  | create i env =>
    rcases hi : w.spaces i with - | vm
    · refine h.set fun v hv => ?_
      rw [vmCreate_ok env w.mc hv]
      exact spaceOk_empty rfl rfl rfl
    · exact h
  | call i env c =>
    rcases hi : w.spaces i with - | vm
    · exact h
    refine h.set fun v hv => ?_
    obtain rfl := some_inj.1 hv
    exact c.apply_ok env (h i vm hi) (hl vm hi)
  | clone i j env =>
    rcases hi : w.spaces i with - | vm
    · exact h
    rcases hj : w.spaces j with - | vm'
    · have hc := @cloneLocked_ok ⟨vm, w.mc⟩ env (h i vm hi)
      refine (h.set fun v hv => ?_).set hc.2
      obtain rfl := some_inj.1 hv
      exact hc.1
    · exact h
  | release i env =>
    rcases hi : w.spaces i with - | vm
    · exact h
    · exact h.set fun v hv => vmRelease_ok env w.mc (h i vm hi) hv

lemma reachable_ok (h : (system.restrict NoWrap).Reachable w) : w.Ok := by
  refine LTS.Inductive.reachable ⟨?_, ?_⟩ h
  · intro s hs i vm hi
    rw [hs.1 i] at hi
    cases hi
  · rintro s l t hs ⟨hl, rfl⟩
    exact step_ok hs hl

/-- In every run without a wrapping gap search the areas of every address
space lie in the user half, page-aligned and disjoint, the in-order sequence
is strictly increasing, and whatever shape the tree with that sequence has,
`area_at_or_after`, `vm_find` and `area_insert` find the right place in it. -/
theorem areas_sorted_disjoint {w : World} (h : (system.restrict NoWrap).Reachable w) {i : Nat}
    {vm : VmSpace} (hi : w.spaces i = some vm) :
    (∀ a ∈ vm.areas, userAddrMin ≤ a.start ∧ a.start < a.stop ∧ a.stop ≤ userAddrLimit ∧
      a.start % 4096 = 0 ∧ a.stop % 4096 = 0) ∧
    (∀ a ∈ vm.areas, ∀ b ∈ vm.areas, a ≠ b → a.stop ≤ b.start ∨ b.stop ≤ a.start) ∧
    vm.areas.Pairwise (fun a b => a.start < b.start) ∧
    (∀ t : Intervals.Tree VmArea, t.toList = vm.areas →
      (∀ addr a, t.search addr none = some a ↔ a ∈ vm.areas ∧ addr < a.stop ∧
        ∀ b ∈ vm.areas, addr < b.stop → a.start ≤ b.start) ∧
      (∀ addr, t.search addr none = areaAtOrAfter vm.areas addr) ∧
      (∀ b, (t.link b).toList = areaInsert b vm.areas)) ∧
    (∀ addr a, vmFind vm.areas addr = some a ↔ a ∈ vm.areas ∧ a.start ≤ addr ∧ addr < a.stop) := by
  have hok := (reachable_ok h i vm hi).areas
  refine ⟨?_, ?_, ?_, ?_, ?_⟩
  · intro a ha
    have := hok.area a ha
    exact ⟨this.min, hok.lt ha, this.limit, this.start, this.stop⟩
  · exact fun a ha b hb hne => hok.tiled.apart ha hb hne
  · refine hok.tiled.order.imp_of_mem ?_
    intro a b ha hb hle
    have := hok.tiled.proper a ha
    simp only [lo_area, hi_area] at this hle
    omega
  · intro t ht
    have htl : Tiled t.toList := ht ▸ hok.tiled
    have hsearch : ∀ addr, t.search addr none = areaAtOrAfter vm.areas addr := by
      intro addr
      rw [Intervals.Tree.search_eq addr t htl, or_none, ht]
      rfl
    refine ⟨?_, hsearch, ?_⟩
    · intro addr a
      rw [hsearch]
      exact firstAfter_eq_some hok.tiled
    intro b
    rw [Intervals.Tree.toList_link b t htl, ht]
    rfl
  · exact fun addr a => vmFind_eq_some hok.tiled

/-- A machine with 64 free pages, and allocators that never fail. -/
def bootWorld : World := ⟨fun _ => none, ⟨fun _ => false, fun _ => 0, 64, fun _ _ => 0, [], 0⟩⟩

def plenty : Env := ⟨fun _ => true, fun t => t + 1, fun _ => true⟩

lemma bootWorld_boot : bootWorld.Boot := ⟨fun _ => rfl, rfl, fun _ => rfl⟩

/-- An address space with one page mapped for writing, and the page touched. -/
def onePage : List Ev := [.create 0 plenty, .call 0 plenty (.map 0x40000000 4096 ⟨true, true, false⟩ .image true),
   .call 0 plenty (.fault 0x40000000 true)]

lemma onePage_reachable : (system.restrict NoWrap).Reachable (onePage.foldl World.step bootWorld) :=
  LTS.reachable_ofFn bootWorld_boot
    ⟨trivial, fun _ _ _ hl => absurd hl (by simp [Call.gapLen]), fun _ _ _ hl => absurd hl nofun, trivial⟩

/-- `onePage`, then two pages wherever `find_gap` puts them. -/
def twoAreas : List Ev := onePage ++ [.call 0 plenty (.map 0 8192 ⟨true, false, false⟩ (.mmap false none) false)]

lemma twoAreas_reachable : (system.restrict NoWrap).Reachable (twoAreas.foldl World.step bootWorld) := by
  refine LTS.reachable_ofFn bootWorld_boot
    ⟨trivial, fun _ _ _ hl => absurd hl (by simp [Call.gapLen]), fun _ _ _ hl => absurd hl nofun, ?_, trivial⟩
  intro vm hvm l hl
  obtain rfl := some_inj.1 hvm.symm
  obtain rfl := some_inj.1 hl.symm
  decide

theorem areas_sorted_disjoint_twoAreas : ∃ vm, (twoAreas.foldl World.step bootWorld).spaces 0 = some vm ∧
    vm.areas.map VmArea.start = [0x40000000, 0x300000000000] ∧ vm.areas.Pairwise (fun a b => a.start < b.start) :=
  ⟨_, rfl, by decide, (areas_sorted_disjoint twoAreas_reachable (i := 0) rfl).2.2.1⟩

/-- In every run without a wrapping gap search, an entry that holds a frame
lies in exactly one area; a writable one in an area that may be written, and
it is not copy-on-write. -/
theorem pte_area_agreement {w : World} (h : (system.restrict NoWrap).Reachable w) {i : Nat} {vm : VmSpace}
    (hi : w.spaces i = some vm) {n : Nat} (hf : (vm.pageMap n).frame ≠ 0) : ∃ a ∈ vm.areas,
    (a.start ≤ n * 4096 ∧ n * 4096 < a.stop) ∧ (∀ b ∈ vm.areas, b.start ≤ n * 4096 → n * 4096 < b.stop → b = a) ∧
    ((vm.pageMap n).writable = true → a.prot.write = true ∧ (vm.pageMap n).cow = false ∧ a.flags.noWrite = false) := by
  have hok := reachable_ok h i vm hi
  obtain ⟨e, he, hw⟩ := hok.inArea n hf
  obtain ⟨a, ha, h1, h2, rfl⟩ := (entryAt_eq_some hok.areas.tiled).1 he
  refine ⟨a, ha, ⟨h1, h2⟩, ?_, ?_⟩
  · intro b hb hb1 hb2
    exact hok.areas.eq_of_overlap hb ha (by omega) (by omega)
  intro hwr
  refine ⟨hw hwr, (hok.pte n).cow hwr, ?_⟩
  by_contra hc
  rw [Bool.not_eq_false] at hc
  have := hok.noWrite _ _ he hc
  rw [hw hwr] at this
  cases this

theorem pte_area_agreement_onePage : ∃ vm, (onePage.foldl World.step bootWorld).spaces 0 = some vm ∧
      (vm.pageMap 0x40000).writable = true ∧
      ∃ a ∈ vm.areas, a.start ≤ 0x40000 * 4096 ∧ 0x40000 * 4096 < a.stop ∧ a.prot.write = true := by
  refine ⟨_, rfl, by decide, ?_⟩
  obtain ⟨a, ha, h1, -, h2⟩ := pte_area_agreement onePage_reachable (i := 0) rfl (n := 0x40000) (by decide)
  exact ⟨a, ha, h1.1, h1.2, (h2 (by decide)).1⟩

/-! ## A gap search that wraps around

`find_gap` compares `candidate + len` with the next area and with the end
of the mmap range, and never asks whether the sum has wrapped. `sys_mmap`
refuses only lengths that wrap when rounded to pages, so a length close to
2^64 gets through: the sum is small, every comparison succeeds, and the
area made runs from `USER_MMAP_BASE` to a lower address. `mremap` reaches
the same search and moves page-table entries into such an area. -/

namespace Bugs

/-- `mmap(0, 0xFFFFFFFFFFFFF000, PROT_READ | PROT_WRITE, MAP_PRIVATE | MAP_ANONYMOUS)` -/
def hugeMap : List Ev := [.create 0 plenty,
   .call 0 plenty (.map 0 0xFFFFFFFFFFFFF000 ⟨true, true, false⟩ (.mmap false none) false)]

theorem hugeMap_inverted : ∃ w, system.Reachable w ∧ ∃ vm, w.spaces 0 = some vm ∧
    ∃ a ∈ vm.areas, a.start = 0x300000000000 ∧ a.stop = 0x2FFFFFFFF000 ∧ ¬ a.start < a.stop := by
  refine ⟨_, ⟨bootWorld, hugeMap, bootWorld_boot, LTS.run_ofFn _ _ _ _⟩, _, rfl, ?_⟩
  decide

/-- One page mapped and touched, then `mremap(0x40000000, 4096,
0xFFFFFFFFFFFFF000, MREMAP_MAYMOVE)`. -/
def hugeRemap : List Ev := onePage ++ [.call 0 plenty (.remap 0x40000000 4096 0xFFFFFFFFFFFFF000 true)]

/-- The entry is moved to `0x300000000000`, which no area contains. -/
theorem hugeRemap_orphan : ∃ w, system.Reachable w ∧ ∃ vm, w.spaces 0 = some vm ∧ (vm.pageMap 0x300000000).frame ≠ 0 ∧
    ∀ a ∈ vm.areas, ¬ (a.start ≤ 0x300000000 * 4096 ∧ 0x300000000 * 4096 < a.stop) := by
  refine ⟨_, ⟨bootWorld, hugeRemap, bootWorld_boot, LTS.run_ofFn _ _ _ _⟩, _, rfl, ?_, ?_⟩
  · decide
  · decide

end Bugs

end Hermes.L2.Vm
