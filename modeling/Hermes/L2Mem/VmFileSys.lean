import Hermes.L2Mem.VmFlush

/-!
# Shared file mappings over whole runs

The system of address spaces together with the file maps its calls are meant
to produce. In every run in which memory is found and no gap search wraps,
the areas say of each address what the file map says, unmapping, syncing
and releasing write every dirty page back before the area's reference goes,
and the references taken are those of the areas and of the queued releases.
-/
namespace Hermes.L2.Vm

open Hermes.Intervals Function List Option

/-! ## Cloning and releasing -/

def acquireOf (a : VmArea) : List Act := if a.file ≠ 0 then [.acquire a.file] else []

variable {f addr len : Nat} {vm : VmSpace} {w : World} {s : World × (Nat → FileMap)}

lemma acquires_acquireOf (hf : f ≠ 0) (L : List VmArea) :
    acquires f (L.flatMap acquireOf) = mapsOf f L ∧ releases f (L.flatMap acquireOf) = 0 := by
  induction L with
  | nil => exact ⟨rfl, rfl⟩
  | cons a L ih =>
    have ha := acquire_refs f hf a.file ⟨fun _ => false, fun _ => 0, 0, fun _ _ => 0, [], 0⟩
    have hacts : (if a.file ≠ 0 then (⟨fun _ => false, fun _ => 0, 0, fun _ _ => 0, [], 0⟩ : Mach).act
        (.acquire a.file) else ⟨fun _ => false, fun _ => 0, 0, fun _ _ => 0, [], 0⟩).acts =
        acquireOf a := by
      unfold acquireOf
      split <;> rfl
    rw [hacts] at ha
    rw [flatMap_cons, acquires_append, releases_append, ih.1, ih.2, mapsOf_cons, ha.1, ha.2]
    simp [acquires, releases, add_comm]

lemma clonePages_side (env : Env) (shared : Bool) (vas : List Nat) : ∀ c : Cloning,
    Still c.src (clonePages env shared vas c).2.src ∧ (clonePages env shared vas c).2.dst.layout = c.dst.layout ∧
      (clonePages env shared vas c).2.dst.pending = c.dst.pending := by
  induction vas with
  | nil => exact fun c => ⟨.refl _, rfl, rfl⟩
  | cons va rest ih =>
    intro c
    have hpage : Still c.src (clonePage env shared va c).2.src ∧
        (clonePage env shared va c).2.dst.layout = c.dst.layout ∧
        (clonePage env shared va c).2.dst.pending = c.dst.pending := by
      unfold clonePage
      dsimp only
      split
      · exact ⟨.refl _, rfl, rfl⟩
      have hsrc : Still c.src (if shared = false ∧ (c.src.pte va).cow = false then
          (c.src.setPte va { c.src.pte va with writable := false, cow := true }).invalidate va
          else c.src) :=
        Still.ite ((Still.setPte va _ _).trans (Still.invalidate va _)) (.refl _)
      generalize (if shared = false ∧ (c.src.pte va).cow = false then
        (c.src.setPte va { c.src.pte va with writable := false, cow := true }).invalidate va
        else c.src) = src at hsrc ⊢
      have htick := hsrc.trans (Still.tick (src.mc.tick + 1) src)
      split
      · refine ⟨htick.trans ⟨rfl, rfl, ?_⟩, rfl, rfl⟩
        dsimp only
        unfold Mach.sharePage
        split <;> rfl
      · exact ⟨htick, rfl, rfl⟩
    unfold clonePages
    generalize clonePage env shared va c = r at hpage ⊢
    obtain ⟨_ | _, c'⟩ := r
    · exact ⟨hpage.1.trans (Still.flushOthers _), hpage.2⟩
    obtain ⟨h1, h2, h3⟩ := ih c'
    exact ⟨hpage.1.trans h1, h2.trans hpage.2.1, h3.trans hpage.2.2⟩

variable {L : List VmArea} {S : Finset Nat} {i : Nat} {mc : Mach} {st st' : St}

section

variable {env : Env}

/-- An area behind all others is put at the end. -/
lemma areaInsert_last {a : VmArea} (h : ∀ x ∈ L, x.start ≤ a.start) : areaInsert a L = L ++ [a] := by
  unfold areaInsert
  induction L with
  | nil => rfl
  | cons x L ih =>
    unfold Intervals.insert
    rw [if_pos (show Interval.lo x ≤ Interval.lo a from h x (by simp)), ih fun y hy => h y (by simp [hy]), cons_append]

/-- The loop of `clone_locked` copies areas from the front, each with its
own reference. -/
lemma cloneAreas_side (env : Env) (rest : List VmArea) (hrest : Tiled rest) : ∀ c : Cloning,
    (∀ d ∈ c.dst.areas, ∀ a ∈ rest, d.start ≤ a.start) →
    ∃ taken, ((cloneAreas env rest c).1 = true → taken = rest) ∧
      (cloneAreas env rest c).2.src.vm.layout = c.src.vm.layout ∧
      (cloneAreas env rest c).2.src.vm.pending = c.src.vm.pending ∧
      (cloneAreas env rest c).2.dst.layout = { c.dst with areas := c.dst.areas ++ taken }.layout ∧
      (cloneAreas env rest c).2.dst.pending = c.dst.pending ∧
      fileActs (cloneAreas env rest c).2.src.mc.acts = fileActs c.src.mc.acts ++ taken.flatMap acquireOf := by
  induction rest with
  | nil =>
    intro c _
    exact ⟨[], fun _ => rfl, rfl, rfl, by rw [append_nil]; rfl, rfl, by simp [cloneAreas]⟩
  | cons a rest ih =>
    intro c hbelow
    obtain ⟨hlt, hafter, hrest'⟩ := tiled_cons.1 hrest
    unfold cloneAreas areaNew Mach.malloc
    cases env.malloc c.src.mc.tick with
    | false =>
      exact ⟨[], nofun, rfl, rfl, by rw [append_nil], rfl, by simp⟩
    | true =>
      dsimp only [areaSetFile]
      have hins := areaInsert_last fun d hd => hbelow d hd a (by simp)
      obtain ⟨mc, hmc⟩ : ∃ m : Mach, m = { c.src.mc with tick := c.src.mc.tick + 1 } := ⟨_, rfl⟩
      have hacts : fileActs (if a.file ≠ 0 then mc.act (.acquire a.file) else mc).acts =
          fileActs c.src.mc.acts ++ acquireOf a := by
        unfold acquireOf
        split <;> rw [hmc]
        · exact fileActs_append _ _
        exact (append_nil _).symm
      rw [← hmc]
      have hside := clonePages_side env a.flags.shared (pages a.start a.stop)
        ⟨{ c.src with mc := if a.file ≠ 0 then mc.act (.acquire a.file) else mc },
          { c.dst with areas := areaInsert a c.dst.areas }⟩
      generalize clonePages env a.flags.shared (pages a.start a.stop) _ = r at hside ⊢
      obtain ⟨h1, h2, h3⟩ := hside
      have hdst : r.2.dst.areas = c.dst.areas ++ [a] := (areas_of_layout h2).trans hins
      obtain ⟨_ | _, c'⟩ := r
      · refine ⟨[a], nofun, h1.layout, h1.pending, ?_, h3, ?_⟩
        · rw [← hins]
          exact h2
        rw [flatMap_singleton, ← hacts]
        exact h1.acts
      dsimp only at h1 h2 h3 hdst ⊢
      obtain ⟨taken, ht, g1, g2, g3, g4, g5⟩ := ih hrest' c' (by
        intro d hd b hb
        rw [hdst, mem_append, mem_singleton] at hd
        rcases hd with hd | rfl
        · exact hbelow d hd b (by simp [hb])
        have := hafter b hb
        simp only [lo_area, hi_area] at hlt this
        omega)
      refine ⟨a :: taken, fun hr => by rw [ht hr], g1.trans h1.layout, g2.trans h1.pending, ?_, g4.trans h3, ?_⟩
      · rw [g3, hdst, append_assoc, singleton_append]
        have := congrArg (fun vm : VmSpace => { vm with areas := c.dst.areas ++ a :: taken }) h2
        exact this
      · rw [g5, h1.acts, hacts, append_assoc, flatMap_cons]

lemma freeVm_acts (vm : VmSpace) (mc : Mach) : fileActs (freeVm vm mc).acts = fileActs mc.acts := by
  have hpage : ∀ mc vpn, fileActs (freeVmPage vm.pageMap mc vpn).acts = fileActs mc.acts := by
    intro mc vpn
    unfold freeVmPage
    split
    · exact (Still.freePage _ ⟨vm, mc⟩).acts
    · rfl
  exact foldl_keeps (g := fun mc : Mach => fileActs mc.acts) hpage _ mc

/-- The last release of an address space: what was queued, then each area's
dirty pages and its reference. -/
lemma vmRelease_acts (he : Ample env) (hc : vm.refCount ≤ 1) (mc : Mach) :
    (vmRelease env vm mc).1 = none ∧ fileActs (vmRelease env vm mc).2.acts = fileActs mc.acts ++
      (vm.pending ++ vm.areas.flatMap (lastFlushes vm.pageMap)).map Flush.act := by
  unfold vmRelease
  rw [if_neg (by omega)]
  refine ⟨rfl, ?_⟩
  have hq := queued_releaseAreas he vm.areas ⟨vm, mc⟩
  rw [freeVm_acts, runFlush_acts, hq.acts, hq.pending]

/-! ## References over all address spaces -/

def spaceRefs (f : Nat) (vm : Option VmSpace) : Nat := vm.elim 0 (VmSpace.refs f)

/-- No address space outside `S`. -/
def World.Within (w : World) (S : Finset Nat) : Prop := ∀ i ∉ S, w.spaces i = none

/-- Every reference to `f` is that of an area or of a queued release. -/
def World.Balanced (f : Nat) (w : World) : Prop := ∀ S, w.Within S →
    acquires f w.mc.acts = releases f w.mc.acts + ∑ i ∈ S, spaceRefs f (w.spaces i)

lemma sum_within {T : Finset Nat} (hS : w.Within S) (hST : S ⊆ T) :
    ∑ i ∈ T, spaceRefs f (w.spaces i) = ∑ i ∈ S, spaceRefs f (w.spaces i) := by
  refine (Finset.sum_subset hST fun i _ hi => ?_).symm
  rw [hS i hi]
  rfl

/-- One space changes, and what it accounts for with the calls made. -/
lemma World.Balanced.set (hb : w.Balanced f) {S₀ : Finset Nat} (h0 : w.Within S₀) {vm : Option VmSpace}
    (h : (acquires f mc.acts - releases f mc.acts - spaceRefs f vm : Int) =
      acquires f w.mc.acts - releases f w.mc.acts - spaceRefs f (w.spaces i)) :
    (w.set i vm mc).Balanced f := by
  intro S hS
  have hT : w.Within (insert i (S ∪ S₀)) := fun k hk => h0 k fun hc => hk (by simp [hc])
  have hsum := hb _ hT
  have hsum' := sum_within (f := f) hS (Finset.subset_insert i (S ∪ S₀) |>.trans' Finset.subset_union_left)
  rw [← hsum']
  have hi : i ∈ insert i (S ∪ S₀) := by simp
  rw [← Finset.add_sum_erase _ _ hi] at hsum ⊢
  have hrest : ∑ k ∈ (insert i (S ∪ S₀)).erase i, spaceRefs f ((w.set i vm mc).spaces k) =
      ∑ k ∈ (insert i (S ∪ S₀)).erase i, spaceRefs f (w.spaces k) := by
    apply Finset.sum_congr rfl
    intro k hk
    show spaceRefs f (update w.spaces i vm k) = _
    rw [update_of_ne (Finset.ne_of_mem_erase hk)]
  rw [hrest]
  show acquires f mc.acts = releases f mc.acts + (spaceRefs f (update w.spaces i vm i) + _)
  rw [update_self]
  omega

lemma World.Within.set (h : w.Within S) (i : Nat) (vm : Option VmSpace) (mc : Mach) :
    (w.set i vm mc).Within (insert i S) := by
  intro k hk
  show update w.spaces i vm k = none
  rw [update_of_ne (fun hc => hk (by simp [hc]))]
  exact h k fun hc => hk (by simp [hc])

/-- The last release drops every reference the space accounts for. -/
lemma vmRelease_refs (he : Ample env) (hf : f ≠ 0) (vm : VmSpace) (mc : Mach) :
    (acquires f (vmRelease env vm mc).2.acts - releases f (vmRelease env vm mc).2.acts
      - spaceRefs f (vmRelease env vm mc).1 : Int) =
      acquires f mc.acts - releases f mc.acts - vm.refs f := by
  by_cases hc : 1 < vm.refCount
  · unfold vmRelease
    rw [if_pos hc]
    rfl
  obtain ⟨h1, h2⟩ := vmRelease_acts he (Nat.le_of_not_lt hc) mc
  rw [h1, ← acquires_fileActs, ← releases_fileActs, h2, acquires_append, releases_append,
    acquires_fileActs, releases_fileActs, acquires_flush, releases_flush, queuedReleases_append,
    queuedReleases_lasts f hf]
  unfold spaceRefs VmSpace.refs
  simp only [elim_none]
  omega

/-- A clone takes a reference for each area of the copy; one that fails drops
them again. -/
lemma cloneLocked_refs (he : Ample env) (hf : f ≠ 0) (h : Tiled st.vm.areas) :
    (cloneLocked env st).2.vm.layout = st.vm.layout ∧ (cloneLocked env st).2.vm.pending = st.vm.pending ∧
      (∀ vm, (cloneLocked env st).1 = some vm → vm.areas = st.vm.areas) ∧
      (acquires f (cloneLocked env st).2.mc.acts - releases f (cloneLocked env st).2.mc.acts
        - spaceRefs f (cloneLocked env st).1 : Int) =
        acquires f st.mc.acts - releases f st.mc.acts := by
  unfold cloneLocked vmCreate Mach.malloc
  simp only [he.malloc, he.tables, if_true]
  obtain ⟨taken, htaken, h1, h2, h3, h4, h5⟩ := cloneAreas_side env st.vm.areas h
    ⟨{ st with mc := { st.mc with tick := st.mc.tick + 1 + 1 } },
      ⟨[], fun _ => Pte.zero, 1, st.vm.brkStart, st.vm.brk, st.vm.mmapBase, []⟩⟩
    (fun d hd => absurd hd (by simp))
  generalize cloneAreas env st.vm.areas _ = r at htaken h1 h2 h3 h4 h5 ⊢
  have hareas : r.2.dst.areas = taken := (areas_of_layout h3).trans (nil_append _)
  have hcount : (acquires f r.2.src.mc.acts - releases f r.2.src.mc.acts - r.2.dst.refs f : Int) =
      acquires f st.mc.acts - releases f st.mc.acts := by
    rw [← acquires_fileActs, ← releases_fileActs, h5, acquires_append, releases_append,
      acquires_fileActs, releases_fileActs, (acquires_acquireOf hf taken).1,
      (acquires_acquireOf hf taken).2]
    unfold VmSpace.refs
    rw [hareas, h4]
    simp only [queuedReleases, countP_nil]
    omega
  obtain ⟨_ | _, c⟩ := r
  · refine ⟨h1, h2, by simp, ?_⟩
    dsimp only at hcount ⊢
    rw [← hcount, ← vmRelease_refs he hf c.dst c.src.mc]
    have hrc : c.dst.refCount = 1 := congrArg VmSpace.refCount h3
    rw [(vmRelease_acts he (by omega) c.src.mc).1]
  have hs := Still.flushOthers c.src
  refine ⟨hs.layout.trans h1, hs.pending.trans h2, ?_, ?_⟩
  · intro vm hvm
    obtain rfl := some_inj.1 hvm
    rw [← htaken rfl]
    exact hareas
  · dsimp only at hcount ⊢
    rw [← acquires_fileActs, ← releases_fileActs, hs.acts, acquires_fileActs, releases_fileActs]
    exact hcount

/-! ## Writing back -/

lemma pages_append {s m e : Nat} (h1 : s ≤ m) (h2 : m ≤ e) (hm : (m - s) % 4096 = 0) :
    pages s e = pages s m ++ pages m e := by
  have hlen : (e - s + 4095) / 4096 = (m - s + 4095) / 4096 + (e - m + 4095) / 4096 := by omega
  unfold pages
  rw [hlen, range_add, map_append, List.map_map]
  congr 1
  apply map_congr_left
  simp only [comp]
  omega

/-- Rounding the end up adds no page. -/
lemma pages_rangeEnd (ha : addr % 4096 = 0) (h : addr + len + 4095 < 2 ^ 64) :
    pages addr (rangeEnd addr len) = pages addr (addr + len) := by
  have : (rangeEnd addr len - addr + 4095) / 4096 = (addr + len - addr + 4095) / 4096 := by
    unfold rangeEnd pageAlignUp wrap
    omega
  unfold pages
  rw [this]

/-- The write-back of the page at `va`, if it is a dirty page of a file. -/
def syncFlush (L : List VmArea) (pm : Nat → Pte) (va : Nat) : Option Flush :=
  (cover L va).bind fun a => if a.file ≠ 0 then dirtyFlush a pm va else none

lemma overAreas_end (visit : VmArea → Nat → Nat → St → St) (stop n : Nat) (st : St) :
    overAreas visit stop n stop st = (none, st) := by
  cases n with
  | zero => rfl
  | succ n =>
    unfold overAreas
    rw [if_neg (lt_irrefl stop)]

/-- The loop of `sync_locked`, given a turn for each area that ends after `va`. -/
lemma queued_sync (he : Ample env) {stop : Nat} (hstop : stop % 4096 = 0) (n : Nat) :
    ∀ (va : Nat) (st : St), va % 4096 = 0 → AreasOk st.vm.areas →
      (st.vm.areas.filter fun a => decide (va < a.stop)).length < n → va ≤ stop →
      (overAreas (fun a lo hi st => if a.file ≠ 0 then queueDirty env a lo hi true st else st) stop n va st).1 = none →
      Queued st (overAreas (fun a lo hi st => if a.file ≠ 0 then queueDirty env a lo hi true st else st)
        stop n va st).2 ((pages va stop).filterMap (syncFlush st.vm.areas st.vm.pageMap)) := by
  induction n with
  | zero => exact fun va st _ _ hn => absurd hn (Nat.not_lt_zero _)
  | succ n ih =>
    intro va st hva hok hn hle hr
    unfold overAreas at hr ⊢
    by_cases hlt : va < stop
    swap
    · rw [if_neg hlt]
      obtain rfl : va = stop := by omega
      rw [show pages va va = [] by simp [pages]]
      exact (Still.refl st).queued
    rw [if_pos hlt] at hr ⊢
    rcases hfind : vmFind st.vm.areas va with - | a
    · rw [hfind] at hr
      cases hr
    obtain ⟨ha, ha1, ha2⟩ := (vmFind_eq_some hok.tiled).1 hfind
    have hstopa := (hok.area a ha).stop
    rw [hfind] at hr
    dsimp only at hr ⊢
    have hm : min a.stop stop % 4096 = 0 := by omega
    -- this piece, then the rest of the range
    have hpiece : (pages va (min a.stop stop)).filterMap (syncFlush st.vm.areas st.vm.pageMap) =
        if a.file ≠ 0 then dirtyFlushes a st.vm.pageMap va (min a.stop stop) else [] := by
      have hcov : ∀ x ∈ pages va (min a.stop stop), syncFlush st.vm.areas st.vm.pageMap x =
          if a.file ≠ 0 then dirtyFlush a st.vm.pageMap x else none := by
        intro x hx
        obtain ⟨k, rfl, hxlt⟩ := mem_pages.1 hx
        have : cover st.vm.areas (va + 4096 * k) = some a :=
          (cover_eq_some hok.tiled).2 ⟨ha, by simp only [lo_area]; omega, by simp only [hi_area]; omega⟩
        unfold syncFlush
        rw [this, bind_some]
      rw [filterMap_congr hcov]
      by_cases hf : a.file ≠ 0
      · simp only [if_pos hf]
        rfl
      simp only [if_neg hf]
      exact filterMap_none _
    have hstep : Queued st (if a.file ≠ 0 then queueDirty env a va (min a.stop stop) true st else st)
        (if a.file ≠ 0 then dirtyFlushes a st.vm.pageMap va (min a.stop stop) else []) := by
      by_cases hf : a.file ≠ 0
      · rw [if_pos hf, if_pos hf]
        exact queued_dirty he a _ _ true st
      rw [if_neg hf, if_neg hf]
      exact (Still.refl st).queued
    have hpm : ∀ k, min a.stop stop ≤ k * 4096 →
        (if a.file ≠ 0 then queueDirty env a va (min a.stop stop) true st else st).vm.pageMap k = st.vm.pageMap k := by
      intro k hk
      by_cases hf : a.file ≠ 0
      · rw [if_pos hf, queueDirty_clear_pageMap env a hva, if_neg (by omega)]
      · rw [if_neg hf]
    generalize (if a.file ≠ 0 then queueDirty env a va (min a.stop stop) true st else st) = st1 at hstep hpm hr ⊢
    have hareas : st1.vm.areas = st.vm.areas := areas_of_layout hstep.layout
    rw [pages_append (by omega : va ≤ min a.stop stop) (by omega) (by omega), filterMap_append, hpiece]
    by_cases hend : stop ≤ a.stop
    · rw [min_eq_right hend, overAreas_end] at *
      rw [show pages stop stop = [] by simp [pages], filterMap_nil, append_nil]
      exact hstep
    have hrest := ih (min a.stop stop) st1 hm (hareas ▸ hok) (by
        have := fewer_after ha ha2
        rw [hareas, min_eq_left (by omega)]
        omega)
      (by omega) hr
    have hcongr : (pages (min a.stop stop) stop).filterMap (syncFlush st1.vm.areas st1.vm.pageMap) =
        (pages (min a.stop stop) stop).filterMap (syncFlush st.vm.areas st.vm.pageMap) := by
      apply filterMap_congr
      intro x hx
      obtain ⟨k, rfl, -⟩ := mem_pages.1 hx
      unfold syncFlush dirtyFlush
      rw [hareas, hpm _ (by omega)]
    rw [hcongr] at hrest
    exact hstep.trans hrest

/-- `range_isolate` acquires files, once for each piece it cuts off. -/
lemma isolateFrom_acts (env : Env) (start stop n : Nat) (L : List VmArea) (mc : Mach) : ∃ split : List Nat,
    fileActs (isolateFrom env start stop n L mc).2.2.acts = fileActs mc.acts ++ split.map Act.acquire := by
  refine @isolateFrom_rule env start stop (fun _ _ mc r => ∃ split : List Nat,
    fileActs r.2.2.acts = fileActs mc.acts ++ split.map Act.acquire) ?_ ?_ ?_ ?_ n L mc
  · exact fun _ _ _ _ => ⟨[], (append_nil _).symm⟩
  · exact fun _ _ _ _ _ => ⟨[], (append_nil _).symm⟩
  · rintro n a m rest mc r - - - ⟨l, hl⟩
    unfold areaSetFile at hl
    split at hl
    · refine ⟨a.file :: l, ?_⟩
      unfold Mach.act at hl
      rw [hl, fileActs_append, append_assoc]
      rfl
    · exact ⟨l, hl⟩
  · exact fun _ _ _ _ _ _ _ _ ih => ih

lemma drain_acts (st : St) : fileActs (drain st).mc.acts = fileActs st.mc.acts ++ st.vm.pending.map Flush.act :=
  runFlush_acts st.vm.pending st.mc

/-- The file calls between `acts` and `acts'` are those of giving up the areas
`gone`, which hold all of `[lo, hi)`: acquiring the pieces cut off around them,
what was queued before, and then area by area every dirty page, at its own
offset, and after those the release of the area's reference. -/
def WrittenBack (vm : VmSpace) (acts acts' : List Act) (lo hi : Nat) : Prop :=
  ∃ (split : List Nat) (gone : List VmArea), fileActs acts' = fileActs acts ++ split.map Act.acquire ++
      (vm.pending ++ gone.flatMap (lastFlushes vm.pageMap)).map Flush.act ∧
    ∀ va f off, lo ≤ va → va < hi → vm.files va = some (f, off) →
      ∃ a ∈ gone, a.start ≤ va ∧ va < a.stop ∧ a.file = f ∧ a.offsetAt va = off

lemma area_of_files (hL : Tiled L) (he : ∀ va, entryAt L va = entryAt vm.areas va) {va off : Nat}
    (h : vm.files va = some (f, off)) : ∃ a ∈ L, a.start ≤ va ∧ va < a.stop ∧ a.file = f ∧ a.offsetAt va = off := by
  unfold VmSpace.files at h
  rw [← he, map_eq_some_iff] at h
  obtain ⟨e, hent, hpair⟩ := h
  obtain ⟨a, ha, h1, h2, rfl⟩ := (entryAt_eq_some hL).1 hent
  obtain ⟨rfl, rfl⟩ := Prod.mk.inj hpair
  exact ⟨a, ha, h1, h2, rfl, rfl⟩

lemma vmUnmap_writes (he : Ample env) (h : SpaceOk st.vm) (hw : addr + len + 4095 < 2 ^ 64)
    (hr : vmUnmap env addr len st = (none, st')) : WrittenBack st.vm st.mc.acts st'.mc.acts addr (addr + len) := by
  unfold vmUnmap at hr
  obtain ⟨hnone, rfl⟩ := Prod.mk.inj hr
  obtain ⟨mid, hmid, hok, hc1, hc2, hareas, hpend, hacts⟩ := unmapLocked_side he h.areas hnone
  obtain ⟨split, hsplit⟩ := isolateFrom_acts env addr (rangeEnd addr len)
    (3 * (areasFrom st.vm.areas addr).length) (areasFrom st.vm.areas addr) st.mc
  have hmacts : fileActs mid.mc.acts = fileActs st.mc.acts ++ split.map Act.acquire := by
    rw [hmid]
    exact hsplit
  have hpm : mid.vm.pageMap = st.vm.pageMap := by rw [hmid]; rfl
  have hmp : mid.vm.pending = st.vm.pending := by rw [hmid]; rfl
  refine ⟨split, mid.vm.areas.filter (inRange addr (rangeEnd addr len)), ?_, ?_⟩
  · rw [drain_acts, hacts, hmacts, hpend, hmp, hpm]
  intro va f off h1 h2 hf
  have hent : ∀ va, entryAt mid.vm.areas va = entryAt st.vm.areas va := by
    rw [hmid]
    exact (rangeIsolate_pieces env h.areas.tiled).entry
  obtain ⟨a, ha, ha1, ha2, ha3, ha4⟩ := area_of_files hok.tiled hent hf
  refine ⟨a, mem_filter.2 ⟨ha, ?_⟩, ha1, ha2, ha3, ha4⟩
  -- no area reaches across the range's ends
  have hend : addr + len ≤ rangeEnd addr len := by
    unfold rangeEnd pageAlignUp wrap
    omega
  have := hc1 a ha
  unfold inRange
  rw [decide_eq_true_eq]
  omega

lemma vmRelease_writes (he : Ample env) (h : SpaceOk vm) (hc : vm.refCount ≤ 1) (mc : Mach) :
    WrittenBack vm mc.acts (vmRelease env vm mc).2.acts 0 userAddrLimit := by
  refine ⟨[], vm.areas, ?_, ?_⟩
  · rw [(vmRelease_acts he hc mc).2, map_nil, append_nil]
  intro va f off _ _ hf
  exact area_of_files h.areas.tiled (fun _ => rfl) hf

lemma vmSync_writes (he : Ample env) (h : SpaceOk st.vm)
    (hw : addr + len + 4095 < 2 ^ 64) (hr : vmSync env addr len st = (none, st')) :
    fileActs st'.mc.acts = fileActs st.mc.acts ++ (st.vm.pending ++ (pages addr (addr + len)).filterMap
        (syncFlush st.vm.areas st.vm.pageMap)).map Flush.act := by
  unfold vmSync at hr
  obtain ⟨hnone, rfl⟩ := Prod.mk.inj hr
  rw [drain_acts]
  unfold syncLocked at hnone ⊢
  by_cases hargs : addr % 4096 ≠ 0 ∨ pageAlignUp (wrap (addr + len)) < addr
  · simp only [hargs, if_true] at hnone
    cases hnone
  simp only [hargs, if_false] at hnone ⊢
  have hq := @queued_sync env he (pageAlignUp (wrap (addr + len))) (pageAlignUp_aligned _)
    (st.vm.areas.length + 1) addr st (by omega) h.areas
    (Nat.lt_succ_of_le (length_filter_le _ _)) (by omega)
  generalize overAreas _ _ _ _ _ = r at hq hnone ⊢
  obtain ⟨_ | e, st'⟩ := r
  swap
  · cases hnone
  have hs := (hq rfl).then_still (Still.shootdown st')
  rw [hs.acts, hs.pending, ← pages_rangeEnd (by omega) hw]
  rfl

end

/-! ## Runs -/

def Ev.env : Ev → Env
  | .create _ env | .call _ env _ | .clone _ _ env | .release _ env => env

/-- The address spaces with the file maps their calls are meant to produce. -/
def tracked : LTS (World × (Nat → FileMap)) Ev := LTS.ofFn (fun s => s.1.Boot) fun s l => (s.1.step l, track s.1 s.2 l)

/-- Memory is found, and no gap search wraps around. -/
def Careful (s : World × (Nat → FileMap)) (l : Ev) : Prop := NoWrap s.1 l ∧ Ample l.env

structure FileInv (s : World × (Nat → FileMap)) : Prop where
  ok : s.1.Ok
  files : ∀ i vm, s.1.spaces i = some vm → vm.files = s.2 i
  within : ∃ S, s.1.Within S
  balanced : ∀ f, f ≠ 0 → s.1.Balanced f

lemma boot_fileInv (h : s.1.Boot) : FileInv s := by
  obtain ⟨h1, h2, -⟩ := h
  refine ⟨fun i vm hi => ?_, fun i vm hi => ?_, ⟨∅, fun i _ => h1 i⟩, fun f _ S hS => ?_⟩
  · rw [h1] at hi
    cases hi
  · rw [h1] at hi
    cases hi
  · rw [h2, Finset.sum_eq_zero fun i _ => by rw [h1 i]; rfl]
    rfl

/-- A space and its file map change together. -/
lemma files_set {g : Nat → FileMap} (h : ∀ i vm, w.spaces i = some vm → vm.files = g i)
    {vm : Option VmSpace} {m : FileMap} (hm : ∀ v, vm = some v → v.files = m) :
    ∀ k v, (w.set i vm mc).spaces k = some v → v.files = update g i m k := by
  intro k v hk
  change update w.spaces i vm k = some v at hk
  by_cases hki : k = i
  · subst hki
    rw [update_self] at hk ⊢
    exact hm v hk
  · rw [update_of_ne hki] at hk ⊢
    exact h k v hk

lemma step_fileInv {l : Ev} (h : FileInv s) (hl : Careful s l) : FileInv (s.1.step l, track s.1 s.2 l) := by
  obtain ⟨w, g⟩ := s
  obtain ⟨hw, he⟩ := hl
  obtain ⟨hok, hfiles, ⟨S, hS⟩, hbal⟩ := h
  have hsame : (∀ i vm, w.spaces i = some vm → vm.files = g i) ∧ (∃ S, w.Within S) ∧ ∀ f, f ≠ 0 → w.Balanced f :=
    ⟨hfiles, ⟨S, hS⟩, hbal⟩
  suffices h : (∀ i vm, (w.step l).spaces i = some vm → vm.files = track w g l i) ∧ (∃ S, (w.step l).Within S) ∧
      ∀ f, f ≠ 0 → (w.step l).Balanced f from ⟨step_ok hok hw, h.1, h.2.1, h.2.2⟩
  dsimp only at hw hok hfiles hS hbal
  cases l with dsimp only [World.step, track, Ev.env] at he ⊢
  | create i env =>
    rcases hi : w.spaces i with - | vm
    · refine ⟨files_set hfiles fun v hv => ?_, ⟨_, hS.set _ _ _⟩, fun f hf => (hbal f hf).set hS ?_⟩
      · rw [vmCreate_ok env w.mc hv]
        rfl
      rw [hi]
      unfold vmCreate Mach.malloc
      simp only [he.malloc, he.tables, if_true]
      rfl
    · exact hsame
  | call i env c =>
    rcases hi : w.spaces i with - | vm
    · exact hsame
    have hvm := hok i vm hi
    refine ⟨files_set hfiles fun v hv => ?_, ⟨_, hS.set _ _ _⟩, fun f hf => (hbal f hf).set hS ?_⟩
    · obtain rfl := some_inj.1 hv
      rw [← hfiles i vm hi]
      exact c.track_files he hvm (hw vm hi)
    · rw [hi]
      exact c.due_apply he hf hvm
  | clone i j env =>
    rcases hi : w.spaces i with - | vm
    · exact hsame
    rcases hj : w.spaces j with - | vmj
    swap
    · exact hsame
    have hvm := hok i vm hi
    have hne : j ≠ i := fun hc => by rw [hc, hi] at hj; cases hj
    have hside := fun f (hf : f ≠ 0) => @cloneLocked_refs f ⟨vm, w.mc⟩ env he hf hvm.areas.tiled
    dsimp only
    obtain ⟨h1, h2, h3, -⟩ := hside 1 (by decide)
    have hareas : (cloneLocked env ⟨vm, w.mc⟩).2.vm.areas = vm.areas := areas_of_layout h1
    -- the source keeps what it accounts for; the copy brings its own
    have hset := @files_set w i (cloneLocked env ⟨vm, w.mc⟩).2.mc g hfiles
      (some (cloneLocked env ⟨vm, w.mc⟩).2.vm) (g i) (fun v hv => by
        obtain rfl := some_inj.1 hv
        rw [files_of_areas hareas, hfiles i vm hi])
    rw [update_eq_self] at hset
    refine ⟨files_set hset fun v hv => ?_, ⟨_, (hS.set _ _ _).set _ _ _⟩, fun f hf => ?_⟩
    · rw [files_of_areas (h3 v hv), ← hfiles i vm hi]
    have hb1 : (w.set i (some (cloneLocked env ⟨vm, w.mc⟩).2.vm) w.mc).Balanced f := by
      refine (hbal f hf).set hS ?_
      rw [hi]
      unfold spaceRefs VmSpace.refs
      simp only [elim_some]
      rw [hareas, h2]
    refine hb1.set (hS.set _ _ _) ?_
    show _ = (acquires f w.mc.acts - releases f w.mc.acts - spaceRefs f (update w.spaces i _ j) : Int)
    rw [update_of_ne hne, hj]
    refine (hside f hf).2.2.2.trans ?_
    exact (Int.sub_zero _).symm
  | release i env =>
    rcases hi : w.spaces i with - | vm
    · exact hsame
    have hset := @files_set w i (vmRelease env vm w.mc).2 g hfiles (vmRelease env vm w.mc).1 (g i) (fun v hv => by
        unfold vmRelease at hv
        split at hv
        · obtain rfl := some_inj.1 hv
          exact hfiles i vm hi
        · cases hv)
    rw [update_eq_self] at hset
    refine ⟨hset, ⟨_, hS.set _ _ _⟩, fun f hf => (hbal f hf).set hS ?_⟩
    rw [hi]
    exact vmRelease_refs he hf vm w.mc

lemma reachable_fileInv (h : (tracked.restrict Careful).Reachable s) : FileInv s := by
  refine LTS.Inductive.reachable ⟨fun s hs => boot_fileInv hs, ?_⟩ h
  rintro s l t hs ⟨hl, rfl⟩
  exact step_fileInv hs hl

/-- Shared file mappings, in every run that finds memory and whose gap
searches do not wrap: the areas give each address the file offset of the
file map; unmapping a range that does not wrap, the last release, and
syncing write every dirty page back at its own offset, before the reference
of its area is dropped; and the references taken are those of the live areas
and of the releases still queued. -/
theorem shared_file_mappings {w : World} {g : Nat → FileMap} (h : (tracked.restrict Careful).Reachable (w, g)) :
    (∀ i vm, w.spaces i = some vm → vm.files = g i) ∧
    (∀ i vm env, w.spaces i = some vm → Ample env → (∀ (addr len : UInt64) st', addr.toNat + len.toNat + 4095 < 2 ^ 64 →
        vmUnmap env addr.toNat len.toNat ⟨vm, w.mc⟩ = (none, st') →
        WrittenBack vm w.mc.acts st'.mc.acts addr.toNat (addr.toNat + len.toNat)) ∧
      (vm.refCount ≤ 1 → WrittenBack vm w.mc.acts (vmRelease env vm w.mc).2.acts 0 userAddrLimit) ∧
      (∀ (addr len : UInt64) st', addr.toNat + len.toNat + 4095 < 2 ^ 64 →
        vmSync env addr.toNat len.toNat ⟨vm, w.mc⟩ = (none, st') →
        fileActs st'.mc.acts = fileActs w.mc.acts ++
          (vm.pending ++ (pages addr.toNat (addr.toNat + len.toNat)).filterMap
            (syncFlush vm.areas vm.pageMap)).map Flush.act)) ∧
    (∀ f, f ≠ 0 → ∀ S : Finset Nat, (∀ i ∉ S, w.spaces i = none) →
      acquires f w.mc.acts = releases f w.mc.acts + ∑ i ∈ S, spaceRefs f (w.spaces i)) := by
  obtain ⟨hok, hfiles, -, hbal⟩ := reachable_fileInv h
  refine ⟨hfiles, ?_, fun f hf S hS => hbal f hf S hS⟩
  intro i vm env hi he
  have hvm : SpaceOk (St.mk vm w.mc).vm := hok i vm hi
  refine ⟨?_, fun hc => vmRelease_writes he hvm hc w.mc, ?_⟩
  · intro addr len st' hw hr
    exact vmUnmap_writes he hvm hw hr
  intro addr len st' hw hr
  exact vmSync_writes he hvm hw hr

/-- A shared page of file 7, mapped from offset `0x1000` on and written to. -/
def filePage : List Ev := [.create 0 plenty,
   .call 0 plenty (.map 0x40000000 4096 ⟨true, true, false⟩ (.mmap true (some true)) true),
   .call 0 plenty (.attachFile 0x40000000 7 0x1000),
   .call 0 plenty (.fault 0x40000000 true),
   .call 0 plenty (.store 0x40000000 0xAB)]

lemma plenty_ample : Ample plenty := ⟨fun _ => rfl, fun _ => rfl⟩

/-- `filePage`, with the file maps. -/
def filePageEnd : World × (Nat → FileMap) :=
  filePage.foldl (fun s l => (s.1.step l, track s.1 s.2 l)) (bootWorld, fun _ _ => none)

lemma filePage_reachable : (tracked.restrict Careful).Reachable filePageEnd := LTS.reachable_ofFn bootWorld_boot
    ⟨⟨trivial, plenty_ample⟩,
     ⟨fun _ _ _ hl => absurd hl (by simp [Call.gapLen]), plenty_ample⟩,
     ⟨fun _ _ _ hl => absurd hl nofun, plenty_ample⟩,
     ⟨fun _ _ _ hl => absurd hl nofun, plenty_ample⟩,
     ⟨fun _ _ _ hl => absurd hl nofun, plenty_ample⟩, trivial⟩

/-- Unmapping the page writes it at offset `0x1000` and releases the file. -/
theorem shared_file_mappings_filePage :
    ∃ vm, filePageEnd.1.spaces 0 = some vm ∧ vm.files 0x40000000 = some (7, 0x1000) ∧ vm.files = filePageEnd.2 0 ∧
      (vmUnmap plenty 0x40000000 4096 ⟨vm, filePageEnd.1.mc⟩).1 = none ∧
      WrittenBack vm filePageEnd.1.mc.acts (vmUnmap plenty 0x40000000 4096 ⟨vm, filePageEnd.1.mc⟩).2.mc.acts 0x40000000
        (0x40000000 + 4096) ∧
      fileActs (vmUnmap plenty 0x40000000 4096 ⟨vm, filePageEnd.1.mc⟩).2.mc.acts =
        [.acquire 7, .write 7 0x1000 4, .release 7] := by
  have h := shared_file_mappings (w := filePageEnd.1) (g := filePageEnd.2) filePage_reachable
  refine ⟨_, rfl, by decide, h.1 0 _ rfl, by decide, ?_, by decide +kernel⟩
  exact (h.2.1 0 _ plenty rfl plenty_ample).1 0x40000000 4096 _ (by decide) (Prod.ext (by decide) rfl)

/-! ## Dirty pages that are never written back

The two wraparounds of `vm.c` reach shared file mappings. `mremap` with a
length close to 2^64 moves a dirty page into an area that ends before it
begins: the page lies in no area any more, so `munmap` of the address it
was moved to reports success and hands nothing to the file. And `msync`
with a length whose end wraps to its start reports success with the dirty
page of its range unwritten. -/

namespace Bugs

/-- `filePage`, then `mremap(0x40000000, 4096, 0xFFFFFFFFFFFFF000, MREMAP_MAYMOVE)`. -/
def hugeFileRemap : List Ev := filePage ++ [.call 0 plenty (.remap 0x40000000 4096 0xFFFFFFFFFFFFF000 true)]

/-- In both cases the page of the range is dirty, the call succeeds, and the
file has seen no call but the `acquire` of its mapping. -/
theorem dirty_page_dropped : (∃ w vm, system.Reachable w ∧ w.spaces 0 = some vm ∧
      (vm.pageMap 0x300000000).frame ≠ 0 ∧ (vm.pageMap 0x300000000).dirty = true ∧
      (vmUnmap plenty 0x300000000000 4096 ⟨vm, w.mc⟩).1 = none ∧
      fileActs (vmUnmap plenty 0x300000000000 4096 ⟨vm, w.mc⟩).2.mc.acts = [.acquire 7]) ∧
    (∃ w vm, system.Reachable w ∧ w.spaces 0 = some vm ∧ vm.files 0x40000000 = some (7, 0x1000) ∧
      (vm.pageMap 0x40000).frame ≠ 0 ∧ (vm.pageMap 0x40000).dirty = true ∧
      (vmSync plenty 0x40000000 0xFFFFFFFFFFFFFFFF ⟨vm, w.mc⟩).1 = none ∧
      fileActs (vmSync plenty 0x40000000 0xFFFFFFFFFFFFFFFF ⟨vm, w.mc⟩).2.mc.acts = [.acquire 7]) := by
  refine ⟨⟨hugeFileRemap.foldl World.step bootWorld, _,
    ⟨bootWorld, hugeFileRemap, bootWorld_boot, LTS.run_ofFn _ _ _ _⟩, rfl, ?_⟩,
    ⟨filePage.foldl World.step bootWorld, _, ⟨bootWorld, filePage, bootWorld_boot, LTS.run_ofFn _ _ _ _⟩, rfl, ?_⟩⟩
  · decide
  · decide

end Bugs

end Hermes.L2.Vm
