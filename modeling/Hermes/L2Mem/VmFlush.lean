import Hermes.L2Mem.VmFileMap

/-!
# File references and write-back

A file is acquired once per area that maps it and released through the
queue when the area goes away, after the dirty pages of the area. `due` is
the difference between the references taken and those accounted for; no
call changes it. The queue is first in, first out, so the order in which
`queue_dirty` and `queue` fill it is the order of the calls on the file.
-/
namespace Hermes.L2.Vm

open Hermes.Intervals Function
open List hiding beq_eq_decide

/-- The file call an entry of the queue stands for. -/
def Flush.act (w : Flush) : Act :=
  if w.frame ≠ 0 then .write w.file w.offset w.frame else .release w.file

lemma runOne_acts (mc : Mach) (w : Flush) : fileActs (runOne mc w).acts = fileActs mc.acts ++ [w.act] := by
  unfold runOne Flush.act
  by_cases hf : w.frame ≠ 0
  · rw [if_pos hf, if_pos hf]
    have hs := Still.freePage w.frame ⟨⟨[], fun _ => Pte.zero, 0, 0, 0, 0, []⟩, mc.act (.write w.file w.offset w.frame)⟩
    refine hs.acts.trans ?_
    exact fileActs_append _ _
  · rw [if_neg hf, if_neg hf]
    exact fileActs_append _ _

/-- `run_flush` makes the calls of the queue in its order. -/
lemma runFlush_acts (ws : List Flush) (mc : Mach) :
    fileActs (runFlush ws mc).acts = fileActs mc.acts ++ ws.map Flush.act := by
  induction ws generalizing mc with
  | nil => exact (append_nil _).symm
  | cons w ws ih =>
    show fileActs (runFlush ws (runOne mc w)).acts = _
    rw [ih, runOne_acts, map_cons, append_assoc, singleton_append]

/-! ## What is queued -/

/-- The write-back of one page, if it is dirty. -/
def dirtyFlush (a : VmArea) (pm : Nat → Pte) (va : Nat) : Option Flush :=
  if (pm (va / 4096)).frame = 0 ∨ (pm (va / 4096)).dirty = false then none
  else some ⟨a.file, a.offsetAt va, (pm (va / 4096)).frame⟩

def dirtyFlushes (a : VmArea) (pm : Nat → Pte) (lo hi : Nat) : List Flush := (pages lo hi).filterMap (dirtyFlush a pm)

/-- What an area that goes away leaves in the queue: its dirty pages, then
its file reference. -/
def lastFlushes (pm : Nat → Pte) (a : VmArea) : List Flush :=
  if a.file ≠ 0 then dirtyFlushes a pm a.start a.stop ++ [⟨a.file, 0, 0⟩] else []

variable {a : VmArea} {st st' : St} {ws : List Flush}

lemma dirtyFlush_frame {pm : Nat → Pte} {va : Nat} {w : Flush} (h : dirtyFlush a pm va = some w) : w.frame ≠ 0 := by
  unfold dirtyFlush at h
  split at h
  · cases h
  rename_i hc
  obtain rfl := Option.some_inj.1 h
  exact fun h0 => hc (.inl h0)

/-- `queue` and `queue_dirty` make no call on a file. -/
structure Queued (st st' : St) (ws : List Flush) : Prop where
  layout : st'.vm.layout = st.vm.layout
  pending : st'.vm.pending = st.vm.pending ++ ws
  acts : fileActs st'.mc.acts = fileActs st.mc.acts

lemma Still.queued (h : Still st st') : Queued st st' [] := ⟨h.layout, by rw [h.pending, append_nil], h.acts⟩

lemma Queued.trans {a b c : St} {ws' : List Flush} (h : Queued a b ws) (h' : Queued b c ws') :
    Queued a c (ws ++ ws') :=
  ⟨h'.layout.trans h.layout, by rw [h'.pending, h.pending, append_assoc], h'.acts.trans h.acts⟩

lemma Queued.then_still {a b c : St} (h : Queued a b ws) (h' : Still b c) : Queued a c ws := by
  have := h.trans h'.queued
  rwa [append_nil] at this

section ample

variable {env : Env} (he : Ample env)
include he

lemma queued_queue (a : VmArea) (offset frame : Nat) (st : St) :
    Queued st (queue env a offset frame st) [⟨a.file, offset, frame⟩] := by
  unfold queue Mach.malloc
  simp only [he.malloc]
  exact ⟨rfl, rfl, rfl⟩

lemma queued_page (a : VmArea) (clear : Bool) (st : St) (va : Nat) :
    Queued st (queuePage env a clear st va) (dirtyFlush a st.vm.pageMap va).toList := by
  unfold queuePage dirtyFlush
  by_cases h : (st.pte va).frame = 0 ∨ (st.pte va).dirty = false
  · have h' : (st.vm.pageMap (va / 4096)).frame = 0 ∨ (st.vm.pageMap (va / 4096)).dirty = false := h
    simp only [h, h']
    exact (Still.refl st).queued
  have h' : ¬ ((st.vm.pageMap (va / 4096)).frame = 0 ∨ (st.vm.pageMap (va / 4096)).dirty = false) := h
  simp only [h, h']
  have hs : Still st { st with mc := st.mc.sharePage (st.pte va).frame } := by
    refine ⟨rfl, rfl, ?_⟩
    unfold Mach.sharePage
    split <;> rfl
  have hq := hs.queued.trans (queued_queue he a (a.offsetAt va) (st.pte va).frame
    { st with mc := st.mc.sharePage (st.pte va).frame })
  cases clear with
  | false => exact hq
  | true => exact hq.then_still ((Still.setPte va _ _).trans (Still.invalidate va _))

/-- The loop of `queue_dirty`: each page is looked at before it is touched. -/
lemma queued_pages (a : VmArea) (clear : Bool) (l : List Nat) (hl : (l.map (· / 4096)).Nodup) (st : St) :
    Queued st (l.foldl (queuePage env a clear) st) (l.filterMap (dirtyFlush a st.vm.pageMap)) := by
  induction l generalizing st with
  | nil => exact (Still.refl st).queued
  | cons va l ih =>
    rw [map_cons, nodup_cons] at hl
    have h1 := queued_page he a clear st va
    have h2 := ih hl.2 (queuePage env a clear st va)
    have hpm : ∀ n, n ≠ va / 4096 → (queuePage env a clear st va).vm.pageMap n = st.vm.pageMap n := by
      intro n hn
      cases clear with
      | false => rw [queuePage_pageMap]
      | true => rw [queuePage_clear_pageMap, update_of_ne hn]
    have hrest : l.filterMap (dirtyFlush a (queuePage env a clear st va).vm.pageMap) =
        l.filterMap (dirtyFlush a st.vm.pageMap) := by
      apply filterMap_congr
      intro x hx
      have hne : x / 4096 ≠ va / 4096 := fun hc => hl.1 (hc ▸ mem_map_of_mem hx)
      unfold dirtyFlush
      rw [hpm _ hne]
    rw [hrest] at h2
    have h3 := h1.trans h2
    rwa [show (dirtyFlush a st.vm.pageMap va).toList ++ l.filterMap (dirtyFlush a st.vm.pageMap) =
      (va :: l).filterMap (dirtyFlush a st.vm.pageMap) by
        rcases hd : dirtyFlush a st.vm.pageMap va with - | w <;> simp [hd]] at h3

lemma queued_dirty (a : VmArea) (lo hi : Nat) (clear : Bool) (st : St) :
    Queued st (queueDirty env a lo hi clear st) (dirtyFlushes a st.vm.pageMap lo hi) :=
  queued_pages he a clear _ (nodup_pages lo hi) st

lemma queued_releaseArea (st : St) (a : VmArea) : Queued st (releaseArea env st a) (lastFlushes st.vm.pageMap a) := by
  unfold releaseArea lastFlushes
  by_cases hf : a.file ≠ 0
  · rw [if_pos hf, if_pos hf]
    exact (queued_dirty he a _ _ false st).trans (queued_queue he a 0 0 _)
  rw [if_neg hf, if_neg hf]
  exact (Still.refl st).queued

omit he in
lemma releaseArea_pageMap (st : St) (a : VmArea) : (releaseArea env st a).vm.pageMap = st.vm.pageMap := by
  unfold releaseArea
  split
  · rw [queue_pageMap, queueDirty_pageMap]
  · rfl

lemma queued_releaseAreas (L : List VmArea) (st : St) :
    Queued st (L.foldl (releaseArea env) st) (L.flatMap (lastFlushes st.vm.pageMap)) := by
  induction L generalizing st with
  | nil => exact (Still.refl st).queued
  | cons a L ih =>
    have h := (queued_releaseArea he st a).trans (ih (releaseArea env st a))
    rwa [releaseArea_pageMap] at h

omit he in
/-- Only the area's own pages count. -/
lemma lastFlushes_congr {pm pm' : Nat → Pte} (ha : a.start % 4096 = 0)
    (h : ∀ n, a.start ≤ n * 4096 → n * 4096 < a.stop → pm' n = pm n) : lastFlushes pm' a = lastFlushes pm a := by
  unfold lastFlushes dirtyFlushes
  have : (pages a.start a.stop).filterMap (dirtyFlush a pm') = (pages a.start a.stop).filterMap (dirtyFlush a pm) := by
    apply filterMap_congr
    intro va hva
    obtain ⟨k, rfl, hlt⟩ := mem_pages.1 hva
    unfold dirtyFlush
    rw [h _ (by omega) (by omega)]
  rw [this]

/-- The loop of `unmap_locked` over the areas it removes. -/
lemma queued_unmapAreas (L : List VmArea) (hL : AreasOk L) (st : St) :
    Queued st (L.foldl (fun st a => unmapArea env a st) st) (L.flatMap (lastFlushes st.vm.pageMap)) := by
  induction L generalizing st with
  | nil => exact (Still.refl st).queued
  | cons a L ih =>
    obtain ⟨haok, -, hrest, hok⟩ := areasOk_cons.1 hL
    have h1 : Queued st (unmapArea env a st) (lastFlushes st.vm.pageMap a) :=
      (queued_releaseArea he st a).then_still (Still.freeFrames _ _ _)
    have h2 := h1.trans (ih hok (unmapArea env a st))
    have hrest' : L.flatMap (lastFlushes (unmapArea env a st).vm.pageMap) = L.flatMap (lastFlushes st.vm.pageMap) := by
      apply flatMap_congr
      intro b hb
      refine lastFlushes_congr (hok.area b hb).start fun n hn _ => ?_
      have := hrest b hb
      rw [unmapArea_pageMap env haok.start, if_neg (by omega)]
    rwa [hrest'] at h2

end ample

/-! ## References

`f` is a file; the null pointer is none. -/

def acquires (f : Nat) (acts : List Act) : Nat := acts.count (.acquire f)

def releases (f : Nat) (acts : List Act) : Nat := acts.count (.release f)

/-- The areas of `L` that map the file. -/
def mapsOf (f : Nat) (L : List VmArea) : Nat := L.countP fun a => decide (a.file = f)

/-- The queued releases of the file. -/
def queuedReleases (f : Nat) (ws : List Flush) : Nat := ws.countP fun w => decide (w.file = f ∧ w.frame = 0)

/-- The references an address space accounts for. -/
def VmSpace.refs (f : Nat) (vm : VmSpace) : Nat := mapsOf f vm.areas + queuedReleases f vm.pending

/-- References taken and not accounted for. -/
def due (f : Nat) (acts : List Act) (vm : VmSpace) : Int := acquires f acts - releases f acts - vm.refs f

section count

variable (f : Nat)

lemma acquires_append (l m : List Act) : acquires f (l ++ m) = acquires f l + acquires f m :=
  count_append

lemma releases_append (l m : List Act) : releases f (l ++ m) = releases f l + releases f m :=
  count_append

lemma acquires_fileActs (l : List Act) : acquires f (fileActs l) = acquires f l := count_filter rfl

lemma releases_fileActs (l : List Act) : releases f (fileActs l) = releases f l := count_filter rfl

lemma queuedReleases_append (l m : List Flush) :
    queuedReleases f (l ++ m) = queuedReleases f l + queuedReleases f m := countP_append

lemma mapsOf_append (l m : List VmArea) : mapsOf f (l ++ m) = mapsOf f l + mapsOf f m :=
  countP_append

lemma mapsOf_cons (a : VmArea) (l : List VmArea) : mapsOf f (a :: l) = mapsOf f l + if a.file = f then 1 else 0 := by
  simp [mapsOf, countP_cons]

lemma mapsOf_insert (a : VmArea) (l : List VmArea) :
    mapsOf f (areaInsert a l) = mapsOf f l + if a.file = f then 1 else 0 := by
  unfold areaInsert
  induction l with
  | nil => exact mapsOf_cons f a []
  | cons b l ih =>
    unfold Intervals.insert
    split
    · rw [mapsOf_cons, mapsOf_cons]
      omega
    · rw [mapsOf_cons]

lemma mapsOf_erase {l : List VmArea} (h : a ∈ l) :
    mapsOf f (l.erase a) + (if a.file = f then 1 else 0) = mapsOf f l := by
  rw [← mapsOf_cons]
  exact (perm_cons_erase h).symm.countP_eq _

lemma mapsOf_map {g : VmArea → VmArea} (h : ∀ x, (g x).file = x.file) (l : List VmArea) :
    mapsOf f (l.map g) = mapsOf f l := by
  unfold mapsOf
  rw [countP_map]
  simp only [comp_def, h]

lemma mapsOf_areaSet {a a' : VmArea} {l : List VmArea} (h : a'.file = a.file) :
    mapsOf f (areaSet l a a') = mapsOf f l := by
  refine mapsOf_map f (fun x => ?_) l
  split
  · rename_i hx
    rw [hx, h]
  · rfl

lemma mapsOf_filter (p : VmArea → Bool) (l : List VmArea) :
    mapsOf f (l.filter p) + mapsOf f (l.filter fun a => !p a) = mapsOf f l := by
  induction l with
  | nil => rfl
  | cons a l ih =>
    cases hp : p a with
    | true => simp only [filter_cons, hp, if_true, Bool.not_true, Bool.false_eq_true, if_false, mapsOf_cons]; omega
    | false => simp only [filter_cons, hp, Bool.not_false, if_true, Bool.false_eq_true, if_false, mapsOf_cons]; omega

lemma queuedReleases_dirty (a : VmArea) (pm : Nat → Pte) (lo hi : Nat) :
    queuedReleases f (dirtyFlushes a pm lo hi) = 0 := by
  rw [queuedReleases, countP_eq_zero]
  intro w hw hc
  obtain ⟨va, -, hva⟩ := mem_filterMap.1 hw
  exact dirtyFlush_frame hva (of_decide_eq_true hc).2

lemma queuedReleases_last (hf : f ≠ 0) (pm : Nat → Pte) (a : VmArea) :
    queuedReleases f (lastFlushes pm a) = if a.file = f then 1 else 0 := by
  unfold lastFlushes
  split
  · rw [queuedReleases_append, queuedReleases_dirty]
    simp [queuedReleases]
  rw [if_neg (by omega)]
  rfl

lemma queuedReleases_lasts (hf : f ≠ 0) (pm : Nat → Pte) (L : List VmArea) :
    queuedReleases f (L.flatMap (lastFlushes pm)) = mapsOf f L := by
  induction L with
  | nil => rfl
  | cons a L ih =>
    rw [flatMap_cons, queuedReleases_append, queuedReleases_last f hf, mapsOf_cons]
    omega

lemma acquires_flush (ws : List Flush) : acquires f (ws.map Flush.act) = 0 := by
  rw [acquires, count_eq_zero]
  intro hm
  obtain ⟨w, -, hw⟩ := mem_map.1 hm
  unfold Flush.act at hw
  split at hw <;> cases hw

lemma releases_flush (ws : List Flush) : releases f (ws.map Flush.act) = queuedReleases f ws := by
  unfold releases List.count
  rw [countP_map]
  congr 1
  funext w
  simp only [comp, Flush.act, beq_eq_decide]
  by_cases hw : w.frame = 0 <;> simp [hw]

/-- `if (a->file) a->fops->acquire(a->file)` -/
lemma acquire_refs (hf : f ≠ 0) (file : Nat) (mc : Mach) :
    acquires f (if file ≠ 0 then mc.act (.acquire file) else mc).acts =
      acquires f mc.acts + (if file = f then 1 else 0) ∧
    releases f (if file ≠ 0 then mc.act (.acquire file) else mc).acts = releases f mc.acts := by
  by_cases h0 : file = 0
  · rw [if_neg (not_not.2 h0), if_neg (by omega)]
    exact ⟨rfl, rfl⟩
  rw [if_pos h0]
  unfold Mach.act
  rw [acquires_append]
  unfold acquires releases
  rw [count_singleton]
  simp [beq_eq_decide]

end count

variable {f : Nat}

lemma due_queued (h : Queued st st' ws) :
    due f st'.mc.acts st'.vm = due f st.mc.acts st.vm - queuedReleases f ws := by
  unfold due VmSpace.refs
  rw [← acquires_fileActs, ← releases_fileActs, h.acts, acquires_fileActs, releases_fileActs,
    h.pending, areas_of_layout h.layout, queuedReleases_append]
  omega

/-- As many references are accounted for. -/
abbrev SameDue (f : Nat) (st st' : St) : Prop := due f st'.mc.acts st'.vm = due f st.mc.acts st.vm

lemma due_still (h : Still st st') : SameDue f st st' := by
  rw [SameDue, due_queued h.queued]
  exact Int.sub_zero _

/-- `drain` turns queued releases into releases. -/
lemma due_drain (f : Nat) (st : St) : SameDue f st (drain st) := by
  unfold SameDue due VmSpace.refs drain
  rw [← acquires_fileActs f (runFlush _ _).acts, ← releases_fileActs f (runFlush _ _).acts,
    runFlush_acts, acquires_append, releases_append, acquires_fileActs, releases_fileActs,
    acquires_flush, releases_flush]
  simp [queuedReleases]
  omega

/-- Every piece that `range_isolate` cuts off has its own reference. -/
lemma isolateFrom_refs (hf : f ≠ 0) (env : Env) (start stop n : Nat) (L : List VmArea) (mc : Mach) :
    (acquires f (isolateFrom env start stop n L mc).2.2.acts + mapsOf f L =
      acquires f mc.acts + mapsOf f (isolateFrom env start stop n L mc).2.1) ∧
    releases f (isolateFrom env start stop n L mc).2.2.acts = releases f mc.acts := by
  refine @isolateFrom_rule env start stop (fun _ L mc r => (acquires f r.2.2.acts + mapsOf f L =
    acquires f mc.acts + mapsOf f r.2.1) ∧ releases f r.2.2.acts = releases f mc.acts) ?_ ?_ ?_ ?_ n L mc
  · exact fun _ _ _ _ => ⟨rfl, rfl⟩
  · exact fun _ _ _ _ _ => ⟨rfl, rfl⟩
  · -- a cut leaves the lower piece in place and puts the upper one behind it
    intro n a m rest mc r _ _ _ ih
    have hacq := acquire_refs f hf a.file { mc with tick := mc.tick + 1 }
    have hl : (a.lower m).file = a.file := rfl
    have hu : (a.upper m).file = a.file := rfl
    rw [mapsOf_insert, hu] at ih
    rw [mapsOf_cons, mapsOf_cons, hl]
    dsimp only [areaSetFile] at ih hacq ⊢
    exact ⟨by omega, by omega⟩
  · intro n a rest mc r _ _ _ ih
    rw [mapsOf_cons, mapsOf_cons]
    exact ⟨by dsimp only; omega, ih.2⟩

lemma due_rangeIsolate (hf : f ≠ 0) (env : Env) (start stop : Nat) (st : St) :
    SameDue f st (rangeIsolate env start stop st).2 := by
  obtain ⟨h1, h2⟩ := isolateFrom_refs hf env start stop
    (3 * (areasFrom st.vm.areas start).length) (areasFrom st.vm.areas start) st.mc
  have hsplit := congrArg (mapsOf f) (areasBefore_append st.vm.areas start)
  rw [mapsOf_append] at hsplit
  unfold rangeIsolate SameDue due VmSpace.refs
  dsimp only
  rw [mapsOf_append]
  omega

/-- What `unmap_locked` does to the file side, once its range is cut out:
the areas of the range are gone, and the queue has what they leave. -/
lemma unmapLocked_side {env : Env} (he : Ample env) {addr len : Nat} (h : AreasOk st.vm.areas)
    (hr : (unmapLocked env addr len st).1 = none) :
    ∃ mid, mid = (rangeIsolate env addr (rangeEnd addr len) st).2 ∧ AreasOk mid.vm.areas ∧
      Clear mid.vm.areas addr ∧ Clear mid.vm.areas (rangeEnd addr len) ∧
      (unmapLocked env addr len st).2.vm.areas = mid.vm.areas.filter (fun a => !inRange addr (rangeEnd addr len) a) ∧
      (unmapLocked env addr len st).2.vm.pending = mid.vm.pending ++
        (mid.vm.areas.filter (inRange addr (rangeEnd addr len))).flatMap (lastFlushes mid.vm.pageMap) ∧
      fileActs (unmapLocked env addr len st).2.mc.acts = fileActs mid.mc.acts := by
  unfold unmapLocked at hr ⊢
  by_cases hargs : addr % 4096 ≠ 0 ∨ len = 0 ∨ rangeEnd addr len < addr
  · simp only [rangeEnd] at hargs
    simp only [hargs, if_true] at hr
    cases hr
  have hal : addr % 4096 = 0 := by omega
  have hle : addr ≤ rangeEnd addr len := by omega
  obtain ⟨L', mc', hst, hiso, hclear⟩ := rangeIsolate_spec env hal (rangeEnd_aligned addr len) hle h
  have hamp : (rangeIsolate env addr (rangeEnd addr len) st).1 = none := isolateFrom_ample env he _ _ _ _ _
  simp only [rangeEnd] at hargs hst hclear hamp hr ⊢
  simp only [hargs, if_false] at hr ⊢
  generalize rangeIsolate env addr (pageAlignUp (wrap (addr + len))) st = r at hst hclear hamp ⊢
  obtain ⟨_ | e, mid⟩ := r
  swap
  · cases hamp
  dsimp only at hst hclear ⊢
  have hL : mid.vm.areas = L' := by rw [hst]
  have hok : AreasOk mid.vm.areas := by rw [hL]; exact hiso.ok
  have hfrom := hok.areasFrom addr
  have hremoved : (areasFrom mid.vm.areas addr).filter (inRange addr (pageAlignUp (wrap (addr + len)))) =
      mid.vm.areas.filter (inRange addr (pageAlignUp (wrap (addr + len)))) := by
    conv_rhs => rw [← areasBefore_append mid.vm.areas addr, filter_append,
      filter_eq_nil_iff.2 fun a ha => by simp [not_inRange_before hok ha], nil_append]
  have hq := queued_unmapAreas he _
    (hfrom.sublist (filter_sublist (p := inRange addr (pageAlignUp (wrap (addr + len)))))) mid
  have htreats := unmapFrom_treats env addr (pageAlignUp (wrap (addr + len)))
  have hrun := htreats.eq hfrom mid
  rw [hremoved] at hq hrun
  rw [hrun]
  refine ⟨mid, rfl, hok, hL ▸ (hclear rfl).1, hL ▸ (hclear rfl).2, ?_, hq.pending, ?_⟩
  · exact (htreats.areas hok).trans (congrFun filterMap_eq_filter _)
  · exact (Still.shootdown _).acts.trans hq.acts

section ample

variable {env : Env} (he : Ample env) {f : Nat} (hf : f ≠ 0)
include he hf

lemma due_unmapLocked (addr len : Nat) (h : AreasOk st.vm.areas) : SameDue f st (unmapLocked env addr len st).2 := by
  rcases unmapLocked_spec env addr len h with ⟨st', hr, -⟩ | ⟨e, st', hr, -, hamp⟩
  · obtain ⟨mid, hmid, -, -, -, h1, h2, h3⟩ := unmapLocked_side he h (congrArg Prod.fst hr)
    have hiso := due_rangeIsolate hf env addr (rangeEnd addr len) st
    rw [← hmid] at hiso
    rw [SameDue, ← hiso]
    unfold due VmSpace.refs
    rw [← acquires_fileActs, ← releases_fileActs, h1, h2, h3, acquires_fileActs, releases_fileActs,
      queuedReleases_append, queuedReleases_lasts f hf]
    have := mapsOf_filter f (inRange addr (rangeEnd addr len)) mid.vm.areas
    omega
  · rw [hr, (hamp he).1]

lemma due_mapArea (start len : Nat) (prot : Prot) (flags : AreaFlags) (st : St) :
    SameDue f st (mapArea env start len prot flags st).2 := by
  unfold mapArea areaNew Mach.malloc
  simp only [he.malloc]
  unfold SameDue due VmSpace.refs
  dsimp only
  rw [mapsOf_insert, if_neg (by dsimp only; omega)]
  omega

lemma due_mapLocked (addr len : Nat) (prot : Prot) (flags : AreaFlags) (fixed : Bool) (h : AreasOk st.vm.areas) :
    SameDue f st (mapLocked env addr len prot flags fixed st).2 := by
  unfold mapLocked
  dsimp only
  split
  · rfl
  split
  · split
    · have hu := due_unmapLocked he hf addr (pageAlignUp len) h
      generalize unmapLocked env addr (pageAlignUp len) st = r at hu ⊢
      obtain ⟨_ | e, st'⟩ := r
      · exact (due_mapArea he hf _ _ _ _ st').trans hu
      · exact hu
    · rfl
  split
  · split
    · rfl
    · exact due_mapArea he hf _ _ _ _ st
  · exact due_mapArea he hf _ _ _ _ st

omit he in
lemma due_protectLocked (addr len : Nat) (prot : Prot) (h : AreasOk st.vm.areas) :
    SameDue f st (protectLocked env addr len prot st).2 := by
  unfold protectLocked
  dsimp only
  split
  · rfl
  rename_i hargs
  split
  · rfl
  split
  · rfl
  have hiso := due_rangeIsolate hf env addr (pageAlignUp (wrap (addr + len))) st
  obtain ⟨L', mc', hst, hcut, -⟩ := @rangeIsolate_spec env addr _ st (by omega)
    (pageAlignUp_aligned (wrap (addr + len))) (by omega) h
  generalize rangeIsolate env addr (pageAlignUp (wrap (addr + len))) st = r at hiso hst ⊢
  obtain ⟨_ | e, mid⟩ := r
  swap
  · exact hiso
  obtain rfl : mid = _ := hst
  have htreats := protectFrom_treats addr (pageAlignUp (wrap (addr + len))) prot
  dsimp only at hiso ⊢
  rw [SameDue, due_still (Still.shootdown _), ← hiso, htreats.eq (hcut.ok.areasFrom addr)]
  have hstill := Still.foldl (fun st a => Still.foldl (Still.protectPage prot) (pages a.start a.stop) st)
    ((areasFrom L' addr).filter (inRange addr (pageAlignUp (wrap (addr + len)))))
    ⟨{ st.vm with areas := L' }, mc'⟩
  rw [← due_still hstill]
  unfold due VmSpace.refs
  dsimp only
  rw [htreats.areas hcut.ok, filterMap_eq_map, mapsOf_map f, hstill.areas]
  intro x
  unfold VmArea.reprot
  split <;> rfl

lemma due_moveLocked (oldAddr len newAddr newLen : Nat) (h : Tiled st.vm.areas) :
    SameDue f st (moveLocked env oldAddr len newAddr newLen st).2 := by
  unfold moveLocked
  have hiso := due_rangeIsolate hf env oldAddr (wrap (oldAddr + len)) st
  have hp := @rangeIsolate_pieces env oldAddr (wrap (oldAddr + len)) st h
  generalize rangeIsolate env oldAddr (wrap (oldAddr + len)) st = r at hiso hp ⊢
  obtain ⟨_ | e, mid⟩ := r
  swap
  · exact hiso
  dsimp only at hiso hp ⊢
  rcases hfind : vmFind mid.vm.areas oldAddr with - | src
  · exact hiso
  obtain ⟨hsrc, -, -⟩ := (vmFind_eq_some hp.tiled).1 hfind
  simp only [areaNew, Mach.malloc, he.malloc]
  have ho := Still.moveOut env oldAddr newAddr (pages 0 len) { mid with mc := { mid.mc with tick := mid.mc.tick + 1 } }
  have hn := moveOut_ample he oldAddr newAddr (pages 0 len) { mid with mc := { mid.mc with tick := mid.mc.tick + 1 } }
  generalize moveOut env oldAddr newAddr (pages 0 len) _ = r at ho hn ⊢
  obtain ⟨_ | off, st2⟩ := r
  swap
  · cases hn
  rw [SameDue, due_still (Still.shootdown _), ← hiso, ← due_still ho]
  have hmem : src ∈ st2.vm.areas := by rw [ho.areas]; exact hsrc
  have hera := mapsOf_erase f hmem
  unfold due VmSpace.refs
  rw [mapsOf_insert]
  dsimp only
  omega

omit he hf in
lemma due_grow (a : VmArea) (e : Nat) (acts : List Act) (vm : VmSpace) :
    due f acts { vm with areas := areaSet vm.areas a { a with stop := e } } = due f acts vm := by
  unfold due VmSpace.refs
  dsimp only
  rw [@mapsOf_areaSet f a { a with stop := e } vm.areas rfl]

lemma due_remapLocked (oldAddr oldLen newLen : Nat) (mayMove : Bool) (h : AreasOk st.vm.areas) :
    SameDue f st (remapLocked env oldAddr oldLen newLen mayMove st).2 := by
  unfold remapLocked
  dsimp only
  split
  · rfl
  rcases vmFind st.vm.areas oldAddr with - | a
  · rfl
  dsimp only
  split
  · rfl
  split
  · split
    · have hu := due_unmapLocked he hf (oldAddr + pageAlignUp newLen) (pageAlignUp oldLen - pageAlignUp newLen) h
      generalize unmapLocked env _ _ st = r at hu ⊢
      obtain ⟨_ | e, st'⟩ := r <;> exact hu
    · rfl
  split
  · exact due_grow a _ _ _
  split
  · rfl
  split
  · rfl
  have hm := due_moveLocked he hf oldAddr (pageAlignUp oldLen) (findGap st.vm (pageAlignUp newLen))
    (pageAlignUp newLen) h.tiled
  generalize moveLocked env _ _ _ _ st = r at hm ⊢
  obtain ⟨_ | e, st'⟩ := r <;> exact hm

omit he hf in
lemma unmapLocked_areasOk (addr len : Nat) {st : St} (h : AreasOk st.vm.areas) :
    AreasOk (unmapLocked env addr len st).2.vm.areas := by
  rcases unmapLocked_spec env addr len h with ⟨_, hr, -, -, -, hu⟩ | ⟨_, _, hr, hc, -⟩ <;> rw [hr]
  · exact hu.ok
  exact hc.areas.ok

lemma due_remapFixedLocked (oldAddr oldLen newLen : Nat) (mayMove : Bool) (newAddr : Nat) (h : AreasOk st.vm.areas) :
    SameDue f st (remapFixedLocked env oldAddr oldLen newLen mayMove newAddr st).2 := by
  unfold remapFixedLocked
  dsimp only
  split
  · rfl
  split
  · rfl
  rcases vmFind st.vm.areas oldAddr with - | a
  · rfl
  dsimp only
  split
  · rfl
  have hu := due_unmapLocked he hf newAddr (pageAlignUp newLen) h
  have hok := @unmapLocked_areasOk env newAddr (pageAlignUp newLen) st h
  generalize unmapLocked env newAddr (pageAlignUp newLen) st = r at hu hok ⊢
  obtain ⟨_ | e, st1⟩ := r
  swap
  · exact hu
  dsimp only at hu hok ⊢
  generalize hif : (if pageAlignUp newLen < pageAlignUp oldLen then unmapLocked env
    (oldAddr + pageAlignUp newLen) (pageAlignUp oldLen - pageAlignUp newLen) st1 else (none, st1)) = r
  have hcut : due f r.2.mc.acts r.2.vm = due f st1.mc.acts st1.vm ∧ AreasOk r.2.vm.areas := by
    rw [← hif]
    split
    · exact ⟨due_unmapLocked he hf _ _ hok, unmapLocked_areasOk _ _ hok⟩
    · exact ⟨rfl, hok⟩
  obtain ⟨_ | e, st2⟩ := r
  swap
  · exact hcut.1.trans hu
  have hm := due_moveLocked he hf oldAddr (min (pageAlignUp oldLen) (pageAlignUp newLen)) newAddr
    (pageAlignUp newLen) hcut.2.tiled
  dsimp only at hm ⊢
  generalize moveLocked env _ _ _ _ st2 = r at hm ⊢
  obtain ⟨_ | e, st3⟩ := r <;> exact hm.trans (hcut.1.trans hu)

lemma due_brkLocked (newBrk : Nat) (h : AreasOk st.vm.areas) : SameDue f st (brkLocked env newBrk st) := by
  unfold brkLocked
  split
  · rfl
  dsimp only
  split
  · split
    · rfl
    rcases heapArea st.vm (pageAlignUp st.vm.brk) with - | a
    · have hm := due_mapLocked he hf (pageAlignUp st.vm.brk)
        (pageAlignUp newBrk - pageAlignUp st.vm.brk) ⟨true, true, false⟩ ⟨false, true, false, false⟩
        true h
      generalize mapLocked env _ _ _ _ true st = r at hm ⊢
      obtain ⟨e | start, st'⟩ := r <;> exact hm
    · exact due_grow a _ st.mc.acts st.vm
  split
  · exact due_unmapLocked he hf _ _ h
  · rfl

omit he in
lemma due_attachFile (start file offset : Nat) (h : AreasOk st.vm.areas) :
    SameDue f st (attachFile start file offset st).2 := by
  unfold attachFile
  rcases hfind : vmFind st.vm.areas start with - | a
  · rfl
  obtain ⟨ha, -, -⟩ := (vmFind_eq_some h.tiled).1 hfind
  dsimp only
  split
  swap
  · rfl
  rename_i hc
  -- one area changes, and it had no file before
  have hset : mapsOf f (areaSet st.vm.areas a { a with file := file, offset := offset }) =
      mapsOf f st.vm.areas + if file = f then 1 else 0 := by
    obtain ⟨l, m, hlm⟩ := append_of_mem ha
    have hnd := h.tiled.nodup
    have hout : ∀ x ∈ l ++ m, (if x = a then { a with file := file, offset := offset } else x) = x := by
      intro x hx
      rw [if_neg]
      rintro rfl
      rw [hlm, nodup_middle, nodup_cons] at hnd
      exact hnd.1 hx
    unfold areaSet
    rw [hlm, map_append, map_cons, if_pos rfl, map_congr_left fun x hx => hout x (mem_append_left m hx),
      map_congr_left fun x hx => hout x (mem_append_right l hx), map_id', map_id',
      mapsOf_append, mapsOf_append, mapsOf_cons, mapsOf_cons]
    dsimp only
    rw [if_neg (by omega : ¬ a.file = f)]
    omega
  unfold SameDue due VmSpace.refs St.act Mach.act
  dsimp only
  rw [hset, acquires_append, releases_append]
  unfold acquires releases
  rw [count_singleton, count_singleton]
  by_cases hff : file = f
  · simp [hff]
    omega
  · simp [hff, beq_eq_decide]

omit hf in
/-- `sync` only queues pages. -/
lemma due_syncLocked (addr len : Nat) (h : AreasOk st.vm.areas) : SameDue f st (syncLocked env addr len st).2 := by
  refine (@syncLocked_keeps (fun s => AreasOk s.vm.areas ∧ SameDue f st s) (fun _ hs => hs.1)
    (fun s hs => ⟨hs.1, (due_still (.shootdown s)).trans hs.2⟩) env ?_ addr len st ⟨h, rfl⟩).2
  intro a lo hi s _ hs
  refine ⟨areas_of_layout (queueDirty_layout env a lo hi true s) ▸ hs.1, ?_⟩
  rw [SameDue, due_queued (queued_dirty he a _ _ true s), queuedReleases_dirty, hs.2]
  exact Int.sub_zero _

/-- No call takes or drops a reference that it does not account for. -/
lemma Call.due_apply (c : Call) (h : SpaceOk st.vm) : SameDue f st (c.apply env st) := by
  cases c with
  | map addr len prot caller fixed =>
    dsimp only [Call.apply]
    rcases caller.flags prot with - | flags
    · rfl
    · exact due_mapLocked he hf _ _ _ _ _ h.areas
  | unmap addr len => exact due_unmapLocked he hf _ _ h.areas
  | protect addr len prot => exact due_protectLocked hf _ _ _ h.areas
  | discard addr len => exact due_still (Still.discardLocked _ _ h.areas)
  | brk newBrk => exact due_brkLocked he hf _ h.areas
  | setBrk start => rfl
  | remap oldAddr oldLen newLen mayMove => exact due_remapLocked he hf _ _ _ _ h.areas
  | remapFixed oldAddr oldLen newLen mayMove newAddr => exact due_remapFixedLocked he hf _ _ _ _ _ h.areas
  | sync addr len => exact due_syncLocked he _ _ h.areas
  | attachFile start file offset => exact due_attachFile hf _ _ _ h.areas
  | insertFrame va frame => exact due_still (insertFrameLocked_ok env _ frame.2 h).2.toStill
  | fault addr wr => exact due_still (faultLocked_ok env _ wr h).2.toStill
  | populate addr len wr => exact due_still (populateLocked_ok env _ _ wr h).2.toStill
  | write addr src len => exact due_still (writeFrom_ok env src _ _ _ _ _ h).2.toStill
  | drain => exact due_drain f st
  | acquire => rfl
  | store addr byte => exact due_still (Still.userStore _ byte st)

end ample

end Hermes.L2.Vm
