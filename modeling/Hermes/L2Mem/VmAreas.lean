import Hermes.L2Mem.VmSys

/-!
# What the calls do to the areas

`AreasOk` is the shape the searches rely on: areas inside the user half,
page-aligned, in address order and disjoint. `entryAt` reads the areas as a
map from addresses to what is mapped there. Each function of `vm.c` that
touches the areas gets one lemma: it keeps `AreasOk`, and this is what it
does to `entryAt`.
-/
namespace Hermes.L2.Vm

open Hermes.Intervals List

@[simp] lemma lo_area (a : VmArea) : Interval.lo a = a.start := rfl
@[simp] lemma hi_area (a : VmArea) : Interval.hi a = a.stop := rfl

structure AreaOk (a : VmArea) : Prop where
  min : userAddrMin ≤ a.start
  limit : a.stop ≤ userAddrLimit
  start : a.start % 4096 = 0
  stop : a.stop % 4096 = 0

structure AreasOk (L : List VmArea) : Prop where
  tiled : Tiled L
  area : ∀ a ∈ L, AreaOk a

/-- What is mapped at an address: protection, flags, file and file offset. -/
structure Entry where
  prot : Prot
  flags : AreaFlags
  file : Nat
  offset : Nat
deriving DecidableEq, Repr

def VmArea.entry (a : VmArea) (va : Nat) : Entry := ⟨a.prot, a.flags, a.file, a.offsetAt va⟩

def entryAt (L : List VmArea) (va : Nat) : Option Entry := (cover L va).map (·.entry va)

/-! ## Arithmetic of the word -/

variable {x : Nat} {b : VmArea}

lemma wrap_of_lt (h : x < 2 ^ 64) : wrap x = x := Nat.mod_eq_of_lt h

lemma wrap_lt (x : Nat) : wrap x < 2 ^ 64 := Nat.mod_lt _ (by decide)

lemma pageAlignUp_aligned (x : Nat) : pageAlignUp x % 4096 = 0 := by
  unfold pageAlignUp
  omega

lemma pageAlignUp_of_aligned {x : Nat} (h : x % 4096 = 0) (hx : x < 2 ^ 64) : pageAlignUp x = x := by
  unfold pageAlignUp wrap
  omega

lemma pageAlignUp_lt (x : Nat) : pageAlignUp x < 2 ^ 64 := by
  have := wrap_lt (x + 4095)
  unfold pageAlignUp
  omega

lemma pageAlignUp_bounds (h : x + 4095 < 2 ^ 64) : x ≤ pageAlignUp x ∧ pageAlignUp x < x + 4096 := by
  unfold pageAlignUp wrap
  omega

variable {a : VmArea} {va addr m : Nat} {L M : List VmArea}

lemma offsetAt_shift {at' : Nat} (h : a.start ≤ at') (h' : at' ≤ va) :
    wrap (a.offsetAt at' + (va - at')) = a.offsetAt va := by
  unfold VmArea.offsetAt wrap
  omega

/-! ## Reading tiled areas -/

lemma vmFind_eq_cover (h : Tiled L) (addr : Nat) : vmFind L addr = cover L addr := by
  unfold vmFind areaAtOrAfter
  rcases hf : firstAfter L addr with - | a
  · symm
    rw [cover_eq_none]
    intro x hx _
    exact firstAfter_eq_none.1 hf x hx
  obtain ⟨ha, hlt, hmin⟩ := (firstAfter_eq_some h).1 hf
  by_cases hs : a.start ≤ addr
  · simp only [hs]
    exact ((cover_eq_some h).2 ⟨ha, hs, hlt⟩).symm
  simp only [hs, if_false]
  symm
  rw [cover_eq_none]
  intro x hx hle
  by_contra hc
  have := hmin x hx (by simpa using hc)
  simp only [lo_area] at this hle
  omega

lemma vmFind_eq_some (h : Tiled L) : vmFind L addr = some a ↔ a ∈ L ∧ a.start ≤ addr ∧ addr < a.stop := by
  rw [vmFind_eq_cover h, cover_eq_some h]
  rfl

lemma vmRangeFree_iff (h : Tiled L) {s e : Nat} : vmRangeFree L s e = true ↔ ∀ a ∈ L, a.stop ≤ s ∨ e ≤ a.start := by
  refine Iff.trans ?_ (firstAfter_free h)
  unfold vmRangeFree areaAtOrAfter
  rcases firstAfter L s with - | a <;> simp

lemma entryAt_nil (va : Nat) : entryAt [] va = none := rfl

lemma entryAt_cons (a : VmArea) (L : List VmArea) (va : Nat) :
    entryAt (a :: L) va = if a.start ≤ va ∧ va < a.stop then some (a.entry va) else entryAt L va := by
  unfold entryAt cover
  by_cases h : a.start ≤ va ∧ va < a.stop
  · rw [List.find?_cons_of_pos (by simpa using h), if_pos h, Option.map_some]
  · rw [List.find?_cons_of_neg (by simpa using h), if_neg h]

lemma entryAt_append (L M : List VmArea) (va : Nat) : entryAt (L ++ M) va = (entryAt L va).or (entryAt M va) := by
  unfold entryAt cover
  rw [List.find?_append]
  rcases L.find? _ <;> simp

lemma entryAt_eq_some (h : Tiled L) {e : Entry} :
    entryAt L va = some e ↔ ∃ a ∈ L, a.start ≤ va ∧ va < a.stop ∧ a.entry va = e := by
  unfold entryAt
  rw [Option.map_eq_some_iff]
  constructor
  · rintro ⟨a, ha, rfl⟩
    obtain ⟨hm, h1, h2⟩ := (cover_eq_some h).1 ha
    exact ⟨a, hm, h1, h2, rfl⟩
  · rintro ⟨a, hm, h1, h2, rfl⟩
    exact ⟨a, (cover_eq_some h).2 ⟨hm, h1, h2⟩, rfl⟩

lemma entryAt_eq_none : entryAt L va = none ↔ ∀ a ∈ L, a.start ≤ va → a.stop ≤ va := by
  unfold entryAt
  rw [Option.map_eq_none_iff, cover_eq_none]
  rfl

lemma entryAt_of_mem (h : Tiled L) (ha : a ∈ L) (h1 : a.start ≤ va) (h2 : va < a.stop) :
    entryAt L va = some (a.entry va) :=
  (entryAt_eq_some h).2 ⟨a, ha, h1, h2, rfl⟩

/-- Areas that hold `va` alike map it alike. -/
lemma entryAt_congr (h : Tiled L) (h' : Tiled M)
    (hm : ∀ a : VmArea, a.start ≤ va → va < a.stop → (a ∈ L ↔ a ∈ M)) : entryAt L va = entryAt M va := by
  apply Option.ext
  intro e
  rw [entryAt_eq_some h, entryAt_eq_some h']
  constructor
  · rintro ⟨a, ha, h1, h2, h3⟩
    exact ⟨a, (hm a h1 h2).1 ha, h1, h2, h3⟩
  rintro ⟨a, ha, h1, h2, h3⟩
  exact ⟨a, (hm a h1 h2).2 ha, h1, h2, h3⟩

lemma areasBefore_append (L : List VmArea) (addr : Nat) :
    areasBefore L addr ++ areasFrom L addr = L := takeWhile_append_dropWhile

lemma areasOk_cons : AreasOk (a :: L) ↔ AreaOk a ∧ a.start < a.stop ∧ (∀ x ∈ L, a.stop ≤ x.start) ∧ AreasOk L := by
  constructor
  · rintro ⟨ht, ha⟩
    obtain ⟨h1, h2, h3⟩ := tiled_cons.1 ht
    exact ⟨ha a (by simp), h1, h2, h3, fun b hb => ha b (by simp [hb])⟩
  rintro ⟨hok, h1, h2, h3, ha⟩
  refine ⟨tiled_cons.2 ⟨h1, h2, h3⟩, ?_⟩
  intro b hb
  rcases mem_cons.1 hb with rfl | hb
  · exact hok
  · exact ha b hb

lemma AreasOk.sublist (h : AreasOk L) (hs : M.Sublist L) : AreasOk M :=
  ⟨h.tiled.sublist hs, fun a ha => h.area a (hs.subset ha)⟩

lemma AreasOk.lt (h : AreasOk L) (ha : a ∈ L) : a.start < a.stop := h.tiled.proper a ha

lemma AreasOk.eq_of_overlap (h : AreasOk L) (ha : a ∈ L) (hb : b ∈ L) (h1 : a.start < b.stop)
    (h2 : b.start < a.stop) : a = b :=
  h.tiled.eq_of_overlap ha hb h1 h2

lemma AreasOk.areasFrom (h : AreasOk L) (addr : Nat) : AreasOk (areasFrom L addr) := h.sublist (dropWhile_sublist _)

/-- Past the first area that ends after `addr`, all do. -/
lemma stop_of_areasFrom (h : Tiled L) (ha : a ∈ areasFrom L addr) : addr < a.stop := by
  induction L with
  | nil => simp [areasFrom] at ha
  | cons x L ih =>
    obtain ⟨hx, hxL, hL⟩ := tiled_cons.1 h
    by_cases hp : x.stop ≤ addr
    · rw [areasFrom, dropWhile_cons_of_pos (by simpa using hp)] at ha
      exact ih hL ha
    rw [areasFrom, dropWhile_cons_of_neg (by simpa using hp)] at ha
    rcases mem_cons.1 ha with rfl | ha
    · omega
    have h1 := hxL a ha
    have h2 := hL.proper a ha
    simp only [hi_area] at h1 h2
    omega

lemma stop_of_areasBefore (ha : a ∈ areasBefore L addr) : a.stop ≤ addr := by
  have := mem_takeWhile_imp ha
  simpa using this

lemma areaInsert_head {rest : List VmArea} (h : Tiled (b :: rest)) : areaInsert b rest = b :: rest := by
  obtain ⟨hb, hr, -⟩ := tiled_cons.1 h
  cases rest with
  | nil => rfl
  | cons x rest =>
    have := hr x (by simp)
    unfold areaInsert Intervals.insert
    rw [if_neg (by omega)]

/-! ## Splitting -/

/-- The two halves of an area split at `m`. -/
def VmArea.lower (a : VmArea) (m : Nat) : VmArea := { a with stop := m }

def VmArea.upper (a : VmArea) (m : Nat) : VmArea := ⟨m, a.stop, a.prot, a.flags, a.file, a.offsetAt m⟩

/-- `L'` cuts the areas of `L` into pieces that map the same. -/
structure Pieces (L L' : List VmArea) : Prop where
  tiled : Tiled L'
  within : ∀ x ∈ L', ∃ y ∈ L, y.start ≤ x.start ∧ x.stop ≤ y.stop
  entry : ∀ va, entryAt L' va = entryAt L va

lemma Pieces.refl (h : Tiled L) : Pieces L L := ⟨h, fun x hx => ⟨x, hx, le_rfl, le_rfl⟩, fun _ => rfl⟩

variable {L' : List VmArea}

lemma Pieces.append {B : List VmArea} (h : Tiled (B ++ L)) (hi : Pieces L L') : Pieces (B ++ L) (B ++ L') := by
  obtain ⟨hB, hL, hBL⟩ := tiled_append.1 h
  refine ⟨tiled_append.2 ⟨hB, hi.tiled, ?_⟩, ?_, ?_⟩
  · intro x hx y hy
    obtain ⟨z, hz, h1, -⟩ := hi.within y hy
    exact (hBL x hx z hz).trans h1
  · intro x hx
    rcases mem_append.1 hx with hx | hx
    · exact ⟨x, by simp [hx], le_rfl, le_rfl⟩
    obtain ⟨z, hz, h1, h2⟩ := hi.within x hx
    exact ⟨z, by simp [hz], h1, h2⟩
  · intro va
    rw [entryAt_append, entryAt_append, hi.entry]

lemma Pieces.cons (h : Tiled (a :: L)) (hi : Pieces L L') : Pieces (a :: L) (a :: L') := Pieces.append (B := [a]) h hi

lemma Pieces.trans {N : List VmArea} (h : Pieces L M) (h' : Pieces M N) : Pieces L N := by
  refine ⟨h'.tiled, ?_, fun va => (h'.entry va).trans (h.entry va)⟩
  intro x hx
  obtain ⟨y, hy, h1, h2⟩ := h'.within x hx
  obtain ⟨z, hz, h3, h4⟩ := h.within y hy
  exact ⟨z, hz, h3.trans h1, h2.trans h4⟩

lemma upper_entry (h : a.start ≤ m) (h' : m ≤ va) : (a.upper m).entry va = a.entry va := by
  unfold VmArea.entry
  rw [show (a.upper m).offsetAt va = wrap (a.offsetAt m + (va - m)) from rfl, offsetAt_shift h h']
  rfl

/-- Cutting one area in two. -/
lemma pieces_split (h : Tiled (a :: L)) (h1 : a.start < m) (h2 : m < a.stop) :
    Pieces (a :: L) (a.lower m :: a.upper m :: L) := by
  obtain ⟨hlt, hL, hrest⟩ := tiled_cons.1 h
  refine ⟨tiled_cons.2 ⟨h1, ?_, tiled_cons.2 ⟨h2, hL, hrest⟩⟩, ?_, ?_⟩
  · intro x hx
    rcases mem_cons.1 hx with rfl | hx
    · exact le_rfl
    · exact (le_of_lt h2).trans (hL x hx)
  · intro x hx
    rcases mem_cons.1 hx with rfl | hx
    · exact ⟨a, by simp, le_rfl, le_of_lt h2⟩
    rcases mem_cons.1 hx with rfl | hx
    · exact ⟨a, by simp, le_of_lt h1, le_rfl⟩
    · exact ⟨x, by simp [hx], le_rfl, le_rfl⟩
  intro va
  rw [entryAt_cons, entryAt_cons, entryAt_cons]
  change (if a.start ≤ va ∧ va < m then some (a.entry va) else
    if m ≤ va ∧ va < a.stop then some ((a.upper m).entry va) else entryAt L va) = _
  by_cases hlow : a.start ≤ va ∧ va < m
  · rw [if_pos hlow, if_pos ⟨hlow.1, hlow.2.trans h2⟩]
  rw [if_neg hlow]
  split
  · rename_i hup
    rw [if_pos ⟨by omega, hup.2⟩, upper_entry (le_of_lt h1) hup.1]
  · rw [if_neg (by omega)]

/-- No area reaches across `m`. -/
def Clear (L : List VmArea) (m : Nat) : Prop := ∀ x ∈ L, x.start < m → x.stop ≤ m

/-- Turns that `range_isolate` still has to make, at most. -/
def isolateTurns (start stop : Nat) (L : List VmArea) : Nat :=
  L.length + L.countP (fun x => decide (x.start < start ∧ start < x.stop))
    + L.countP (fun x => decide (x.start < stop ∧ stop < x.stop))

lemma isolateTurns_le (start stop : Nat) (L : List VmArea) : isolateTurns start stop L ≤ 3 * L.length := by
  have h1 := L.countP_le_length (p := fun x => decide (x.start < start ∧ start < x.stop))
  have h2 := L.countP_le_length (p := fun x => decide (x.start < stop ∧ stop < x.stop))
  unfold isolateTurns
  omega

/-- A cut takes one straddling area away. -/
lemma isolateTurns_cut {start stop : Nat} (hle : start ≤ stop) (rest : List VmArea)
    (hm : m = start ∨ m = stop) (h1 : a.start < m) (h2 : m < a.stop) :
    isolateTurns start stop (a.upper m :: rest) < isolateTurns start stop (a :: rest) := by
  have hs : (a.upper m).start = m := rfl
  have he : (a.upper m).stop = a.stop := rfl
  unfold isolateTurns
  simp only [countP_cons, length_cons, decide_eq_true_eq]
  rcases hm with rfl | rfl <;> split_ifs <;> omega

/-- Passing an area that is left as it is. -/
lemma Clear.cons (ha : a.start < m → a.stop ≤ m) (h : Clear L m) : Clear (a :: L) m := by
  intro x hx
  rcases mem_cons.1 hx with rfl | hx
  · exact ha
  · exact h x hx

/-- Areas from `stop` on are clear of every earlier boundary. -/
lemma clear_of_le (h : Tiled (a :: L)) (hm : m ≤ a.start) : Clear (a :: L) m := by
  intro x hx hlt
  obtain ⟨h1, h2, -⟩ := tiled_cons.1 h
  rcases mem_cons.1 hx with rfl | hx
  · omega
  have := h2 x hx
  simp only [lo_area] at h1 this
  omega

section

variable (env : Env) {start stop : Nat}

/-- Induction over the turns of `range_isolate`: the loop ends, finds no memory
for a split, splits at an end of the range, or passes an area. -/
lemma isolateFrom_rule {Q : Nat → List VmArea → Mach → Option Errno × List VmArea × Mach → Prop}
    (hend : ∀ n L mc, (n = 0 ∨ ∀ a rest, L = a :: rest → stop ≤ a.start) → Q n L mc (none, L, mc))
    (hfail : ∀ n a rest mc, env.malloc mc.tick = false →
      Q (n + 1) (a :: rest) mc (some .enomem, a :: rest, { mc with tick := mc.tick + 1 }))
    (hcut : ∀ n a m rest mc r, m = start ∨ m = stop ∧ ¬ (a.start < start ∧ start < a.stop) → a.start < m → m < a.stop →
      Q n (areaInsert (a.upper m) rest) (areaSetFile a a 0 { mc with tick := mc.tick + 1 }).2 r →
      Q (n + 1) (a :: rest) mc (r.1, a.lower m :: r.2.1, r.2.2))
    (hpass : ∀ n a rest mc r, a.start < stop → ¬ (a.start < start ∧ start < a.stop) → a.stop ≤ stop →
      Q n rest mc r → Q (n + 1) (a :: rest) mc (r.1, a :: r.2.1, r.2.2)) :
    ∀ n L mc, Q n L mc (isolateFrom env start stop n L mc) := by
  intro n
  induction n with
  | zero => exact fun L mc => hend 0 L mc (.inl rfl)
  | succ n ih =>
    intro L mc
    cases L with
    | nil => exact hend _ [] mc (.inr fun a rest h => by cases h)
    | cons a rest =>
      unfold isolateFrom areaSplit areaNew Mach.malloc
      by_cases hstop : a.start < stop
      swap
      · rw [if_neg hstop]
        exact hend _ _ mc (.inr fun b r h => by cases h; omega)
      rw [if_pos hstop]
      by_cases hst : a.start < start ∧ start < a.stop
      · rw [if_pos hst]
        cases hm : env.malloc mc.tick with
        | false => exact hfail n a rest mc hm
        | true => exact hcut n a start rest mc _ (.inl rfl) hst.1 hst.2 (ih _ _)
      rw [if_neg hst]
      by_cases hen : a.start < stop ∧ stop < a.stop
      · rw [if_pos hen]
        cases hm : env.malloc mc.tick with
        | false => exact hfail n a rest mc hm
        | true => exact hcut n a stop rest mc _ (.inr ⟨rfl, hst⟩) hen.1 hen.2 (ih _ _)
      rw [if_neg hen]
      exact hpass n a rest mc _ hstop hst (by omega) (ih rest mc)

lemma isolateFrom_pieces (n : Nat) (L : List VmArea) (mc : Mach) : Tiled L →
    Pieces L (isolateFrom env start stop n L mc).2.1 := by
  refine @isolateFrom_rule env start stop (fun _ L _ r => Tiled L → Pieces L r.2.1) ?_ ?_ ?_ ?_ n L mc
  · exact fun _ _ _ _ h => Pieces.refl h
  · exact fun _ _ _ _ _ h => Pieces.refl h
  · -- after a split the later turns begin with the upper half
    intro n a m rest mc r _ h1 h2 ih h
    have hsp := pieces_split h h1 h2
    have hup := (tiled_cons.1 hsp.tiled).2.2
    rw [areaInsert_head hup] at ih
    exact hsp.trans (Pieces.cons hsp.tiled (ih hup))
  · intro n a rest mc r _ _ _ ih h
    exact Pieces.cons h (ih (tiled_cons.1 h).2.2)

/-- With enough turns, an isolation that succeeds leaves no area across
either end of the range. -/
lemma isolateFrom_clear (hle : start ≤ stop) (n : Nat) (L : List VmArea) (mc : Mach) : Tiled L →
    isolateTurns start stop L ≤ n → (isolateFrom env start stop n L mc).1 = none →
    Clear (isolateFrom env start stop n L mc).2.1 start ∧ Clear (isolateFrom env start stop n L mc).2.1 stop := by
  refine @isolateFrom_rule env start stop (fun n L _ r => Tiled L → isolateTurns start stop L ≤ n →
    r.1 = none → Clear r.2.1 start ∧ Clear r.2.1 stop) ?_ ?_ ?_ ?_ n L mc
  · intro n L mc hend h hn _
    cases L with
    | nil => exact ⟨fun x hx => absurd hx not_mem_nil, fun x hx => absurd hx not_mem_nil⟩
    | cons a rest =>
      have hlen : 0 < n := by
        unfold isolateTurns at hn
        rw [length_cons] at hn
        omega
      have := hend.resolve_left (by omega) a rest rfl
      exact ⟨clear_of_le h (by omega), clear_of_le h this⟩
  · intro n a rest mc _ _ _ hr
    cases hr
  · intro n a m rest mc r hm h1 h2 ih h hn hr
    have hup := (tiled_cons.1 (pieces_split h h1 h2).tiled).2.2
    have hturns := isolateTurns_cut hle rest (hm.imp id And.left) h1 h2
    rw [areaInsert_head hup] at ih
    obtain ⟨hc1, hc2⟩ := ih hup (by omega) hr
    refine ⟨Clear.cons (fun hlt => ?_) hc1, Clear.cons (fun _ => ?_) hc2⟩
    · change a.start < start at hlt
      change m ≤ start
      omega
    · change m ≤ stop
      omega
  · intro n a rest mc r h1 h2 h3 ih h hn hr
    obtain ⟨hc1, hc2⟩ := ih (tiled_cons.1 h).2.2 (by
      unfold isolateTurns at hn ⊢
      rw [countP_cons, countP_cons, length_cons] at hn
      omega) hr
    exact ⟨Clear.cons (fun hlt => by omega) hc1, Clear.cons (fun _ => h3) hc2⟩

/-- The heap and the page-table allocator find memory. -/
structure Ample (env : Env) : Prop where
  malloc : ∀ t, env.malloc t = true
  tables : ∀ t, env.tables t = true

lemma isolateFrom_ample (he : Ample env) (start stop n : Nat) (L : List VmArea) (mc : Mach) :
    (isolateFrom env start stop n L mc).1 = none := by
  refine @isolateFrom_rule env start stop (fun _ _ _ r => r.1 = none) ?_ ?_ ?_ ?_ n L mc
  · exact fun _ _ _ _ => rfl
  · exact fun _ _ _ mc hm => by simp [he.malloc] at hm
  · exact fun _ _ _ _ _ _ _ _ _ ih => ih
  · exact fun _ _ _ _ _ _ _ _ ih => ih

variable {P : VmArea → Prop}

/-- What cutting at an end of the range keeps holds of every piece. -/
lemma isolateFrom_all
    (hcut : ∀ a m, P a → m = start ∨ m = stop → a.start < m → m < a.stop → P (a.lower m) ∧ P (a.upper m))
    (n : Nat) (L : List VmArea) (mc : Mach) : (∀ x ∈ L, P x) → ∀ x ∈ (isolateFrom env start stop n L mc).2.1, P x := by
  refine @isolateFrom_rule env start stop (fun _ L _ r => (∀ x ∈ L, P x) → ∀ x ∈ r.2.1, P x) ?_ ?_ ?_ ?_ n L mc
  · exact fun _ _ _ _ h => h
  · exact fun _ _ _ _ _ h => h
  · intro n a m rest mc r hm h1 h2 ih h
    rw [forall_mem_cons] at h
    obtain ⟨hlow, hup⟩ := hcut a m h.1 (hm.imp id And.left) h1 h2
    refine forall_mem_cons.2 ⟨hlow, ih fun x hx => ?_⟩
    rcases mem_insert.1 hx with rfl | hx
    · exact hup
    · exact h.2 x hx
  · intro n a rest mc r _ _ _ ih h
    rw [forall_mem_cons] at h
    exact forall_mem_cons.2 ⟨h.1, ih h.2⟩

variable {st : St}

lemma rangeIsolate_all
    (hcut : ∀ a m, P a → m = start ∨ m = stop → a.start < m → m < a.stop → P (a.lower m) ∧ P (a.upper m))
    (h : ∀ x ∈ st.vm.areas, P x) : ∀ x ∈ (rangeIsolate env start stop st).2.vm.areas, P x := by
  have hsplit : ∀ x, x ∈ areasBefore st.vm.areas start ∨ x ∈ areasFrom st.vm.areas start → P x := by
    intro x hx
    apply h
    rw [← areasBefore_append st.vm.areas start]
    exact mem_append.2 hx
  intro x hx
  rcases mem_append.1 hx with hx | hx
  · exact hsplit x (.inl hx)
  · exact isolateFrom_all env hcut _ _ _ (fun y hy => hsplit y (.inr hy)) x hx

/-- Isolation ends no area anywhere but at the ends of the range. -/
lemma rangeIsolate_stops (st : St) : ∀ x ∈ (rangeIsolate env start stop st).2.vm.areas,
    x.stop = start ∨ x.stop = stop ∨ ∃ y ∈ st.vm.areas, x.stop = y.stop := by
  refine rangeIsolate_all env ?_ fun x hx => .inr (.inr ⟨x, hx, rfl⟩)
  intro a m ha hm _ _
  exact ⟨hm.imp id .inl, ha⟩

/-- `range_isolate` touches nothing but the areas, and maps the same. -/
lemma rangeIsolate_pieces (h : Tiled st.vm.areas) :
    Pieces st.vm.areas (rangeIsolate env start stop st).2.vm.areas := by
  have hsplit := areasBefore_append st.vm.areas start
  have ht : Tiled (areasBefore st.vm.areas start ++ areasFrom st.vm.areas start) := by rwa [hsplit]
  have := Pieces.append ht (@isolateFrom_pieces env start stop
    (3 * (areasFrom st.vm.areas start).length) (areasFrom st.vm.areas start) st.mc
    (tiled_append.1 ht).2.1)
  rwa [hsplit] at this

/-- Pieces that are page-aligned in the user half. -/
structure Isolated (L L' : List VmArea) : Prop where
  ok : AreasOk L'
  within : ∀ x ∈ L', ∃ y ∈ L, y.start ≤ x.start ∧ x.stop ≤ y.stop
  entry : ∀ va, entryAt L' va = entryAt L va

lemma Isolated.refl (h : AreasOk L) : Isolated L L := ⟨h, (Pieces.refl h.tiled).within, fun _ => rfl⟩

/-- `range_isolate` on a range of pages; when it succeeds no area reaches
across either end. -/
lemma rangeIsolate_spec (hs : start % 4096 = 0) (he : stop % 4096 = 0) (hle : start ≤ stop) (h : AreasOk st.vm.areas) :
    ∃ L' mc', (rangeIsolate env start stop st).2 = ⟨{ st.vm with areas := L' }, mc'⟩ ∧ Isolated st.vm.areas L' ∧
      ((rangeIsolate env start stop st).1 = none → Clear L' start ∧ Clear L' stop) := by
  have hsplit := areasBefore_append st.vm.areas start
  have ht : Tiled (areasBefore st.vm.areas start ++ areasFrom st.vm.areas start) := by
    rw [hsplit]
    exact h.tiled
  have hp := @rangeIsolate_pieces env start stop st h.tiled
  refine ⟨_, _, rfl, ⟨⟨hp.tiled, ?_⟩, hp.within, hp.entry⟩, ?_⟩
  · refine rangeIsolate_all env ?_ h.area
    intro a m ha hm h1 h2
    have hm' : m % 4096 = 0 := by rcases hm with rfl | rfl <;> assumption
    exact ⟨⟨ha.min, (le_of_lt h2).trans ha.limit, ha.start, hm'⟩, ⟨ha.min.trans (le_of_lt h1), ha.limit, hm', ha.stop⟩⟩
  intro hnone
  have hc := isolateFrom_clear env hle _ _ st.mc (tiled_append.1 ht).2.1 (isolateTurns_le start stop _) hnone
  have hb : ∀ m, start ≤ m → Clear (areasBefore st.vm.areas start) m := by
    intro m hm x hx _
    exact (stop_of_areasBefore hx).trans hm
  constructor
  · intro x hx
    rcases mem_append.1 hx with hx | hx
    · exact hb start le_rfl x hx
    · exact hc.1 x hx
  intro x hx
  rcases mem_append.1 hx with hx | hx
  · exact hb stop hle x hx
  · exact hc.2 x hx

end

end Hermes.L2.Vm
