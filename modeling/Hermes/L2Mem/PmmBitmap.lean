import Hermes.Core.LTS

/-!
# The physical page allocator

`hardware/memory/pmm.c`: a bitmap of 64-bit words, one bit per page, searched from two hints, and the share counters.
Each label is one section under `pmm_lock`; `alloc_physical_page` is `take_page`, then, if that fails, the frees of the
page cache's reclaim and `take_page` again.

* `Bitmap.takePage_spec`, `Bitmap.takePages_spec`: one search (pmm.c:107, pmm.c:163).
* `Bitmap.used_freePageLocked`: a page that nobody shares becomes free (pmm.c:127).
* `Bitmap.page_allocator`: the hints and the answers in every reachable state.
-/
namespace Hermes.L2.Pmm

open Function List

/-- What `pmm_initialize` fixes. -/
structure Memory where
  totalPages : Nat

namespace Memory

variable (m : Memory)

def totalWords : Nat := (m.totalPages + 63) / 64
/-- The words below 4 GiB. -/
def lowWords : Nat := min m.totalWords 16384
/-- The words below `IDENTITY_MAP_SIZE`. -/
def bootWords : Nat := min m.totalWords 4096

end Memory

structure Bitmap where
  words : Nat → BitVec 64
  sharedRefs : Nat → Nat
  lowHint : Nat
  highHint : Nat
  ready : Bool  -- `direct_map_ready()`

/-- `__builtin_ctzll` -/
def ctz (w : BitVec 64) : Nat := ((List.range 64).find? w.getLsbD).getD 64

/-- The search of `take_page_locked`: the first of `n` words that is not full. -/
def findWord (words : Nat → BitVec 64) : Nat → Nat → Option Nat
  | 0, _ => none
  | n + 1, word => if words word = BitVec.allOnes 64 then findWord words n (word + 1) else some word

/-- The search of `take_pages`: the first of `count` free pages in a row, `run` pages before `page` being free. -/
def findRun (used : Nat → Bool) (count : Nat) : Nat → Nat → Nat → Option Nat
  | 0, _, _ => none
  | n + 1, page, run =>
    let run := if used page then 0 else run + 1
    if run = count then some (page + 1 - count) else findRun used count n (page + 1) run

namespace Bitmap

variable (m : Memory) (s : Bitmap)

/-- `TEST_BIT` -/
def used (p : Nat) : Bool := (s.words (p / 64)).getLsbD (p % 64)

/-- `SET_BIT` -/
def setBit (p : Nat) : Bitmap :=
  { s with words := update s.words (p / 64) (s.words (p / 64) ||| BitVec.twoPow 64 (p % 64)) }

/-- `CLEAR_BIT` -/
def clearBit (p : Nat) : Bitmap :=
  { s with words := update s.words (p / 64) (s.words (p / 64) &&& ~~~BitVec.twoPow 64 (p % 64)) }

/-- `take_page_locked`: the page's address, or 0, and the new hint. -/
def takePageLocked (lastWord hint : Nat) : Nat × Nat × Bitmap :=
  match findWord s.words (lastWord - hint) hint with
  | none => (0, lastWord, s)
  | some word =>
    let page := word * 64 + ctz (~~~s.words word)
    (page * 4096, word, s.setBit page)

def takeLow (lastWord : Nat) : Nat × Bitmap :=
  let r := s.takePageLocked lastWord s.lowHint
  (r.1, { r.2.2 with lowHint := r.2.1 })

def takeHigh : Nat × Bitmap :=
  let r := s.takePageLocked m.totalWords s.highHint
  (r.1, { r.2.2 with highHint := r.2.1 })

/-- `take_page` -/
def takePage : Nat × Bitmap :=
  if s.ready then
    let r := s.takeHigh m
    if r.1 = 0 then r.2.takeLow m.lowWords else r
  else s.takeLow m.bootWords

/-- The words an allocation may use. -/
def range : Nat := if s.ready then m.totalWords else m.bootWords

/-- `take_pages` -/
def takePages (count : Nat) : Nat × Bitmap :=
  match findRun s.used count (s.range m * 64 - s.lowHint * 64) (s.lowHint * 64) 0 with
  | none => (0, s)
  | some first => (first * 4096, (List.range' first count).foldl setBit s)

/-- `free_page_locked` -/
def freePageLocked (p : Nat) : Bitmap :=
  if p ≠ 0 ∧ p < m.totalPages then
    if s.sharedRefs p ≠ 0 then { s with sharedRefs := update s.sharedRefs p (s.sharedRefs p - 1) }
    else if p / 64 < m.lowWords then { s.clearBit p with lowHint := min s.lowHint (p / 64) }
    else { s.clearBit p with highHint := min s.highHint (p / 64) }
  else s

/-- `pmm_share_page` -/
def sharePage (p : Nat) : Bitmap :=
  if p < m.totalPages ∧ s.sharedRefs p < 0xFFFF then
    { s with sharedRefs := update s.sharedRefs p (s.sharedRefs p + 1) }
  else s

end Bitmap

inductive Label
  | takePage
  | takePages (count : Nat)
  | free (pages : List Nat)
  | share (p : Nat)
  | directMap

/-- The allocator, and as a ghost the pages that were handed out and not given back since. -/
structure Sys where
  bits : Bitmap
  live : Nat → Bool

/-- An allocation of `count` pages has answered `addr`. -/
def grant (live : Nat → Bool) (addr count : Nat) : Nat → Bool := fun p =>
  live p || decide (addr ≠ 0 ∧ addr / 4096 ≤ p ∧ p < addr / 4096 + count)

/-- Whoever frees a page gives it back, unless others share it. -/
def Sys.free (m : Memory) (s : Sys) (p : Nat) : Sys :=
  ⟨s.bits.freePageLocked m p, if s.bits.sharedRefs p = 0 then update s.live p false else s.live⟩

def step (m : Memory) (s : Sys) : Label → Sys
  | .takePage => ⟨(s.bits.takePage m).2, grant s.live (s.bits.takePage m).1 1⟩
  | .takePages count =>
    if count = 0 then s else ⟨(s.bits.takePages m count).2, grant s.live (s.bits.takePages m count).1 count⟩
  | .free pages => pages.foldl (Sys.free m) s
  | .share p => { s with bits := s.bits.sharePage m p }
  | .directMap => { s with bits.ready := true }

/-- After `pmm_initialize`: the kernel lies over page 0. -/
def Init (m : Memory) (s : Sys) : Prop := s.bits.used 0 = true ∧ s.bits.lowHint = 0 ∧ s.bits.highHint = m.lowWords ∧
  s.bits.ready = false ∧ ∀ p, s.live p = false

def system (m : Memory) : LTS Sys Label := LTS.ofFn (Init m) (step m)

/-! ## Bits -/

namespace Bitmap

variable {m : Memory} {s : Bitmap} {p q : Nat}

lemma used_setBit : (s.setBit p).used q = (s.used q || decide (q = p)) := by
  unfold used setBit
  by_cases hw : q / 64 = p / 64
  · have : (p % 64 = q % 64) = (q = p) := propext ⟨fun h => by omega, fun h => by rw [h]⟩
    have hlt : p % 64 < 64 := Nat.mod_lt _ (by decide)
    simp [hw, this, hlt]
  · have hne : q ≠ p := fun h => hw (by rw [h])
    simp [update_of_ne hw, hne]

lemma used_clearBit : (s.clearBit p).used q = (s.used q && !decide (q = p)) := by
  unfold used clearBit
  by_cases hw : q / 64 = p / 64
  · have : (q % 64 = p % 64) = (q = p) := propext ⟨fun h => by omega, fun h => by rw [h]⟩
    have hlt : q % 64 < 64 := Nat.mod_lt _ (by decide)
    simp [hw, this, hlt]
  · have hne : q ≠ p := fun h => hw (by rw [h])
    simp [update_of_ne hw, hne]

variable {w n word page run : Nat} {words : Nat → BitVec 64} {used : Nat → Bool}

lemma used_of_full (h : s.words w = BitVec.allOnes 64) (hp : p / 64 = w) : s.used p = true := by
  rw [used, hp, h, BitVec.getLsbD_allOnes]
  exact decide_eq_true (Nat.mod_lt _ (by decide))

/-- The lowest clear bit of a word that is not full. -/
lemma ctz_not {w : BitVec 64} (h : w ≠ BitVec.allOnes 64) : ctz (~~~w) < 64 ∧ w.getLsbD (ctz (~~~w)) = false := by
  obtain ⟨i, hi, hw⟩ : ∃ i, i < 64 ∧ w.getLsbD i = false := by
    by_contra hall
    refine h (BitVec.eq_of_getLsbD_eq fun i hi => ?_)
    rw [BitVec.getLsbD_allOnes, decide_eq_true hi]
    by_contra hc
    exact hall ⟨i, hi, by simpa using hc⟩
  unfold ctz
  rcases hf : (List.range 64).find? (~~~w).getLsbD with - | j
  · have := List.find?_eq_none.1 hf i (mem_range.2 hi)
    rw [BitVec.getLsbD_not, hw, decide_eq_true hi] at this
    exact absurd rfl this
  have hj := mem_range.1 (mem_of_find?_eq_some hf)
  have := List.find?_some hf
  rw [BitVec.getLsbD_not, decide_eq_true hj] at this
  exact ⟨hj, by simpa using this⟩

/-! ## The searches -/

lemma findWord_none (h : findWord words n word = none) :
    ∀ v, word ≤ v → v < word + n → words v = BitVec.allOnes 64 := by
  induction n generalizing word with
  | zero => omega
  | succ n ih =>
    unfold findWord at h
    split at h
    · rename_i hfull
      intro v h1 h2
      rcases Nat.eq_or_lt_of_le h1 with rfl | h1
      · exact hfull
      · exact ih h v h1 (by omega)
    · cases h

lemma findWord_some (h : findWord words n word = some w) :
    (word ≤ w ∧ w < word + n) ∧ words w ≠ BitVec.allOnes 64 ∧ ∀ v, word ≤ v → v < w → words v = BitVec.allOnes 64 := by
  induction n generalizing word with
  | zero => cases h
  | succ n ih =>
    unfold findWord at h
    split at h <;> rename_i hfull
    · obtain ⟨hw, hne, hbefore⟩ := ih h
      refine ⟨by omega, hne, fun v hv1 hv2 => ?_⟩
      rcases Nat.eq_or_lt_of_le hv1 with rfl | hv1
      · exact hfull
      · exact hbefore v hv1 hv2
    · obtain rfl := Option.some_inj.1 h
      exact ⟨by omega, hfull, fun v h1 h2 => by omega⟩

variable {count first : Nat}

/-- The search ends without a result only if every `count` pages in a row have a used one among them. -/
lemma findRun_none (hrun : run < count) (h : findRun used count n page run = none) :
    ∀ first, page - run ≤ first → first + count ≤ page + n → ∃ q, first ≤ q ∧ q < first + count ∧ used q = true := by
  induction n generalizing page run with
  | zero => omega
  | succ n ih =>
    intro first h1 h2
    unfold findRun at h
    cases hu : used page with
    | true =>
      simp only [hu, if_true] at h
      rw [if_neg (by omega)] at h
      by_cases hp : first ≤ page
      · exact ⟨page, hp, by omega, hu⟩
      · exact ih (by omega) h first (by omega) (by omega)
    | false =>
      simp only [hu, Bool.false_eq_true, if_false] at h
      split at h
      · cases h
      · exact ih (by omega) h first (by omega) (by omega)

lemma findRun_some (hrun : run < count) (hpage : run ≤ page) (hfree : ∀ q, page - run ≤ q → q < page → used q = false)
    (h : findRun used count n page run = some first) : ∀ q, first ≤ q → q < first + count → used q = false := by
  induction n generalizing page run with
  | zero => cases h
  | succ n ih =>
    unfold findRun at h
    cases hu : used page with
    | true =>
      simp only [hu, if_true] at h
      rw [if_neg (by omega)] at h
      exact ih (by omega) (by omega) (fun q h1 h2 => by omega) h
    | false =>
      simp only [hu, Bool.false_eq_true, if_false] at h
      have hfree' : ∀ q, page - run ≤ q → q < page + 1 → used q = false := by
        intro q h1 h2
        rcases lt_or_ge q page with h3 | h3
        · exact hfree q h1 h3
        · rw [show q = page by omega, hu]
      split at h
      · obtain rfl := Option.some_inj.1 h
        exact fun q h1 h2 => hfree' q (by omega) (by omega)
      · exact ih (by omega) (by omega) (fun q h1 h2 => hfree' q (by omega) h2) h

/-! ## What the sections do -/

/-- `count` free pages from `first` on are taken, and no others. -/
structure Took (s t : Bitmap) (first count : Nat) : Prop where
  free : ∀ q, first ≤ q → q < first + count → s.used q = false
  used : ∀ q, t.used q = (s.used q || decide (first ≤ q ∧ q < first + count))

/-- The answer `r` of an allocation of `count` pages from the pages of `R`: 0, and then no run of that length is free in
`R`; or the address of a run that was free, and is taken. -/
def Answer (s : Bitmap) (R : Nat → Prop) (count : Nat) (r : Nat × Bitmap) : Prop :=
  (r.1 = 0 ∧ r.2.used = s.used ∧
    ∀ first, (∀ q, first ≤ q → q < first + count → R q) → ∃ q, first ≤ q ∧ q < first + count ∧ s.used q = true) ∨
  ∃ first, r.1 = first * 4096 ∧ first ≠ 0 ∧ Took s r.2 first count

lemma setBits_spec (l : List Nat) : (∀ q, (l.foldl setBit s).used q = (s.used q || decide (q ∈ l))) ∧
    (l.foldl setBit s).lowHint = s.lowHint ∧ (l.foldl setBit s).highHint = s.highHint := by
  induction l generalizing s with
  | nil => simp
  | cons p l ih =>
    obtain ⟨h1, h2⟩ := @ih (s.setBit p)
    refine ⟨fun q => ?_, h2⟩
    rw [foldl_cons, h1, used_setBit]
    simp [Bool.or_assoc]

lemma took_setBits (h : ∀ q, first ≤ q → q < first + count → s.used q = false) :
    Took s ((List.range' first count).foldl setBit s) first count := by
  have hu := (@setBits_spec s (List.range' first count)).1
  simp only [mem_range'_1] at hu
  exact ⟨h, hu⟩

/-- `take_page_locked`: nothing is free between the hint and the end, or the first free page is taken. -/
lemma takePageLocked_spec (hzero : s.used 0 = true) (last hint : Nat) :
    (s.takePageLocked last hint = (0, last, s) ∧ ∀ p, hint ≤ p / 64 → p / 64 < last → s.used p = true) ∨
    ∃ page, s.takePageLocked last hint = (page * 4096, page / 64, s.setBit page) ∧ page ≠ 0 ∧ page / 64 < last ∧
      Took s (s.setBit page) page 1 ∧ ∀ p, hint ≤ p / 64 → p / 64 < page / 64 → s.used p = true := by
  unfold takePageLocked
  rcases hf : findWord s.words (last - hint) hint with - | word
  · exact .inl ⟨rfl, fun p h1 h2 => used_of_full (findWord_none hf _ h1 (by omega)) rfl⟩
  obtain ⟨hin, hword, hbefore⟩ := findWord_some hf
  obtain ⟨hlt, hbit⟩ := ctz_not hword
  dsimp only
  generalize ctz (~~~s.words word) = bit at hlt hbit ⊢
  have hdiv : (word * 64 + bit) / 64 = word := by omega
  have hfree : s.used (word * 64 + bit) = false := by rw [used, hdiv, show (word * 64 + bit) % 64 = bit by omega, hbit]
  refine .inr ⟨word * 64 + bit, by rw [hdiv], ?_, by omega, @took_setBits s 1 (word * 64 + bit) ?_, ?_⟩
  · intro h0
    rw [h0, hzero] at hfree
    cases hfree
  · intro q h1 h2
    rwa [show q = word * 64 + bit by omega]
  · rw [hdiv]
    exact fun p h1 h2 => used_of_full (hbefore _ h1 h2) rfl

/-- What the hints promise. -/
structure Inv (m : Memory) (s : Bitmap) : Prop where
  zero : s.used 0 = true
  bound : s.lowHint ≤ m.lowWords
  low : ∀ p, p / 64 < s.lowHint → s.used p = true
  high : ∀ p, m.lowWords ≤ p / 64 → p / 64 < s.highHint → s.used p = true

section Sections

variable {t : Bitmap} {first count : Nat} (h : Inv m s)
include h

/-- Taking pages keeps the promise, with hints that pass over used pages only. -/
lemma Inv.took (ht : Took s t first count) (hbound : t.lowHint ≤ m.lowWords)
    (hlow : ∀ p, p / 64 < t.lowHint → s.used p = true)
    (hhigh : ∀ p, m.lowWords ≤ p / 64 → p / 64 < t.highHint → s.used p = true) : Inv m t := by
  have hmono : ∀ p, s.used p = true → t.used p = true := fun p hp => by rw [ht.used, hp, Bool.true_or]
  exact ⟨hmono 0 h.zero, hbound, fun p hp => hmono p (hlow p hp), fun p h1 h2 => hmono p (hhigh p h1 h2)⟩

lemma takeLow_spec {last : Nat} (hlast : last ≤ m.lowWords) :
    Inv m (s.takeLow last).2 ∧ Answer s (fun p => p / 64 < last) 1 (s.takeLow last) := by
  unfold takeLow
  rcases takePageLocked_spec h.zero last s.lowHint with ⟨he, hfull⟩ | ⟨page, he, h0, hpage, ht, hfull⟩
  · have hall : ∀ p, p / 64 < last → s.used p = true := fun p hp =>
      (lt_or_ge (p / 64) s.lowHint).elim (h.low p) fun h1 => hfull p h1 hp
    rw [he]
    exact ⟨⟨h.zero, hlast, hall, h.high⟩, .inl ⟨rfl, rfl, fun first hR =>
      ⟨first, le_rfl, Nat.lt_succ_self _, hall first (hR first le_rfl (Nat.lt_succ_self _))⟩⟩⟩
  · rw [he]
    refine ⟨h.took ⟨ht.free, ht.used⟩ (le_of_lt (hpage.trans_le hlast)) (fun p hp => ?_) h.high,
      .inr ⟨page, rfl, h0, ht.free, ht.used⟩⟩
    exact (lt_or_ge (p / 64) s.lowHint).elim (h.low p) fun h1 => hfull p h1 hp

lemma takeHigh_spec :
    Inv m (s.takeHigh m).2 ∧ Answer s (fun p => m.lowWords ≤ p / 64 ∧ p / 64 < m.totalWords) 1 (s.takeHigh m) := by
  unfold takeHigh
  rcases takePageLocked_spec h.zero m.totalWords s.highHint with ⟨he, hfull⟩ | ⟨page, he, h0, hpage, ht, hfull⟩
  · have hall : ∀ p, m.lowWords ≤ p / 64 → p / 64 < m.totalWords → s.used p = true := fun p hl hp =>
      (lt_or_ge (p / 64) s.highHint).elim (h.high p hl) fun h1 => hfull p h1 hp
    rw [he]
    refine ⟨⟨h.zero, h.bound, h.low, hall⟩, .inl ⟨rfl, rfl, fun first hR => ?_⟩⟩
    obtain ⟨h1, h2⟩ := hR first le_rfl (Nat.lt_succ_self _)
    exact ⟨first, le_rfl, Nat.lt_succ_self _, hall first h1 h2⟩
  · rw [he]
    refine ⟨h.took ⟨ht.free, ht.used⟩ h.bound h.low (fun p hl hp => ?_),
      .inr ⟨page, rfl, h0, ht.free, ht.used⟩⟩
    exact (lt_or_ge (p / 64) s.highHint).elim (h.high p hl) fun h1 => hfull p h1 hp

lemma takePage_spec : Inv m (s.takePage m).2 ∧ Answer s (fun p => p / 64 < s.range m) 1 (s.takePage m) := by
  unfold takePage range
  cases s.ready with
  | false => exact takeLow_spec h (show min _ 4096 ≤ min _ 16384 by omega)
  | true =>
    obtain ⟨hinv, ha⟩ := takeHigh_spec h
    simp only [if_true]
    rcases ha with ⟨hr, hu, hfull⟩ | ⟨page, hr, h0, ht⟩
    · rw [if_pos hr]
      obtain ⟨hinv', ha⟩ := takeLow_spec hinv le_rfl
      refine ⟨hinv', ?_⟩
      rcases ha with ⟨hr', hu', hfull'⟩ | ⟨page, hr', h0, ht⟩
      · refine .inl ⟨hr', hu'.trans hu, fun first hR => ?_⟩
        -- the page is among the low ones, which were searched last, or among the others
        by_cases hlow : first / 64 < m.lowWords
        · rw [← hu]
          exact hfull' first fun q h1 h2 => by rwa [show q = first by omega]
        · exact hfull first fun q h1 h2 => ⟨by omega, hR q h1 h2⟩
      · exact .inr ⟨page, hr', h0, hu ▸ ht.free, hu ▸ ht.used⟩
    · rw [if_neg (by omega)]
      exact ⟨hinv, .inr ⟨page, hr, h0, ht⟩⟩

lemma takePages_spec (hcount : 0 < count) :
    Inv m (s.takePages m count).2 ∧ Answer s (fun p => p / 64 < s.range m) count (s.takePages m count) := by
  unfold takePages
  rcases hf : findRun s.used count (s.range m * 64 - s.lowHint * 64) (s.lowHint * 64) 0 with - | first
  · refine ⟨h, .inl ⟨rfl, rfl, fun first hR => ?_⟩⟩
    by_cases hlow : first < s.lowHint * 64
    · exact ⟨first, le_rfl, by omega, h.low first (by omega)⟩
    have := hR (first + count - 1) (by omega) (by omega)
    exact findRun_none hcount hf first (by omega) (by omega)
  have hfree := findRun_some hcount (Nat.zero_le _) (fun q h1 h2 => by omega) hf
  have ht := took_setBits hfree
  obtain ⟨-, h1, h2⟩ := @setBits_spec s (List.range' first count)
  refine ⟨h.took ht (h1.symm ▸ h.bound) (h1.symm ▸ h.low) (h2.symm ▸ h.high), .inr ⟨first, rfl, ?_, ht⟩⟩
  rintro rfl
  exact absurd (h.zero.symm.trans (hfree 0 le_rfl (by omega))) (by decide)

/-- A freed page is not below the hint of its part. -/
lemma Inv.free (p : Nat) : Inv m (s.freePageLocked m p) := by
  unfold freePageLocked
  split
  swap
  · exact h
  rename_i hp
  split
  · exact ⟨h.zero, h.bound, h.low, h.high⟩
  have hbound := h.bound
  have hused : ∀ q, q ≠ p → s.used q = true → (s.clearBit p).used q = true := fun q hq hu => by
    rw [used_clearBit, hu, decide_eq_false hq]
    rfl
  split
  · refine ⟨hused 0 (Ne.symm hp.1) h.zero, (min_le_left _ _).trans hbound, fun q hq => ?_,
      fun q hq hq' => hused q (by omega) (h.high q hq hq')⟩
    change q / 64 < min s.lowHint (p / 64) at hq
    exact hused q (by omega) (h.low q (by omega))
  refine ⟨hused 0 (Ne.symm hp.1) h.zero, hbound,
    fun q hq => hused q (by rintro rfl; exact absurd (hq.trans_le hbound) ‹_›) (h.low q hq),
    fun q hq hq' => ?_⟩
  change q / 64 < min s.highHint (p / 64) at hq'
  exact hused q (by omega) (h.high q hq (by omega))

end Sections

/-- A page that nobody shares becomes free, and no other page changes. -/
lemma used_freePageLocked (hp : p ≠ 0 ∧ p < m.totalPages) (hs : s.sharedRefs p = 0) :
    (s.freePageLocked m p).used q = (s.used q && !decide (q = p)) := by
  rw [← used_clearBit, freePageLocked, if_pos hp, if_neg (not_not.2 hs)]
  split <;> rfl

/-- Where a page is shared, or none of the allocator's, no bit changes. -/
lemma used_freePageLocked_of (h : ¬ ((p ≠ 0 ∧ p < m.totalPages) ∧ s.sharedRefs p = 0)) :
    (s.freePageLocked m p).used q = s.used q := by
  unfold freePageLocked
  split
  · rw [if_pos (fun hs => h ⟨‹_›, hs⟩)]
    rfl
  · rfl

end Bitmap

open Bitmap

variable {m : Memory} {s : Sys}

/-- The hints are right, and what is handed out is used. -/
structure Sys.Inv (m : Memory) (s : Sys) : Prop where
  bits : s.bits.Inv m
  live : ∀ p, s.live p = true → s.bits.used p = true

lemma Bitmap.Answer.live {R : Nat → Prop} {count : Nat} {r : Nat × Bitmap} (ha : Answer s.bits R count r)
    (h : ∀ p, s.live p = true → s.bits.used p = true) (p : Nat) (hp : grant s.live r.1 count p = true) :
    r.2.used p = true := by
  rw [grant, Bool.or_eq_true, decide_eq_true_eq] at hp
  rcases ha with ⟨h0, hu, -⟩ | ⟨first, hf, -, ht⟩
  · rw [hu]
    exact h p (hp.resolve_right fun hc => hc.1 h0)
  · rw [ht.used, Bool.or_eq_true, decide_eq_true_eq]
    rw [hf, Nat.mul_div_cancel _ (by decide)] at hp
    exact hp.imp (h p) And.right

lemma Sys.Inv.free (h : s.Inv m) (p : Nat) : (s.free m p).Inv m := by
  refine ⟨h.bits.free p, fun q hq => ?_⟩
  change (if s.bits.sharedRefs p = 0 then update s.live p false else s.live) q = true at hq
  show (s.bits.freePageLocked m p).used q = true
  by_cases hp : (p ≠ 0 ∧ p < m.totalPages) ∧ s.bits.sharedRefs p = 0
  · rw [if_pos hp.2] at hq
    have hne : q ≠ p := by
      rintro rfl
      simp at hq
    rw [update_of_ne hne] at hq
    rw [used_freePageLocked hp.1 hp.2, h.live q hq, decide_eq_false hne]
    rfl
  · rw [used_freePageLocked_of hp]
    refine h.live q ?_
    split at hq
    · by_cases hne : q = p
      · simp [hne] at hq
      · rwa [update_of_ne hne] at hq
    · exact hq

lemma Sys.Inv.step (h : s.Inv m) (l : Label) : (Pmm.step m s l).Inv m := by
  cases l with
  | takePage =>
    obtain ⟨hi, ha⟩ := takePage_spec h.bits
    exact ⟨hi, ha.live h.live⟩
  | takePages count =>
    dsimp only [Pmm.step]
    split
    · exact h
    obtain ⟨hi, ha⟩ := takePages_spec h.bits (Nat.pos_of_ne_zero ‹_›)
    exact ⟨hi, ha.live h.live⟩
  | free pages =>
    induction pages generalizing s with
    | nil => exact h
    | cons p pages ih => exact ih (h.free p)
  | share p =>
    dsimp only [Pmm.step, sharePage]
    split
    · exact ⟨⟨h.bits.zero, h.bits.bound, h.bits.low, h.bits.high⟩, h.live⟩
    · exact h
  | directMap => exact ⟨⟨h.bits.zero, h.bits.bound, h.bits.low, h.bits.high⟩, h.live⟩

lemma reachable_inv (h : (system m).Reachable s) : s.Inv m := by
  refine LTS.Inductive.reachable ⟨?_, ?_⟩ h
  · rintro s ⟨h0, hl, hh, -, hlive⟩
    refine ⟨⟨h0, by omega, fun p hp => by omega, fun p h1 h2 => by omega⟩, fun p hp => ?_⟩
    rw [hlive] at hp
    cases hp
  · rintro s l t hs rfl
    exact hs.step l

/-- **The page allocator**, after every sequence of sections: no free page is below the hint of its part, and none is
handed out; an allocation of one page or of a run answers 0 only if there is no such run in the words it may use, and
otherwise takes pages that were free, and those only; a page that is freed and that nobody shares is free. -/
theorem Bitmap.page_allocator (h : (system m).Reachable s) :
    (∀ p, s.bits.used p = false → s.bits.lowHint ≤ p / 64 ∧ (m.lowWords ≤ p / 64 → s.bits.highHint ≤ p / 64) ∧
      s.live p = false) ∧
    Answer s.bits (fun p => p / 64 < s.bits.range m) 1 (s.bits.takePage m) ∧
    (∀ count, 0 < count → Answer s.bits (fun p => p / 64 < s.bits.range m) count (s.bits.takePages m count)) ∧
    ∀ p, p ≠ 0 ∧ p < m.totalPages → s.bits.sharedRefs p = 0 → ∀ q,
      (s.bits.freePageLocked m p).used q = (s.bits.used q && !decide (q = p)) := by
  have hi := reachable_inv h
  refine ⟨fun p hp => ⟨?_, fun hl => ?_, ?_⟩, (takePage_spec hi.bits).2, fun count hc => (takePages_spec hi.bits hc).2,
    fun p hp hs q => used_freePageLocked hp hs⟩
  · exact Nat.le_of_not_lt fun hc => absurd (hi.bits.low p hc) (by simp [hp])
  · exact Nat.le_of_not_lt fun hc => absurd (hi.bits.high p hl hc) (by simp [hp])
  · by_contra hc
    exact absurd (hi.live p (by simpa using hc)) (by simp [hp])

/-- 128 pages, of which the first two are the kernel's. -/
def kernelOnly : Sys := ⟨⟨fun w => if w = 0 then 3 else 0, fun _ => 0, 0, 2, false⟩, fun _ => false⟩

/-- Pages 2 to 5 are handed out, and page 3 is given back. -/
def oneBack : Sys := [Label.takePage, .takePages 3, .free [3]].foldl (step ⟨128⟩) kernelOnly

theorem page_allocator_third : oneBack.live 4 = true ∧ oneBack.live 3 = false ∧
    (oneBack.bits.takePage ⟨128⟩).1 = 3 * 4096 ∧ (oneBack.bits.takePages ⟨128⟩ 2).1 = 6 * 4096 := by
  have h0 : (system ⟨128⟩).Reachable oneBack :=
    ⟨kernelOnly, _, ⟨by decide, rfl, by decide, rfl, fun _ => rfl⟩, LTS.run_ofFn _ _ _ _⟩
  exact ⟨by decide +kernel, ((Bitmap.page_allocator h0).1 3 (by decide +kernel)).2.2, by decide +kernel, by decide +kernel⟩

end Hermes.L2.Pmm
