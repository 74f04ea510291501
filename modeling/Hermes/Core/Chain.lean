import Mathlib

/-!
# Linked lists in memory

A singly linked list whose links are kept in a map `next` from a node to
its successor. `Seg next p l q` says that following the links from `p`
visits the nodes `l` and arrives at `q`; with the null pointer 0 for `q`
the list is a `Chain`. The nodes are addresses, none of them null.
-/
namespace Hermes

/-- From `p` the links visit `l` and arrive at `q`. -/
def Seg (next : Nat → Nat) : Nat → List Nat → Nat → Prop
  | p, [], q => p = q
  | p, a :: l, q => p = a ∧ a ≠ 0 ∧ Seg next (next a) l q

/-- A null-terminated list. -/
def Chain (next : Nat → Nat) (p : Nat) (l : List Nat) : Prop := Seg next p l 0

variable {next next' : Nat → Nat} {p q r : Nat} {l m : List Nat}

lemma Seg.congr (h : Seg next p l q) (he : ∀ a ∈ l, next' a = next a) : Seg next' p l q := by
  induction l generalizing p with
  | nil => exact h
  | cons a l ih =>
    obtain ⟨h1, h2, h3⟩ := h
    refine ⟨h1, h2, ?_⟩
    rw [he a (by simp)]
    exact ih h3 fun b hb => he b (by simp [hb])

lemma seg_append : Seg next p (l ++ m) q ↔ ∃ r, Seg next p l r ∧ Seg next r m q := by
  induction l generalizing p with
  | nil => simp [Seg]
  | cons a l ih =>
    simp only [List.cons_append, Seg, ih]
    constructor
    · rintro ⟨h1, h2, r, h3, h4⟩
      exact ⟨r, ⟨h1, h2, h3⟩, h4⟩
    rintro ⟨r, ⟨h1, h2, h3⟩, h4⟩
    exact ⟨h1, h2, r, h3, h4⟩

variable {a : Nat}

lemma Seg.ne_zero (h : Seg next p l q) (ha : a ∈ l) : a ≠ 0 := by
  induction l generalizing p with
  | nil => cases ha
  | cons b l ih =>
    rcases List.mem_cons.1 ha with rfl | ha
    · exact h.2.1
    · exact ih h.2.2 ha

/-- The end of a segment that is not empty is the link of its last node. -/
lemma seg_concat : Seg next p (l ++ [a]) q ↔ Seg next p l a ∧ a ≠ 0 ∧ next a = q := by
  rw [seg_append]
  constructor
  · rintro ⟨r, h1, rfl, h2, h3⟩
    exact ⟨h1, h2, h3⟩
  rintro ⟨h1, h2, h3⟩
  exact ⟨a, h1, rfl, h2, h3⟩

/-- The last link of a segment set to another node. -/
lemma Seg.setLast (h : Seg next p (l ++ [a]) q) (he : ∀ d ∈ l, next' d = next d) (ha : next' a = r) :
    Seg next' p (l ++ [a]) r := by
  obtain ⟨h1, h2, -⟩ := seg_concat.1 h
  exact seg_concat.2 ⟨h1.congr he, h2, ha⟩

/-- A segment put before a chain. -/
lemma Seg.splice (h : Seg next p (l ++ [a]) q) (hm : Chain next r m) (hl : ∀ d ∈ l, next' d = next d)
    (hm' : ∀ d ∈ m, next' d = next d) (ha : next' a = r) : Chain next' p (l ++ [a] ++ m) :=
  seg_append.2 ⟨r, h.setLast hl ha, hm.congr hm'⟩

lemma chain_cons : Chain next p (a :: l) ↔ p = a ∧ a ≠ 0 ∧ Chain next (next a) l := Iff.rfl

lemma Chain.nil_of_zero (h : Chain next 0 l) : l = [] := by
  cases l with
  | nil => rfl
  | cons a l => exact absurd h.1.symm h.2.1

lemma Chain.cons_of_ne_zero (h : Chain next p l) (hp : p ≠ 0) : ∃ m, l = p :: m ∧ Chain next (next p) m := by
  cases l with
  | nil => exact absurd h hp
  | cons a l =>
    obtain ⟨rfl, -, h3⟩ := h
    exact ⟨l, rfl, h3⟩

/-- `p` is the node before the place behind the nodes `l`, 0 at the front. -/
def Before (l : List Nat) (p : Nat) : Prop := (l = [] ∧ p = 0) ∨ ∃ m, l = m ++ [p]

end Hermes
