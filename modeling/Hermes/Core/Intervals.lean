import Mathlib

/-!
# Sorted lists of disjoint intervals

A component that keeps half-open intervals `[lo, hi)` in address order
keeps a list that is `Tiled`: every interval is non-empty and ends before
the next one begins. The list is what an in-order walk of a search tree
visits, so the search and the insertion are given twice: on the list, and
on a binary tree as a descent; on a tiled sequence the two agree, whatever
the shape of the tree.
-/
namespace Hermes

open List Option

/-- A value that stands for the half-open interval `[lo, hi)`. -/
class Interval (α : Type*) where
  lo : α → Nat
  hi : α → Nat

namespace Intervals

open Hermes.Interval

variable {α : Type*} [Interval α]

/-- In address order, non-empty and disjoint. -/
structure Tiled (L : List α) : Prop where
  order : L.Pairwise fun x y => hi x ≤ lo y
  proper : ∀ x ∈ L, lo x < hi x

/-- The first interval that ends after `p`. -/
def firstAfter (L : List α) (p : Nat) : Option α := L.find? fun x => decide (p < hi x)

/-- The interval that contains `p`. -/
def cover (L : List α) (p : Nat) : Option α := L.find? fun x => decide (lo x ≤ p ∧ p < hi x)

/-- Put `y` behind every interval that begins no later. -/
def insert (y : α) : List α → List α
  | [] => [y]
  | x :: L => if lo x ≤ lo y then x :: insert y L else y :: x :: L

/-! ## Tiled lists -/

lemma tiled_nil : Tiled ([] : List α) := ⟨.nil, by simp⟩

variable {x y : α} {L M : List α} {p : Nat}

lemma tiled_cons : Tiled (x :: L) ↔ lo x < hi x ∧ (∀ y ∈ L, hi x ≤ lo y) ∧ Tiled L := by
  constructor
  · rintro ⟨ho, hp⟩
    rw [pairwise_cons] at ho
    exact ⟨hp x (by simp), ho.1, ho.2, fun y hy => hp y (by simp [hy])⟩
  rintro ⟨hx, ha, ho, hp⟩
  refine ⟨pairwise_cons.2 ⟨ha, ho⟩, ?_⟩
  intro y hy
  rcases mem_cons.1 hy with rfl | hy
  · exact hx
  · exact hp y hy

lemma tiled_append : Tiled (L ++ M) ↔ Tiled L ∧ Tiled M ∧ ∀ x ∈ L, ∀ y ∈ M, hi x ≤ lo y := by
  constructor
  · rintro ⟨ho, hp⟩
    rw [pairwise_append] at ho
    exact ⟨⟨ho.1, fun x hx => hp x (by simp [hx])⟩, ⟨ho.2.1, fun x hx => hp x (by simp [hx])⟩, ho.2.2⟩
  rintro ⟨⟨hl, pl⟩, ⟨hm, pm⟩, hlm⟩
  refine ⟨pairwise_append.2 ⟨hl, hm, hlm⟩, ?_⟩
  intro x hx
  rcases mem_append.1 hx with hx | hx
  · exact pl x hx
  · exact pm x hx

lemma Tiled.sublist (h : Tiled L) (hs : M.Sublist L) : Tiled M :=
  ⟨h.order.sublist hs, fun x hx => h.proper x (hs.subset hx)⟩

/-- Two intervals that share a point are one. -/
lemma Tiled.eq_of_overlap (h : Tiled L) (hx : x ∈ L) (hy : y ∈ L) (h1 : lo x < hi y) (h2 : lo y < hi x) : x = y := by
  induction L with
  | nil => simp at hx
  | cons z L ih =>
    obtain ⟨-, ha, ht⟩ := tiled_cons.1 h
    rcases mem_cons.1 hx with rfl | hx' <;> rcases mem_cons.1 hy with rfl | hy'
    · rfl
    · have := ha y hy'
      omega
    · have := ha x hx'
      omega
    · exact ih ht hx' hy'

/-- Distinct intervals lie on one side of each other. -/
lemma Tiled.apart (h : Tiled L) (hx : x ∈ L) (hy : y ∈ L) (hne : x ≠ y) : hi x ≤ lo y ∨ hi y ≤ lo x := by
  by_contra hc
  exact hne (h.eq_of_overlap hx hy (by omega) (by omega))

lemma Tiled.nodup (h : Tiled L) : L.Nodup := by
  refine h.order.imp_of_mem ?_
  rintro x y hx hy hle rfl
  have := h.proper x hx
  omega

lemma cover_eq_some (h : Tiled L) : cover L p = some x ↔ x ∈ L ∧ lo x ≤ p ∧ p < hi x := by
  constructor
  · intro hc
    have := List.find?_some hc
    exact ⟨mem_of_find?_eq_some hc, by simpa using this⟩
  rintro ⟨hx, h1, h2⟩
  rcases hc : cover L p with - | y
  · have := List.find?_eq_none.1 hc x hx
    simp only [decide_eq_true_eq, not_and] at this
    exact absurd h2 (this h1)
  have hy := List.find?_some hc
  simp only [decide_eq_true_eq] at hy
  rw [h.eq_of_overlap hx (mem_of_find?_eq_some hc) (by omega) (by omega)]

lemma cover_eq_none : cover L p = none ↔ ∀ x ∈ L, lo x ≤ p → hi x ≤ p := by simp [cover]

/-! ## Search -/

lemma firstAfter_eq_some (h : Tiled L) :
    firstAfter L p = some x ↔ x ∈ L ∧ p < hi x ∧ ∀ y ∈ L, p < hi y → lo x ≤ lo y := by
  induction L with
  | nil => simp [firstAfter]
  | cons z L ih =>
    obtain ⟨hz, ha, ht⟩ := tiled_cons.1 h
    by_cases hp : p < hi z
    · have he : firstAfter (z :: L) p = some z := by simp [firstAfter, hp]
      rw [he, some_inj]
      constructor
      · rintro rfl
        refine ⟨by simp, hp, ?_⟩
        intro y hy _
        rcases mem_cons.1 hy with rfl | hy
        · exact le_rfl
        have := ha y hy
        omega
      · rintro ⟨hx, -, hmin⟩
        rcases mem_cons.1 hx with rfl | hx
        · rfl
        have h1 := hmin z (by simp) hp
        have h2 := ha x hx
        omega
    · have he : firstAfter (z :: L) p = firstAfter L p := by simp [firstAfter, hp]
      rw [he, ih ht]
      constructor
      · rintro ⟨hx, hpx, hmin⟩
        refine ⟨by simp [hx], hpx, ?_⟩
        intro y hy hpy
        rcases mem_cons.1 hy with rfl | hy
        · exact absurd hpy hp
        · exact hmin y hy hpy
      · rintro ⟨hx, hpx, hmin⟩
        rcases mem_cons.1 hx with rfl | hx
        · exact absurd hpx hp
        · exact ⟨hx, hpx, fun y hy => hmin y (by simp [hy])⟩

lemma firstAfter_eq_none : firstAfter L p = none ↔ ∀ x ∈ L, hi x ≤ p := by simp [firstAfter]

/-- No interval meets `[s, e)`: what the test on the first interval after `s` decides. -/
lemma firstAfter_free (h : Tiled L) {s e : Nat} :
    (∀ x, firstAfter L s = some x → e ≤ lo x) ↔ ∀ x ∈ L, hi x ≤ s ∨ e ≤ lo x := by
  rcases hf : firstAfter L s with - | x
  · have := firstAfter_eq_none.1 hf
    simp only [reduceCtorEq, false_implies, implies_true, true_iff]
    exact fun x hx => .inl (this x hx)
  obtain ⟨hx, hpx, hmin⟩ := (firstAfter_eq_some h).1 hf
  constructor
  · intro hfree y hy
    have he := hfree x rfl
    by_cases hs : hi y ≤ s
    · exact .inl hs
    have := hmin y hy (by omega)
    exact .inr (by omega)
  · intro hfree y hy
    obtain rfl := some_inj.1 hy
    rcases hfree x hx with h1 | h1
    · omega
    · exact h1

/-! ## Insertion -/

lemma mem_insert : x ∈ insert y L ↔ x = y ∨ x ∈ L := by
  induction L with
  | nil => simp [insert]
  | cons z L ih =>
    unfold insert
    split
    · rw [mem_cons, mem_cons]
      tauto
    · rw [mem_cons]

lemma Tiled.insert (h : Tiled L) (hy : lo y < hi y) (hfree : ∀ x ∈ L, hi x ≤ lo y ∨ hi y ≤ lo x) :
    Tiled (insert y L) := by
  induction L with
  | nil => exact tiled_cons.2 ⟨hy, by simp, tiled_nil⟩
  | cons z L ih =>
    obtain ⟨hz, ha, ht⟩ := tiled_cons.1 h
    have hfz := hfree z (by simp)
    unfold Intervals.insert
    by_cases hzy : lo z ≤ lo y
    · rw [if_pos hzy]
      refine tiled_cons.2 ⟨hz, ?_, ih ht fun x hx => hfree x (by simp [hx])⟩
      intro x hx
      rcases mem_insert.1 hx with rfl | hx
      · omega
      · exact ha x hx
    rw [if_neg hzy]
    refine tiled_cons.2 ⟨hy, ?_, h⟩
    intro x hx
    rcases mem_cons.1 hx with rfl | hx
    · omega
    have := ha x hx
    omega

/-! ## Search trees

The shape of the tree is left open: rebalancing changes it and keeps the
in-order sequence. -/

inductive Tree (α : Type*)
  | leaf
  | node (left : Tree α) (x : α) (right : Tree α)

namespace Tree

def toList : Tree α → List α
  | leaf => []
  | node l x r => l.toList ++ x :: r.toList

/-- Descend towards the first interval that ends after `p`; `found` is the
best one met so far. -/
def search (p : Nat) : Tree α → Option α → Option α
  | leaf, found => found
  | node l x r, found => if p < hi x then l.search p (some x) else r.search p found

/-- Descend to the leaf at which `y` is linked in: right of its equals. -/
def link (y : α) : Tree α → Tree α
  | leaf => node leaf y leaf
  | node l x r => if lo x ≤ lo y then node l x (r.link y) else node (l.link y) x r

lemma search_eq (p : Nat) (t : Tree α) (ht : Tiled t.toList) (found : Option α) :
    t.search p found = (firstAfter t.toList p).or found := by
  induction t generalizing found with
  | leaf => simp [search, toList, firstAfter]
  | node l x r ihl ihr =>
    obtain ⟨hl, hr, hlr⟩ := tiled_append.1 ht
    obtain ⟨hx, -, hr⟩ := tiled_cons.1 hr
    unfold search
    by_cases hp : p < hi x
    · rw [if_pos hp, ihl hl]
      simp only [firstAfter, toList, List.find?_append, List.find?_cons, hp, decide_true, Option.or_assoc, some_or]
    have hno : firstAfter l.toList p = none := by
      rw [firstAfter_eq_none]
      intro y hy
      have := hlr y hy x (by simp)
      omega
    rw [if_neg hp, ihr hr]
    simp only [firstAfter] at hno
    simp only [firstAfter, toList, List.find?_append, List.find?_cons, hp, decide_false, hno, none_or]

private lemma insert_append_left (h : ¬ lo x ≤ lo y) : insert y (L ++ x :: M) = insert y L ++ x :: M := by
  induction L with
  | nil => simp [insert, h]
  | cons z L ih =>
    simp only [cons_append, insert]
    split
    · rw [ih, cons_append]
    · rfl

private lemma insert_append_right (hL : ∀ z ∈ L, lo z ≤ lo y) (hx : lo x ≤ lo y) :
    insert y (L ++ x :: M) = L ++ x :: insert y M := by
  induction L with
  | nil => simp [insert, hx]
  | cons z L ih =>
    rw [cons_append, insert, if_pos (hL z (by simp)), ih fun w hw => hL w (by simp [hw]), cons_append]

lemma toList_link (y : α) (t : Tree α) (ht : Tiled t.toList) : (t.link y).toList = insert y t.toList := by
  induction t with
  | leaf => rfl
  | node l x r ihl ihr =>
    obtain ⟨hl, hr, hlr⟩ := tiled_append.1 ht
    obtain ⟨hx, -, hr⟩ := tiled_cons.1 hr
    unfold link
    by_cases hxy : lo x ≤ lo y
    · have hle : ∀ z ∈ l.toList, lo z ≤ lo y := by
        intro z hz
        have h1 := hlr z hz x (by simp)
        have h2 := hl.proper z hz
        omega
      rw [if_pos hxy, toList, ihr hr, toList, insert_append_right hle hxy]
    · rw [if_neg hxy, toList, ihl hl, toList, insert_append_left hxy]

end Tree

end Intervals

end Hermes
