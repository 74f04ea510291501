import Mathlib

/-!
# Graphs without long paths

`Shallow G n u` says that no path from `u` has more than `n` nodes. Such a node is on no cycle, and an edge may be added
at a node that nothing leads to.
-/
namespace Hermes

variable {α : Type*} {G H : α → α → Prop} {n m : Nat} {u v x : α}

/-- No path of `G` from `u` has more than `n` nodes. -/
def Shallow (G : α → α → Prop) : Nat → α → Prop
  | 0, _ => False
  | n + 1, u => ∀ v, G u v → Shallow G n v

namespace Shallow

lemma mono (h : Shallow G n u) (hGH : ∀ u v, H u v → G u v) : Shallow H n u := by
  induction n generalizing u with
  | zero => exact h
  | succ n ih => exact fun v hv => ih (h v (hGH u v hv))

lemma length_le {l : List α} (h : Shallow G n u) (hl : List.IsChain G (u :: l)) : (u :: l).length ≤ n := by
  induction n generalizing u l with
  | zero => exact h.elim
  | succ n ih =>
    cases l with
    | nil => simp
    | cons v l =>
      rw [List.isChain_cons_cons] at hl
      have := ih (h v hl.1) hl.2
      simpa using this

/-- A node on a cycle has a path of every length. -/
lemma not_transGen (h : Shallow G n u) : ¬ Relation.TransGen G u u := by
  intro hc
  induction n generalizing u with
  | zero => exact h
  | succ n ih =>
    obtain ⟨v, huv, hvu⟩ := Relation.TransGen.head'_iff.1 hc
    exact ih (h v huv) (Relation.TransGen.tail' hvu huv)

/-- A new edge from `u` does not lengthen the paths from nodes that do not lead to `u`. -/
lemma of_new_edge (hG : ∀ x y, H x y → G x y ∨ x = u) (hu : ∀ x, ¬ G x u) (h : Shallow G n x) (hx : x ≠ u) :
    Shallow H n x := by
  induction n generalizing x with
  | zero => exact h
  | succ n ih =>
    intro y hy
    have hxy : G x y := (hG x y hy).resolve_right hx
    exact ih (h y hxy) fun e => hu x (e ▸ hxy)

/-- An edge from `u` to `v` is added, and nothing leads to `u`. -/
lemma add_edge (hH : ∀ x y, H x y → G x y ∨ x = u ∧ y = v) (hu : ∀ x, ¬ G x u) (huv : v ≠ u)
    (hv : Shallow G n v) (h : Shallow G (n + 1) x) : Shallow H (n + 1) x := by
  have hG : ∀ x y, H x y → G x y ∨ x = u := fun x y hxy => (hH x y hxy).imp_right And.left
  by_cases hx : x = u
  · intro y hy
    rcases hH x y hy with hxy | ⟨-, rfl⟩
    · exact of_new_edge hG hu (h y hxy) fun e => hu x (e ▸ hxy)
    · exact of_new_edge hG hu hv huv
  · exact of_new_edge hG hu h hx

end Shallow

end Hermes
