import Hermes.Core.LTS

/-!
# Infinite runs and progress

`Exec` is an infinite run of a system. Progress along it is argued with two
rules: `awaits` (a property that lasts until some step that is sure to
happen) and `descends` (progress that lowers a measure). Both are about any
sequence of states; fairness enters only as the hypothesis of `awaits`.
-/
namespace Hermes.LTS

/-- An infinite run of `M`. -/
structure Exec {S L : Type*} (M : LTS S L) where
  state : ℕ → S
  label : ℕ → L
  step : ∀ t, M.step (state t) (label t) (state (t + 1))

/-- `P` lasts until `A` happens, and `A` is sure to happen: it happens in a
state with `P`. -/
lemma awaits {P A : ℕ → Prop} (hstep : ∀ t, P t → A t ∨ P (t + 1))
    (hfair : ∀ t, P t → ∃ u, t ≤ u ∧ A u) {t : ℕ} (h : P t) : ∃ u, t ≤ u ∧ P u ∧ A u := by
  obtain ⟨u, htu, hu⟩ := hfair t h
  have hlast : ∀ d, P (t + d) ∨ ∃ w, t ≤ w ∧ P w ∧ A w := by
    intro d
    induction d with
    | zero => exact .inl h
    | succ d ih =>
      rcases ih with ih | ih
      · rcases hstep _ ih with hA | hP
        · exact .inr ⟨t + d, by omega, ih, hA⟩
        · exact .inl hP
      · exact .inr ih
  rcases hlast (u - t) with hP | hA
  · rw [Nat.add_sub_cancel' htu] at hP
    exact ⟨u, htu, hP, hu⟩
  · exact hA

/-- A measure that keeps falling until `Q`. -/
lemma descends {P : ℕ → ℕ → Prop} {Q : ℕ → Prop} (h : ∀ m t, P m t → ∃ u, t ≤ u ∧ (Q u ∨ ∃ m', m' < m ∧ P m' u)) :
    ∀ {m t : ℕ}, P m t → ∃ u, t ≤ u ∧ Q u := by
  intro m
  induction m using Nat.strongRecOn with
  | ind m ih =>
    intro t hP
    obtain ⟨u, htu, hq | ⟨m', hm, hP'⟩⟩ := h m t hP
    · exact ⟨u, htu, hq⟩
    obtain ⟨w, huw, hw⟩ := ih m' hm hP'
    exact ⟨w, by omega, hw⟩

end Hermes.LTS
