import Mathlib

/-!
# Pieces of memory that do not overlap

Pieces are named by a type of tags; `has` says which of them there are and
`span` which addresses each one takes. `Apart.update` is the one rule: a
piece that is new takes addresses from pieces that are used up, or ones
that were free, and what is kept does not grow.
-/
namespace Hermes

variable {ι : Type*}

/-- No two of the pieces share an address. -/
def Apart (has : ι → Prop) (span : ι → Nat → Prop) : Prop := ∀ i j, has i → has j → i ≠ j → ∀ x, span i x → ¬ span j x

lemma Apart.update {has has' : ι → Prop} {span span' : ι → Nat → Prop} (h : Apart has span) (used new : ι → Prop)
    (keep : ∀ i, has' i → new i ∨ (has i ∧ ¬ used i ∧ ∀ x, span' i x → span i x))
    (cover : ∀ i, new i → ∀ x, span' i x → (∃ j, has j ∧ used j ∧ span j x) ∨ ∀ j, has j → ¬ used j → ¬ span j x)
    (disj : ∀ i j, new i → new j → i ≠ j → ∀ x, span' i x → ¬ span' j x) : Apart has' span' := by
  -- a new piece and one that is kept
  have hmix : ∀ i j, new i → has j → ¬ used j → (∀ x, span' j x → span j x) → ∀ x, span' i x → ¬ span' j x := by
    intro i j hi hj hu hs x hx hc
    rcases cover i hi x hx with ⟨k, hk, hku, hkx⟩ | hfree
    · have hne : k ≠ j := fun he => hu (he ▸ hku)
      exact h k j hk hj hne x hkx (hs x hc)
    · exact hfree j hj hu (hs x hc)
  intro i j hi hj hne x hxi hxj
  rcases keep i hi with hi | ⟨hi, hiu, his⟩
  · rcases keep j hj with hj | ⟨hj, hju, hjs⟩
    · exact disj i j hi hj hne x hxi hxj
    · exact hmix i j hi hj hju hjs x hxi hxj
  rcases keep j hj with hj | ⟨hj, hju, hjs⟩
  · exact hmix j i hj hi hiu his x hxj hxi
  · exact h i j hi hj hne x (his x hxi) (hjs x hxj)

/-- The address lies in one piece only. -/
lemma Apart.eq {has : ι → Prop} {span : ι → Nat → Prop} (h : Apart has span) {i j : ι} (hi : has i)
    (hj : has j) {x : Nat} (hxi : span i x) (hxj : span j x) : i = j := by
  by_contra hne
  exact h i j hi hj hne x hxi hxj

end Hermes
