import Mathlib

/-!
# Items filed in buckets

A hash table of linked items: each item is in the bucket of its key, once, or in none.
-/
namespace Hermes

open List

variable {κ ι : Type*} [DecidableEq κ] [DecidableEq ι]

/-- Each item with a key is in the bucket of its key, once, and in no other. -/
structure Filed (b : κ → List ι) (key : ι → Option κ) : Prop where
  nodup : ∀ k, (b k).Nodup
  mem_iff : ∀ k i, i ∈ b k ↔ key i = some k

/-- The item goes to the end of the bucket. -/
def fileIn (b : κ → List ι) (k : κ) (i : ι) : κ → List ι := fun l => if l = k then b l ++ [i] else b l

/-- The item leaves the bucket. -/
def takeOut (b : κ → List ι) (k : κ) (i : ι) : κ → List ι := fun l => if l = k then (b l).erase i else b l

namespace Filed

variable {b : κ → List ι} {key key' : ι → Option κ} {i : ι} {k : κ}

omit [DecidableEq κ] [DecidableEq ι] in
lemma congr (h : Filed b key) (he : ∀ i, key' i = key i) : Filed b key' :=
  ⟨h.nodup, fun k i => by rw [he i, h.mem_iff]⟩

omit [DecidableEq ι] in
/-- An item without a key is filed. -/
lemma fileIn (h : Filed b key) (hi : key i = none) (hk : key' i = some k) (hne : ∀ j, j ≠ i → key' j = key j) :
    Filed (fileIn b k i) key' := by
  have hout : ∀ l, i ∉ b l := by
    intro l hl
    rw [h.mem_iff, hi] at hl
    cases hl
  refine ⟨fun l => ?_, fun l j => ?_⟩
  · unfold Hermes.fileIn
    split
    · exact nodup_append.2 ⟨h.nodup l, nodup_singleton i, fun a ha c hc hac =>
        hout l (mem_singleton.1 hc ▸ hac ▸ ha)⟩
    · exact h.nodup l
  by_cases hj : j = i
  · subst hj
    rw [hk, Hermes.fileIn]
    split <;> rename_i hl
    · simp [hl]
    · simpa [hout l] using Ne.symm hl
  · rw [hne j hj, ← h.mem_iff, Hermes.fileIn]
    split
    · simp [hj]
    · rfl

/-- An item leaves the bucket it is in. -/
lemma takeOut (h : Filed b key) (hi : key i = some k) (hk : key' i = none) (hne : ∀ j, j ≠ i → key' j = key j) :
    Filed (takeOut b k i) key' := by
  refine ⟨fun l => ?_, fun l j => ?_⟩
  · unfold Hermes.takeOut
    split
    · exact (h.nodup l).erase i
    · exact h.nodup l
  by_cases hj : j = i
  · subst hj
    rw [hk, Hermes.takeOut]
    split
    · simp [(h.nodup l).not_mem_erase]
    rename_i hl
    rw [h.mem_iff, hi]
    simpa using Ne.symm hl
  · rw [hne j hj, ← h.mem_iff, Hermes.takeOut]
    split
    · rw [mem_erase_of_ne hj]
    · rfl

end Filed

end Hermes
