import Mathlib

/-!
# A bounded table of queues

Queues by their key, the oldest first. Where the table is full the oldest queue makes room for a new one.
-/
namespace Hermes

open List

variable {κ σ : Type*} [DecidableEq κ]

abbrev QueueTable (κ σ : Type*) := List (κ × σ)

namespace QueueTable

variable (qs : QueueTable κ σ) (k : κ)

def lookup : Option σ := (List.find? (fun x => x.1 = k) qs).map Prod.snd

/-- The table with room for a queue of the key. -/
def room (cap : Nat) : QueueTable κ σ := if (lookup qs k).isSome ∨ qs.length < cap then qs else qs.tail

/-- The queue of the key becomes `q`; a new one is the last. -/
def put (q : σ) : QueueTable κ σ :=
  if (lookup qs k).isSome then qs.map fun x => if x.1 = k then (k, q) else x else qs ++ [(k, q)]

/-- The queue of the key goes. -/
def remove : QueueTable κ σ := qs.filter fun x => x.1 ≠ k

variable {qs k} {l : κ} {q : σ}

lemma lookup_eq_none : lookup qs k = none ↔ ∀ x ∈ qs, x.1 ≠ k := by simp [lookup]

lemma lookup_cons (x : κ × σ) : lookup (x :: qs) k = if x.1 = k then some x.2 else lookup qs k := by
  unfold lookup
  by_cases hx : x.1 = k <;> simp [hx]

lemma lookup_append_single (x : κ × σ) (h : lookup qs k = none) :
    lookup (qs ++ [x]) k = if x.1 = k then some x.2 else none := by
  induction qs with
  | nil => exact lookup_cons x
  | cons y qs ih =>
    rw [lookup_cons] at h
    split at h
    · cases h
    rename_i hy
    rw [cons_append, lookup_cons, if_neg hy]
    exact ih h

lemma lookup_put_same : lookup (put qs k q) k = some q := by
  unfold put
  split <;> rename_i h
  · induction qs with
    | nil => cases h
    | cons x qs ih =>
      rw [map_cons, lookup_cons]
      by_cases hx : x.1 = k
      · simp [hx]
      rw [lookup_cons, if_neg hx] at h
      rw [if_neg hx, if_neg hx]
      exact ih h
  · rw [lookup_append_single _ (by simpa using h), if_pos rfl]

lemma lookup_put_ne (h : l ≠ k) : lookup (put qs k q) l = lookup qs l := by
  unfold put
  split
  · clear * - h
    induction qs with
    | nil => rfl
    | cons x qs ih =>
      rw [map_cons, lookup_cons, lookup_cons, ih]
      by_cases hx : x.1 = k
      · have hxl : x.1 ≠ l := fun e => h (e.symm.trans hx)
        rw [if_pos hx, if_neg h.symm, if_neg hxl]
      · rw [if_neg hx]
  · clear * - h
    induction qs with
    | nil => rw [nil_append, lookup_cons, if_neg h.symm]
    | cons x qs ih => rw [cons_append, lookup_cons, lookup_cons, ih]

lemma lookup_remove_same : lookup (remove qs k) k = none := by
  rw [lookup_eq_none]
  intro x hx
  simpa using (mem_filter.1 hx).2

lemma lookup_remove_ne (h : l ≠ k) : lookup (remove qs k) l = lookup qs l := by
  unfold remove lookup
  rw [List.find?_filter]
  congr 2
  funext x
  by_cases hx : x.1 = l
  · simp [hx, h]
  · simp [hx]

/-! ### Membership -/

lemma mem_of_lookup (h : lookup qs k = some q) : (k, q) ∈ qs := by
  obtain ⟨x, hx, rfl⟩ := Option.map_eq_some_iff.1 h
  have hk : x.1 = k := by simpa using List.find?_some hx
  rw [← hk]
  exact mem_of_find?_eq_some hx

variable {x : κ × σ}

lemma mem_room {cap : Nat} (h : x ∈ room qs k cap) : x ∈ qs := by
  unfold room at h
  split at h
  · exact h
  · exact mem_of_mem_tail h

lemma mem_remove (h : x ∈ remove qs k) : x ∈ qs := (mem_filter.1 h).1

lemma mem_put (h : x ∈ put qs k q) : x = (k, q) ∨ x ∈ qs := by
  unfold put at h
  split at h
  · obtain ⟨y, hy, rfl⟩ := mem_map.1 h
    split
    · exact .inl rfl
    · exact .inr hy
  · rcases mem_append.1 h with h | h
    · exact .inr h
    · exact .inl (mem_singleton.1 h)

end QueueTable

end Hermes
