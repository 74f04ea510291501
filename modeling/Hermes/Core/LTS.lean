import Mathlib

/-!
# Labelled transition systems

The run rules every component of this development uses. A system is a set
of initial states and a step relation; `Reachable` is closure under steps,
`Inductive` the invariant rule, and `restrict` the system that only takes
the steps meeting a side condition, so that "in every run whose steps all
meet `ok`" is reachability in `M.restrict ok`.
-/
namespace Hermes

/-- A labelled transition system over states `S` and labels `L`. -/
structure LTS (S L : Type*) where
  init : S → Prop
  step : S → L → S → Prop

namespace LTS

variable {S L : Type*}

/-- `M.Run s ls t`: the labels `ls` lead from `s` to `t`. -/
inductive Run (M : LTS S L) : S → List L → S → Prop
  | nil (s : S) : Run M s [] s
  | cons {s t u : S} {l : L} {ls : List L} : M.step s l t → Run M t ls u → Run M s (l :: ls) u

/-- Reachable from some initial state. -/
def Reachable (M : LTS S L) (s : S) : Prop := ∃ s₀ ls, M.init s₀ ∧ M.Run s₀ ls s

/-- `I` holds initially and every step keeps it. -/
structure Inductive (M : LTS S L) (I : S → Prop) : Prop where
  init : ∀ s, M.init s → I s
  step : ∀ s l t, I s → M.step s l t → I t

/-- The system of a total step function. -/
def ofFn (init : S → Prop) (f : S → L → S) : LTS S L := ⟨init, fun s l t => t = f s l⟩

/-- Only the steps that meet `ok` in the state they start from. -/
def restrict (M : LTS S L) (ok : S → L → Prop) : LTS S L := ⟨M.init, fun s l t => ok s l ∧ M.step s l t⟩

variable {M : LTS S L} {s t : S} {ls : List L} {ok : S → L → Prop} {init : S → Prop}

lemma Run.append {u : S} {ms : List L} (h : M.Run s ls t) (h' : M.Run t ms u) : M.Run s (ls ++ ms) u := by
  induction h with
  | nil _ => exact h'
  | cons hs _ ih => exact .cons hs (ih h')

variable {I : S → Prop} {f : S → L → Option S}

lemma Run.keeps (hI : ∀ s l t, I s → M.step s l t → I t) (h : M.Run s ls t) (hs : I s) : I t := by
  induction h with
  | nil _ => exact hs
  | cons hstep _ ih => exact ih (hI _ _ _ hs hstep)

lemma Inductive.reachable (h : M.Inductive I) (hr : M.Reachable s) : I s := by
  obtain ⟨s₀, ls, h0, hrun⟩ := hr
  exact hrun.keeps h.step (h.init s₀ h0)

lemma Reachable.of_init (h : M.init s) : M.Reachable s := ⟨s, [], h, .nil s⟩

lemma Reachable.run (h : M.Reachable s) (hr : M.Run s ls t) : M.Reachable t := by
  obtain ⟨s₀, ks, h0, hk⟩ := h
  exact ⟨s₀, ks ++ ls, h0, hk.append hr⟩

/-- A run of the restricted system is a run. -/
lemma Run.weaken (h : (M.restrict ok).Run s ls t) : M.Run s ls t := by
  induction h with
  | nil s => exact .nil s
  | cons hs _ ih => exact .cons hs.2 ih

/-- A side condition every step meets restricts nothing. -/
lemma Reachable.restrict (hok : ∀ s l, ok s l) (h : M.Reachable s) : (M.restrict ok).Reachable s := by
  obtain ⟨s₀, ls, h0, hrun⟩ := h
  refine ⟨s₀, ls, h0, ?_⟩
  clear h0
  induction hrun with
  | nil s => exact .nil s
  | cons hs _ ih => exact .cons ⟨hok _ _, hs⟩ ih

/-- A function system runs along the fold of its step. -/
lemma run_ofFn (init : S → Prop) (f : S → L → S) (ls : List L) (s : S) : (ofFn init f).Run s ls (ls.foldl f s) := by
  induction ls generalizing s with
  | nil => exact .nil s
  | cons l ls ih => exact .cons rfl (ih (f s l))

/-- Every step of `f` along `ls` meets `ok`. -/
def Meets (f : S → L → S) (ok : S → L → Prop) : S → List L → Prop
  | _, [] => True
  | s, l :: ls => ok s l ∧ Meets f ok (f s l) ls

lemma reachable_ofFn {f : S → L → S} (h0 : init s) (h : Meets f ok s ls) :
    ((ofFn init f).restrict ok).Reachable (ls.foldl f s) := by
  refine ⟨s, ls, h0, ?_⟩
  clear h0
  induction ls generalizing s with
  | nil => exact .nil s
  | cons l ls ih => exact .cons ⟨h.1, rfl⟩ (ih h.2)

/-- The system of a partial step function. -/
def ofOption (init : S → Prop) (f : S → L → Option S) : LTS S L := ⟨init, fun s l t => f s l = some t⟩

lemma run_ofOption (h : ls.foldlM f s = some t) : (ofOption init f).Run s ls t := by
  induction ls generalizing s with
  | nil =>
    cases h
    exact .nil _
  | cons l ls ih =>
    obtain ⟨u, hu, h'⟩ := Option.bind_eq_some_iff.1 h
    exact .cons hu (ih h')

/-- Running with a check of the side condition. -/
lemma run_restrict_ofOption [∀ s l, Decidable (ok s l)]
    (h : ls.foldlM (fun s l => if ok s l then f s l else none) s = some t) :
    ((ofOption init f).restrict ok).Run s ls t := by
  induction ls generalizing s with
  | nil =>
    cases h
    exact .nil _
  | cons l ls ih =>
    rw [List.foldlM_cons] at h
    obtain ⟨u, hu, h'⟩ := Option.bind_eq_some_iff.1 h
    split at hu
    · rename_i hok
      exact .cons ⟨hok, hu⟩ (ih h')
    · cases hu

end LTS

end Hermes
