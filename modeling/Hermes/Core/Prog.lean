import Mathlib

/-!
# Programs and what holds after them

A program over a state `S` changes the state and returns a value, fails with an
error, or does not end. `Post D m Q s` says that `Q` holds of the result and the state when
`m` is run in `s`; `D` is what a run that does not end owes, so that `Post False` is total
and `Post True` partial correctness, and one set of rules serves both.
-/
namespace Hermes

/-- Programs over `S` with errors `ε`; `none` is a run that does not end. -/
def Prog (S ε α : Type) := S → Option (Except ε α × S)

namespace Prog

variable {S ε α β : Type}

instance : Monad (Prog S ε) where
  pure a := fun s => some (.ok a, s)
  bind m f := fun s =>
    match m s with
    | none => none
    | some (.error e, s') => some (.error e, s')
    | some (.ok a, s') => f a s'

/-- The state. -/
def read : Prog S ε S := fun s => some (.ok s, s)

def modify (f : S → S) : Prog S ε Unit := fun s => some (.ok (), f s)

def fail (e : ε) : Prog S ε α := fun s => some (.error e, s)

/-- A loop that has made more turns than any run that ends. -/
def diverge : Prog S ε α := fun _ => none

/-- The outcome of `m`, an error as a value. -/
def attempt (m : Prog S ε α) : Prog S ε (Except ε α) := fun s => (m s).map fun r => (.ok r.1, r.2)

/-- `m` on a condition. -/
def when (c : Bool) (m : Prog S ε Unit) : Prog S ε Unit := if c then m else pure ()

/-- `m` with every error reported as `e`. -/
def failWith (e : ε) (m : Prog S ε α) : Prog S ε α := fun s =>
  (m s).map fun r => (r.1.mapError fun _ => e, r.2)

/-- `Q` holds after `m`; a run that does not end owes `D`. -/
def Post (D : Prop) (m : Prog S ε α) (Q : Except ε α → S → Prop) (s : S) : Prop :=
  match m s with
  | none => D
  | some (r, s') => Q r s'

variable {D : Prop} {m : Prog S ε α} {f : α → Prog S ε β} {Q R : Except ε α → S → Prop} {s : S}

lemma Post.mono (h : Post D m Q s) (hQ : ∀ r s', Q r s' → R r s') : Post D m R s := by
  unfold Post at h ⊢
  split
  · rename_i he
    rw [he] at h
    exact h
  rename_i r s' he
  rw [he] at h
  exact hQ r s' h

@[simp]
lemma post_pure (a : α) : Post D (pure a : Prog S ε α) Q s ↔ Q (.ok a) s := Iff.rfl

@[simp]
lemma post_read {Q : Except ε S → S → Prop} : Post D (read : Prog S ε S) Q s ↔ Q (.ok s) s := Iff.rfl

variable {g : S → S} {c : Prop} {I : S → Prop}

@[simp]
lemma post_modify {Q : Except ε Unit → S → Prop} : Post D (modify g : Prog S ε Unit) Q s ↔ Q (.ok ()) (g s) := Iff.rfl

@[simp]
lemma post_bind {Q : Except ε β → S → Prop} : Post D (m >>= f) Q s ↔ Post D m (fun r s' =>
      match r with
      | .ok a => Post D (f a) Q s'
      | .error e => Q (.error e) s') s := by
  show Post D (fun s => match m s with
    | none => none
    | some (.error e, s') => some (.error e, s')
    | some (.ok a, s') => f a s') Q s ↔ _
  unfold Post
  beta_reduce
  rcases m s with _ | ⟨_ | _, _⟩ <;> exact Iff.rfl

@[simp]
lemma post_attempt {Q : Except ε (Except ε α) → S → Prop} :
    Post D (attempt m) Q s ↔ Post D m (fun r s' => Q (.ok r) s') s := by
  unfold Post attempt
  cases m s <;> exact Iff.rfl

variable {n : Prog S ε α}

lemma post_ite [Decidable c] : Post D (if c then m else n) Q s ↔ (c → Post D m Q s) ∧ (¬c → Post D n Q s) := by
  split <;> rename_i h <;> simp [h]

lemma post_when {c : Bool} {m : Prog S ε Unit} {Q : Except ε Unit → S → Prop} :
    Post D (when c m) Q s ↔ (c = true → Post D m Q s) ∧ (c = false → Q (.ok ()) s) := by
  cases c
  · exact ⟨fun h => ⟨nofun, fun _ => h⟩, fun h => h.2 rfl⟩
  · exact ⟨fun h => ⟨fun _ => h, nofun⟩, fun h => h.1 rfl⟩

@[simp]
lemma post_failWith (e : ε) : Post D (failWith e m) Q s ↔ Post D m (fun r s' => Q (r.mapError fun _ => e) s') s := by
  unfold Post failWith
  cases m s <;> exact Iff.rfl

/-- What is shown of a program holds of its runs. -/
lemma Post.run (h : Post D m Q s) {r : Except ε α} {s' : S} (hr : m s = some (r, s')) : Q r s' := by
  unfold Post at h
  rw [hr] at h
  exact h

lemma Post.returns (h : Post False m Q s) : ∃ r s', m s = some (r, s') ∧ Q r s' := by
  unfold Post at h
  split at h
  · exact h.elim
  · exact ⟨_, _, ‹_›, h⟩

lemma post_of_run (h : ∀ r s', m s = some (r, s') → Q r s') : Post True m Q s := by
  unfold Post
  split
  · trivial
  rename_i r s' he
  exact h r s' he

/-! ## Invariants -/

lemma post_read_bind {f : S → Prog S ε β} {Q : Except ε β → S → Prop} : Post D (read >>= f) Q s ↔ Post D (f s) Q s :=
  Iff.rfl

/-- `m` keeps `I`, and so does what comes next. -/
lemma Post.seq (hm : Post D m (fun _ => I) s) (hf : ∀ a s', I s' → Post D (f a) (fun _ => I) s') :
    Post D (m >>= f) (fun _ => I) s := by
  rw [post_bind]
  refine hm.mono fun r s' hs => ?_
  cases r with
  | ok a => exact hf a s' hs
  | error e => exact hs

lemma Post.attempted (h : Post D m (fun _ => I) s) : Post D (attempt m) (fun _ => I) s := post_attempt.2 h

/-! ## What every run keeps

For a relation that is reflexive and transitive, a program whose parts stay within it does too. -/

/-- Every run of `m` that ends leads from a state to one that is related to it. -/
def Within (R : S → S → Prop) (m : Prog S ε α) : Prop := ∀ s, Post True m (fun _ s' => R s s') s

section
variable {R : S → S → Prop}

lemma Within.diverge : Within R (diverge : Prog S ε α) := fun _ => trivial

lemma Within.attempt (h : Within R m) : Within R (attempt m) := fun s => post_attempt.2 (h s)

lemma Within.failWith (h : Within R m) (e : ε) : Within R (failWith e m) := fun s => (post_failWith e).2 (h s)

lemma Within.modify (h : ∀ s, R s (g s)) : Within R (modify g : Prog S ε Unit) := h

lemma Within.ite [Decidable c] (hm : Within R m) (hn : Within R n) : Within R (if c then m else n) := by
  split
  · exact hm
  · exact hn

variable [IsPreorder S R]

lemma Within.pure (a : α) : Within R (pure a : Prog S ε α) := refl_of R

lemma Within.fail (e : ε) : Within R (fail e : Prog S ε α) := refl_of R

lemma Within.read : Within R (read : Prog S ε S) := refl_of R

lemma Within.bind (hm : Within R m) (hf : ∀ a, Within R (f a)) : Within R (m >>= f) := by
  intro s
  rw [post_bind]
  refine (hm s).mono fun r s' h => ?_
  cases r with
  | ok a => exact (hf a s').mono fun _ s'' h' => trans_of R h h'
  | error e => exact h

/-- A program that goes on with the outcome of `m`. -/
lemma Within.attempt_bind {f : Except ε α → Prog S ε β} (hm : Within R m) (herror : ∀ e, Within R (f (.error e)))
    (hok : ∀ a, Within R (f (.ok a))) : Within R (Prog.attempt m >>= f) := by
  refine .bind (.attempt hm) fun r => ?_
  cases r with
  | error e => exact herror e
  | ok a => exact hok a

lemma Within.when {c : Bool} {m : Prog S ε Unit} (h : Within R m) : Within R (when c m) := by
  cases c
  · exact .pure ()
  · exact h

end

end Prog

end Hermes
