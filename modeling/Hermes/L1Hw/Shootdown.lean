import Hermes.Core.Fair

/-!
# The TLB shootdown handshake

Model of `tlb_poll`, `smp_spin_poll`, `smp_tlb_interrupt` and
`smp_tlb_shootdown` of src/kernel/hardware/smp/smp.c, as `n` CPUs whose
loads, stores and local flushes interleave. A CPU runs one program, and an
interrupt handler on top of it with interrupts off. The online CPUs are fixed: the
application processors are started once, at boot.

The history `since c j` says that CPU `j` has flushed its TLB after the last
call of `smp_tlb_shootdown` on CPU `c` began (`since c c` is not used and
always true).
-/
namespace Hermes.L1.Smp

open Function

/-- Where a CPU is inside `tlb_poll`: before the test of its flag, before the
flush, before the store of false.
smp.c:81-87 -/
inductive Poll
  | test
  | flush
  | clear
deriving DecidableEq, Repr

/-- Where the program of a CPU is.
smp.c:186-208 -/
inductive Pc
  /-- outside -/
  | other
  /-- in a `tlb_poll` of a spin loop -/
  | poll (p : Poll)
  /-- in the loop that sets the flags, at `cpus[i]` -/
  | mark (i : Nat)
  /-- before `lapic_send_others` -/
  | send
  /-- in the loop that waits, before the load of `cpus[i].tlb_flush` -/
  | wait (i : Nat)
  /-- in the `smp_spin_poll` of the loop that waits for `cpus[i]` -/
  | spin (i : Nat) (p : Poll)
deriving DecidableEq, Repr

structure State (n : Nat) where
  flag : Fin n → Bool
  pc : Fin n → Pc
  irq : Fin n → Option Poll
  since : Fin n → Fin n → Bool

lemma State.ext_iff {n : Nat} {s t : State n} : ((∀ c, s.flag c = t.flag c) ∧ (∀ c, s.pc c = t.pc c) ∧
    (∀ c, s.irq c = t.irq c) ∧ ∀ c d, s.since c d = t.since c d) ↔ s = t := by
  constructor
  · rintro ⟨h1, h2, h3, h4⟩
    rw [State.mk.injEq]
    exact ⟨funext h1, funext h2, funext h3, funext fun c => funext (h4 c)⟩
  · rintro rfl
    exact ⟨fun _ => rfl, fun _ => rfl, fun _ => rfl, fun _ _ => rfl⟩

instance {n : Nat} : DecidableEq (State n) := fun _ _ => decidable_of_iff _ State.ext_iff

/-- What a CPU may do next: call `smp_tlb_shootdown` or poll from outside,
take the interrupt, or go on with what it runs. -/
inductive Act
  | call
  | poll
  | interrupt
  | run
deriving DecidableEq, Repr

section Machine

variable {n : Nat} (online : Fin n → Bool)

/-- The step of `tlb_poll` at `p` on CPU `c`. -/
def tlbPoll (s : State n) (c : Fin n) : Poll → State n
  | .test => s
  | .flush => { s with since := fun d j => s.since d j || decide (j = c) }
  | .clear => { s with flag := update s.flag c false }

/-- Where `tlb_poll` is afterwards; `none` once it has returned. -/
def tlbPollNext (flag : Bool) : Poll → Option Poll
  | .test => if flag then some .flush else none
  | .flush => some .clear
  | .clear => none

def State.goto (s : State n) (c : Fin n) (pc : Pc) : State n := { s with pc := update s.pc c pc }

/-- The flag `smp_tlb_shootdown` on `c` sets at `cpus[i]`, if any. -/
def marks (c : Fin n) (i : Nat) : Option (Fin n) :=
  if h : i < n then if (⟨i, h⟩ : Fin n) ≠ c ∧ online ⟨i, h⟩ = true then some ⟨i, h⟩ else none
  else none

/-- One step of the program of CPU `c`. -/
def runPc (s : State n) (c : Fin n) : State n :=
  match s.pc c with
  | .other => s
  | .poll p =>
    (tlbPoll s c p).goto c (match tlbPollNext (s.flag c) p with | some q => .poll q | none => .other)
  | .mark i =>
    if i < n then
      match marks online c i with
      | some j => { s.goto c (.mark (i + 1)) with flag := update s.flag j true }
      | none => s.goto c (.mark (i + 1))
    else s.goto c .send
  | .send => s.goto c (.wait 0)
  | .wait i =>
    if h : i < n then s.goto c (if s.flag ⟨i, h⟩ then .spin i .test else .wait (i + 1))
    else s.goto c .other
  | .spin i p =>
    (tlbPoll s c p).goto c (match tlbPollNext (s.flag c) p with | some q => .spin i q | none => .wait i)

/-- One step of CPU `c`. A handler runs before the program it interrupted. -/
def run (s : State n) (c : Fin n) : State n :=
  match s.irq c with
  | some p => { tlbPoll s c p with irq := update s.irq c (tlbPollNext (s.flag c) p) }
  | none => runPc online s c

/-- A single CPU returns at once. -/
def begin (s : State n) (c : Fin n) : State n :=
  if n = 1 then s
  else { s.goto c (.mark 0) with since := update s.since c fun j => decide (j = c) }

def next (s : State n) (l : Fin n × Act) : State n :=
  match l.2 with
  | .call => begin s l.1
  | .poll => s.goto l.1 (.poll .test)
  | .interrupt => { s with irq := update s.irq l.1 (some .test) }
  | .run => run online s l.1

/-- A CPU starts something new from outside only; the handler runs with
interrupts off. -/
def enabled (s : State n) (l : Fin n × Act) : Bool :=
  match l.2 with
  | .call | .poll => decide (s.pc l.1 = .other) && (s.irq l.1).isNone
  | .interrupt => (s.irq l.1).isNone
  | .run => decide (s.pc l.1 ≠ .other) || (s.irq l.1).isSome

/-- No CPU does anything yet. -/
def start : State n := ⟨fun _ => false, fun _ => .other, fun _ => none, fun _ _ => true⟩

def system : LTS (State n) (Fin n × Act) where
  init s := s = start
  step s l t := enabled s l = true ∧ t = next online s l

end Machine

/-! ## What a step can do -/

variable {p : Poll} {pc : Pc}

section Effect

variable {n : Nat}

/-- Between a local flush and the store of false, in the program or in the
handler on top of it. -/
def State.atClear (s : State n) (c : Fin n) : Prop :=
  s.irq c = some .clear ∨ s.pc c = .poll .clear ∨ ∃ i, s.pc c = .spin i .clear

/-- The first loop of the call has passed `cpus[j]`. -/
def Pc.asked (j : Nat) : Pc → Prop
  | .mark i => j < i
  | .send | .wait _ | .spin _ _ => True
  | .other | .poll _ => False

/-- The call on `c` has passed `cpus[j]` in its first loop. -/
def State.asked (s : State n) (c j : Fin n) : Prop := (s.pc c).asked j

/-- The call on `c` waits for `cpus[k]`, or has waited for all of them. -/
def State.waitsFor (s : State n) (c : Fin n) (k : Nat) : Prop := s.pc c = .wait k ∨ ∃ p, s.pc c = .spin k p

/-- How far the call on `c` may get without setting a flag: the first loop
passes only CPUs that need no flush, the second one only flags that are
false. -/
structure Advances (online : Fin n → Bool) (s t : State n) (c : Fin n) : Prop where
  asked : ∀ j, j ≠ c → online j = true → t.asked c j → s.asked c j
  waits : ∀ k, t.waitsFor c k → s.waitsFor c k ∨ k = 0 ∨
    ∃ i, ∃ h : i < n, k = i + 1 ∧ s.waitsFor c i ∧ s.flag ⟨i, h⟩ = false

/-- **Everything a step of CPU `c` can do** to the flags and the history. -/
inductive Effect (online : Fin n → Bool) (s : State n) (c : Fin n) (a : Act) (t : State n) : Prop
  | quiet (hf : t.flag = s.flag) (hs : t.since = s.since) (hc : t.atClear c → s.atClear c) (ha : Advances online s t c)
  | flush (hf : t.flag = s.flag) (hs : t.since = fun d j => s.since d j || decide (j = c)) (ha : Advances online s t c)
  | clear (hc : s.atClear c) (hf : t.flag = update s.flag c false) (hs : t.since = s.since) (ha : Advances online s t c)
  | mark (i : Nat) (j : Fin n) (hrun : a = .run) (hpc : s.pc c = .mark i) (hirq : s.irq c = none)
      (hm : marks online c i = some j) (hf : t.flag = update s.flag j true)
      (hs : t.since = s.since) (ht : t.pc c = .mark (i + 1)) (hti : t.irq c = none)
  | call (hf : t.flag = s.flag) (hs : t.since = update s.since c fun j => decide (j = c)) (ht : t.pc c = .mark 0)
      (hti : t.irq c = none)

variable (online : Fin n → Bool) {s : State n} {c : Fin n} {a : Act}

variable {t : State n} {i : Nat}

/-- Steps that leave the program where it is. -/
lemma Advances.of_pc {online} (h : t.pc c = s.pc c) : Advances online s t c := by
  refine ⟨fun j _ _ hj => ?_, fun k hk => .inl ?_⟩
  · unfold State.asked at *; rw [h] at hj; exact hj
  · unfold State.waitsFor at *; rw [h] at hk; exact hk

lemma goto_pc (s : State n) (c : Fin n) (pc : Pc) : (s.goto c pc).pc c = pc := update_self ..

lemma tlbPoll_pc (s : State n) (c : Fin n) (p : Poll) : (tlbPoll s c p).pc = s.pc ∧ (tlbPoll s c p).irq = s.irq := by
  cases p <;> exact ⟨rfl, rfl⟩

/-- A step of `tlb_poll`, wherever it is called from: `t` is the state with
the effect of the step and the caller's position moved on. -/
lemma tlbPoll_effect (hf : t.flag = (tlbPoll s c p).flag)
    (hs : t.since = (tlbPoll s c p).since) (ha : Advances online s t c) (hclear : p = .clear → s.atClear c)
    (htest : p = .test → t.atClear c → s.atClear c) : Effect online s c a t := by
  cases p with
  | test => exact .quiet hf hs (htest rfl) ha
  | flush => exact .flush hf hs ha
  | clear => exact .clear (hclear rfl) hf hs ha

lemma asked_of_pc (h : t.pc c = pc) (j : Fin n) : t.asked c j ↔ pc.asked j := by
  unfold State.asked; rw [h]

lemma waitsFor_of_pc (h : t.pc c = pc) (k : Nat) : t.waitsFor c k ↔ pc = .wait k ∨ ∃ p, pc = .spin k p := by
  unfold State.waitsFor; rw [h]

/-- Outside the call, or at its end, nothing is asked and nothing waited for. -/
lemma Advances.of_outside (h : t.pc c = .other ∨ ∃ p, t.pc c = .poll p) : Advances online s t c := by
  rcases h with h | ⟨p, h⟩
  all_goals
    refine ⟨fun j _ _ hj => ?_, fun k hk => ?_⟩
    · rw [asked_of_pc h] at hj; exact hj.elim
    · rw [waitsFor_of_pc h] at hk; simp at hk

lemma marks_none (h : i < n) (hm : marks online c i = none) (hc : (⟨i, h⟩ : Fin n) ≠ c) : online ⟨i, h⟩ = false := by
  unfold marks at hm
  rw [dif_pos h] at hm
  by_contra ho
  rw [if_pos ⟨hc, by simpa using ho⟩] at hm
  cases hm

lemma marks_some {j : Fin n} (hm : marks online c i = some j) : j.val = i ∧ j ≠ c ∧ online j = true := by
  unfold marks at hm
  split at hm
  · split at hm
    · rename_i hc
      cases hm
      exact ⟨rfl, hc⟩
    · cases hm
  · cases hm

lemma goto_not_clear (hi : s.irq c = none) (h1 : pc ≠ .poll .clear) (h2 : ∀ i, pc ≠ .spin i .clear) :
    ¬ (s.goto c pc).atClear c := by
  rintro (h | h | ⟨i, h⟩)
  · rw [show (s.goto c pc).irq c = s.irq c from rfl, hi] at h; cases h
  · rw [goto_pc] at h; exact h1 h
  · rw [goto_pc] at h; exact h2 i h

/-- The program moves on without touching the flags. -/
lemma Effect.goto {pc₀ : Pc} (hi : s.irq c = none) (hpc : s.pc c = pc₀) (h1 : pc ≠ .poll .clear)
    (h2 : ∀ i, pc ≠ .spin i .clear) (hask : ∀ j, j ≠ c → online j = true → pc.asked j → pc₀.asked j)
    (hw : ∀ k, (pc = .wait k ∨ ∃ p, pc = .spin k p) → s.waitsFor c k ∨ k = 0 ∨
      ∃ i, ∃ h : i < n, k = i + 1 ∧ s.waitsFor c i ∧ s.flag ⟨i, h⟩ = false) : Effect online s c a (s.goto c pc) := by
  refine .quiet rfl rfl (fun hc => absurd hc (goto_not_clear hi h1 h2)) ⟨fun j hj ho ha => ?_, fun k hk => hw k ?_⟩
  · rw [asked_of_pc (goto_pc s c pc)] at ha
    rw [asked_of_pc hpc]
    exact hask j hj ho ha
  · exact (waitsFor_of_pc (goto_pc s c pc) k).1 hk

lemma runPc_effect (hi : s.irq c = none) : Effect online s c .run (runPc online s c) := by
  unfold runPc
  cases hpc : s.pc c with
  | other => exact .quiet rfl rfl id (.of_pc rfl)
  | poll p =>
    refine tlbPoll_effect online rfl rfl (.of_outside online ?_) (fun hp => ?_) (fun hp hc => ?_)
    · rw [goto_pc]
      cases tlbPollNext (s.flag c) p with
      | some q => exact .inr ⟨q, rfl⟩
      | none => exact .inl rfl
    · subst hp; exact .inr (.inl hpc)
    · subst hp
      unfold State.atClear at hc
      cases hfl : s.flag c <;> simp [hfl, State.goto, tlbPoll, tlbPollNext, hi] at hc
  | mark i =>
    dsimp only
    split
    · rename_i hlt
      cases hm : marks online c i with
      | some j => exact .mark i j rfl hpc hi hm rfl rfl (goto_pc s c _) hi
      | none =>
        refine .goto online hi hpc (by simp) (by simp) (fun j hj ho ha => ?_) (by simp)
        by_contra hnlt
        have hji : j.val = i := by unfold Pc.asked at ha hnlt; omega
        have hjf : j = ⟨i, hlt⟩ := Fin.ext hji
        subst hjf
        exact absurd ((marks_none online hlt hm hj).symm.trans ho) Bool.false_ne_true
    · refine .goto online hi hpc (by simp) (by simp) (fun j _ _ _ => ?_) (by simp)
      unfold Pc.asked
      omega
  | send =>
    exact .goto online hi hpc (by simp) (by simp) (fun _ _ _ _ => trivial) fun k hk =>
      .inr (.inl (by simpa [eq_comm] using hk))
  | wait i =>
    dsimp only
    split
    swap
    · exact .goto online hi hpc (by simp) (by simp) (fun _ _ _ h => h.elim) (by simp)
    rename_i hlt
    cases hfl : s.flag ⟨i, hlt⟩ with
    | true =>
      rw [if_pos rfl]
      refine .goto online hi hpc (by simp) (by simp) (fun _ _ _ _ => trivial) fun k hk => .inl (.inl ?_)
      rw [hpc]
      simpa using hk
    | false =>
      rw [if_neg Bool.false_ne_true]
      refine .goto online hi hpc (by simp) (by simp) (fun _ _ _ _ => trivial) fun k hk => .inr (.inr ?_)
      exact ⟨i, hlt, by simpa [eq_comm] using hk, .inl hpc, hfl⟩
  | spin i p =>
    have hwait : s.waitsFor c i := .inr ⟨p, hpc⟩
    refine tlbPoll_effect online rfl rfl ⟨fun j _ _ _ => ?_, fun k hk => .inl ?_⟩ (fun hp => ?_) (fun hp hc => ?_)
    · rw [asked_of_pc hpc]; trivial
    · rw [waitsFor_of_pc (goto_pc _ c _)] at hk
      cases hn : tlbPollNext (s.flag c) p with
      | some q | none => rw [hn] at hk; simp at hk; subst hk; exact hwait
    · subst hp; exact .inr (.inr ⟨i, hpc⟩)
    · subst hp
      unfold State.atClear at hc
      cases hfl : s.flag c <;> simp [hfl, State.goto, tlbPoll, tlbPollNext, hi] at hc

/-- **The inversion lemma.** -/
lemma next_effect {l : Fin n × Act} (he : enabled s l = true) :
    Effect online s l.1 l.2 (next online s l) ∨ next online s l = s := by
  obtain ⟨c, a⟩ := l
  unfold enabled at he
  unfold next
  cases a with
  | call =>
    simp only [Bool.and_eq_true, Option.isNone_iff_eq_none] at he
    unfold begin
    dsimp only
    split
    · exact .inr rfl
    · exact .inl (.call rfl rfl (goto_pc s c _) he.2)
  | poll =>
    simp only [Bool.and_eq_true, Option.isNone_iff_eq_none] at he
    exact .inl (.goto online he.2 rfl (by simp) (by simp) (fun _ _ _ h => h.elim) (by simp))
  | interrupt =>
    refine .inl (.quiet rfl rfl (fun hc => ?_) (.of_pc rfl))
    unfold State.atClear at hc ⊢
    simpa using hc.imp_left fun h => by simp at h
  | run =>
    left
    unfold run
    cases hi : s.irq c with
    | none => exact runPc_effect online hi
    | some p =>
      refine tlbPoll_effect online rfl rfl (.of_pc ?_) (fun hp => ?_) (fun hp hc => ?_)
      · exact congrFun (tlbPoll_pc s c p).1 c
      · subst hp; exact .inl hi
      subst hp
      rcases hc with hc | hc
      · cases hfl : s.flag c <;> simp [tlbPollNext] at hc
      · exact .inr hc

/-- A step leaves the other CPUs where they are. -/
lemma next_frame (s : State n) (l : Fin n × Act) {d : Fin n} (hd : d ≠ l.1) :
    (next online s l).pc d = s.pc d ∧ (next online s l).irq d = s.irq d := by
  have hgo : ∀ (s : State n) pc, (s.goto l.1 pc).pc d = s.pc d := fun s pc =>
    update_of_ne hd ..
  obtain ⟨c, a⟩ := l
  have hpoll : ∀ p pc, ((tlbPoll s c p).goto c pc).pc d = s.pc d ∧ (tlbPoll s c p).irq d = s.irq d := fun p pc =>
    ⟨(hgo _ _).trans (congrFun (tlbPoll_pc s c p).1 d), congrFun (tlbPoll_pc s c p).2 d⟩
  unfold next
  cases a with
  | call =>
    dsimp only
    unfold begin
    split
    · exact ⟨rfl, rfl⟩
    · exact ⟨hgo s _, rfl⟩
  | poll => exact ⟨hgo s _, rfl⟩
  | interrupt => exact ⟨rfl, update_of_ne hd ..⟩
  | run =>
    dsimp only
    unfold run
    split
    · rename_i p hp
      exact ⟨congrFun (tlbPoll_pc s c p).1 d, update_of_ne hd ..⟩
    unfold runPc
    split
    · exact ⟨rfl, rfl⟩
    · exact hpoll _ _
    · split
      · split <;> exact ⟨hgo s _, rfl⟩
      · exact ⟨hgo s _, rfl⟩
    · exact ⟨hgo s _, rfl⟩
    · split <;> exact ⟨hgo s _, rfl⟩
    · exact hpoll _ _

end Effect

/-! ## Every other CPU flushes -/

section Safety

variable {n : Nat} (online : Fin n → Bool)

/-- The condition on the first loop: no flag is set on a CPU that has
flushed and is about to clear its flag. -/
def StoreOk (s : State n) (l : Fin n × Act) : Prop :=
  l.2 = .run → s.irq l.1 = none → ∀ i j, s.pc l.1 = .mark i → marks online l.1 i = some j → ¬ s.atClear j

/-- A CPU that was asked has flushed since, or will before it clears its
flag; a CPU that was waited for has flushed since. -/
structure Inv (s : State n) : Prop where
  asked : ∀ c j, j ≠ c → online j = true → s.asked c j → s.since c j = true ∨ (s.flag j = true ∧ ¬ s.atClear j)
  waited : ∀ c j k, j ≠ c → online j = true → s.waitsFor c k → j.val < k → s.since c j = true

variable {s t : State n} {c j : Fin n} {k : Nat}

lemma asked_of_waitsFor (h : s.waitsFor c k) (j : Fin n) : s.asked c j := by
  rcases h with h | ⟨p, h⟩ <;> rw [asked_of_pc h] <;> trivial

lemma State.atClear_congr (h1 : t.pc j = s.pc j) (h2 : t.irq j = s.irq j) : t.atClear j ↔ s.atClear j := by
  unfold State.atClear; rw [h1, h2]

/-- The second loop goes past `cpus[i]` only once it has flushed. -/
lemma Inv.advance (h : Inv online s) (ha : Advances online s t c) (hj : j ≠ c) (ho : online j = true)
    (hw : t.waitsFor c k) (hk : j.val < k) : s.since c j = true := by
  rcases ha.waits k hw with hw' | rfl | ⟨i, hi, rfl, hw', hfl⟩
  · exact h.waited c j k hj ho hw' hk
  · exact absurd hk (Nat.not_lt_zero _)
  by_cases hji : j.val < i
  · exact h.waited c j i hj ho hw' hji
  have hjf : j = ⟨i, hi⟩ := Fin.ext (by dsimp only; omega)
  refine (h.asked c j hj ho (asked_of_waitsFor hw' j)).resolve_right fun hf => ?_
  rw [hjf, hfl] at hf
  exact absurd hf.1 Bool.false_ne_true

lemma step_inv {l : Fin n × Act} (h : Inv online s) (hok : StoreOk online s l)
    (hst : (system online).step s l t) : Inv online t := by
  obtain ⟨he, rfl⟩ := hst
  have hframe := fun d (hd : d ≠ l.1) => next_frame online s l hd
  have heff := next_effect online he
  generalize next online s l = t at hframe heff ⊢
  rcases heff with heff | rfl
  swap
  · exact h
  -- what the other calls have asked and waited for does not change
  have hask : ∀ d j, d ≠ l.1 → (t.asked d j ↔ s.asked d j) := fun d j hd => by rw [asked_of_pc (hframe d hd).1]; rfl
  have hwait : ∀ d k, d ≠ l.1 → (t.waitsFor d k ↔ s.waitsFor d k) := fun d k hd => by
    rw [waitsFor_of_pc (hframe d hd).1]; rfl
  have hclr : ∀ j, j ≠ l.1 → (t.atClear j ↔ s.atClear j) := fun j hj =>
    State.atClear_congr (hframe j hj).1 (hframe j hj).2
  have hclr' : ¬ t.atClear l.1 → ∀ j, ¬ s.atClear j → ¬ t.atClear j := fun hl j hj htc => by
    by_cases hjc : j = l.1
    · exact hl (hjc ▸ htc)
    · exact hj ((hclr j hjc).1 htc)
  have hasked : ∀ c j, Advances online s t l.1 → j ≠ c → online j = true → t.asked c j → s.asked c j := by
    intro c j ha hj ho hta
    by_cases hc : c = l.1
    · subst hc; exact ha.asked j hj ho hta
    · exact (hask c j hc).1 hta
  have hwaited : ∀ c j k, Advances online s t l.1 → j ≠ c → online j = true → t.waitsFor c k →
      j.val < k → s.since c j = true := by
    intro c j k ha hj ho hw hk
    by_cases hc : c = l.1
    · subst hc; exact h.advance online ha hj ho hw hk
    · exact h.waited c j k hj ho ((hwait c k hc).1 hw) hk
  refine ⟨fun c j hj ho hta => ?_, fun c j k hj ho hw hk => ?_⟩
  · cases heff with
    | quiet hf hs hc ha =>
      rw [hf, hs]
      refine (h.asked c j hj ho (hasked c j ha hj ho hta)).imp id fun hfl => ⟨hfl.1, fun htc => hfl.2 ?_⟩
      by_cases hjc : j = l.1
      · subst hjc; exact hc htc
      · exact (hclr j hjc).1 htc
    | flush hf hs ha =>
      rw [hf, hs]
      by_cases hjc : j = l.1
      · exact .inl (by simp [hjc])
      refine (h.asked c j hj ho (hasked c j ha hj ho hta)).imp (fun hsi => by simp [hsi]) fun hfl =>
        ⟨hfl.1, fun htc => hfl.2 ((hclr j hjc).1 htc)⟩
    | clear hc hf hs ha =>
      rw [hf, hs]
      have hold := h.asked c j hj ho (hasked c j ha hj ho hta)
      by_cases hjc : j = l.1
      · subst hjc; exact .inl (hold.resolve_right fun hfl => hfl.2 hc)
      rw [update_of_ne hjc]
      exact hold.imp id fun hfl => ⟨hfl.1, fun htc => hfl.2 ((hclr j hjc).1 htc)⟩
    | mark i m hrun hpc hirq hm hf hs ht hti =>
      obtain ⟨hmi, hmc, -⟩ := marks_some online hm
      have hfree := hok hrun hirq i m hpc hm
      have hclr' := hclr' (by simp [State.atClear, ht, hti])
      have hkeep : ∀ j, s.flag j = true ∧ ¬ s.atClear j → t.flag j = true ∧ ¬ t.atClear j := by
        intro j hfl
        refine ⟨?_, hclr' j hfl.2⟩
        rw [hf, update_apply]; split
        · rfl
        · exact hfl.1
      rw [hs]
      by_cases hc : c = l.1
      · subst hc
        rw [asked_of_pc ht] at hta
        by_cases hlt : j.val < i
        · exact (h.asked _ j hj ho (by rw [asked_of_pc hpc]; exact hlt)).imp id (hkeep j)
        have hjm : j = m := Fin.ext (by unfold Pc.asked at hta; omega)
        subst hjm
        exact .inr ⟨by rw [hf, update_self], hclr' j hfree⟩
      · exact (h.asked c j hj ho ((hask c j hc).1 hta)).imp id (hkeep j)
    | call hf hs ht hti =>
      have hclr' := hclr' (by simp [State.atClear, ht, hti])
      by_cases hc : c = l.1
      · subst hc
        rw [asked_of_pc ht] at hta
        exact absurd hta (Nat.not_lt_zero _)
      · rw [hf, hs, update_of_ne hc]
        exact (h.asked c j hj ho ((hask c j hc).1 hta)).imp id fun hfl => ⟨hfl.1, hclr' j hfl.2⟩
  · cases heff with
    | quiet hf hs hc ha | clear hc hf hs ha => rw [hs]; exact hwaited c j k ha hj ho hw hk
    | flush hf hs ha => rw [hs]; simp [hwaited c j k ha hj ho hw hk]
    | mark _ _ _ _ _ _ _ hs ht | call _ hs ht =>
      by_cases hc : c = l.1
      · subst hc
        rw [waitsFor_of_pc ht] at hw; simp at hw
      have hold := h.waited c j k hj ho ((hwait c k hc).1 hw) hk
      rw [hs]
      first | exact hold | rwa [update_of_ne hc]

/-- The call on `c` is about to return. -/
def State.returns (s : State n) (c : Fin n) : Prop := s.irq c = none ∧ ∃ i, s.pc c = .wait i ∧ n ≤ i

lemma start_inv : Inv online start := by
  refine ⟨fun c j _ _ h => ?_, fun c j k _ _ h => ?_⟩
  · exact ((asked_of_pc (by rfl : _ = Pc.other) _).1 h).elim
  · rw [waitsFor_of_pc (by rfl : _ = Pc.other)] at h; simp at h

/-- In a run that sets no flag between a flush and its clear, every other
online CPU has flushed since the call began when it returns. -/
lemma returns_flushed (h : ((system online).restrict (StoreOk online)).Reachable s)
    (hr : s.returns c) (hj : j ≠ c) (ho : online j = true) : s.since c j = true := by
  have hind : ((system online).restrict (StoreOk online)).Inductive (Inv online) :=
    ⟨fun s hs => by rw [show s = start from hs]; exact start_inv online,
      fun s l t hi hst => step_inv online hi hst.1 hst.2⟩
  obtain ⟨-, i, hpc, hi⟩ := hr
  exact (hind.reachable h).waited c j i hj ho (.inl hpc) (by omega)

end Safety

/-! ## The call returns -/

section Progress

variable {n : Nat} {online : Fin n → Bool}

/-- The condition on the first loop: no flag is set that another call waits
for. -/
def NotAwaited (online : Fin n → Bool) (s : State n) (l : Fin n × Act) : Prop :=
  l.2 = .run → s.irq l.1 = none → ∀ i j, s.pc l.1 = .mark i → marks online l.1 i = some j → ∀ d, ¬ s.waitsFor d j.val

/-- CPU `c` is about to test its flag in `tlb_poll`. -/
def State.testing (s : State n) (c : Fin n) : Prop :=
  s.irq c = some .test ∨ (s.irq c = none ∧ (s.pc c = .poll .test ∨ ∃ i, s.pc c = .spin i .test))

/-- Every CPU keeps polling or taking interrupts, and none stops for ever in
the handler or in the middle of what it runs. -/
structure Fair (E : (system online).Exec) : Prop where
  polls : ∀ c t, ∃ u, t ≤ u ∧ E.label u = (c, .run) ∧ (E.state u).testing c
  handler : ∀ c t, (E.state t).irq c ≠ none → ∃ u, t ≤ u ∧ E.label u = (c, .run)
  program : ∀ c t, (E.state t).pc c ≠ .other → ∃ u, t ≤ u ∧ E.label u = (c, .run) ∧ (E.state u).irq c = none

variable {E : (system online).Exec} {c : Fin n} {t k m : ℕ}

lemma exec_run (hl : E.label t = (c, .run)) : E.state (t + 1) = run online (E.state t) c := by
  have := (E.step t).2
  rwa [hl] at this

lemma exec_runPc (hl : E.label t = (c, .run)) (hi : (E.state t).irq c = none) :
    E.state (t + 1) = runPc online (E.state t) c := by
  rw [exec_run hl]; unfold run; rw [hi]

/-- A program moves by its own steps. -/
lemma exec_pc (hne : (E.state t).pc c ≠ .other) : (E.state (t + 1)).pc c = (E.state t).pc c ∨
    (E.label t = (c, .run) ∧ (E.state t).irq c = none) := by
  obtain ⟨he, hs⟩ := E.step t
  by_cases hc : c = (E.label t).1
  · rcases hl : E.label t with ⟨d, a⟩
    rw [hl] at he hs hc
    subst hc
    unfold enabled at he
    cases a with
    | call | poll => simp [hne] at he
    | interrupt => left; rw [hs]; rfl
    | run =>
      cases hi : (E.state t).irq c with
      | none => exact .inr ⟨rfl, rfl⟩
      | some p =>
        left
        rw [hs]
        unfold next run
        rw [hi]
        exact congrFun (tlbPoll_pc (E.state t) c p).1 c
  · left
    rw [hs]
    exact (next_frame online (E.state t) (E.label t) hc).1

/-- A handler moves by its own steps. -/
lemma exec_irq (hi : (E.state t).irq c = some p) : (E.state (t + 1)).irq c = some p ∨ E.label t = (c, .run) := by
  obtain ⟨he, hs⟩ := E.step t
  by_cases hc : c = (E.label t).1
  · rcases hl : E.label t with ⟨d, a⟩
    rw [hl] at he hs hc
    subst hc
    unfold enabled at he
    cases a with
    | call | poll | interrupt => simp [hi] at he
    | run => exact .inr rfl
  · left
    rw [hs, (next_frame online (E.state t) (E.label t) hc).2, hi]

/-- The program of `c` takes its next step from where it is. -/
lemma program_step (hf : Fair E) (h : (E.state t).pc c = pc) (hne : pc ≠ .other) :
    ∃ u, t ≤ u ∧ ((E.state u).pc c = pc ∧ E.label u = (c, .run) ∧
      (E.state u).irq c = none) ∧ E.state (u + 1) = runPc online (E.state u) c := by
  obtain ⟨u, htu, hpc, hl, hi⟩ := LTS.awaits
    (fun t ht => (exec_pc (by rw [ht]; exact hne)).symm.imp id fun he => he.trans ht)
    (fun t ht => hf.program c t (by rw [ht]; exact hne)) h
  exact ⟨u, htu, ⟨hpc, hl, hi⟩, exec_runPc hl hi⟩

/-- So does the handler. -/
lemma handler_step (hf : Fair E) (h : (E.state t).irq c = some p) :
    ∃ u, t ≤ u ∧ (E.state u).irq c = some p ∧ E.state (u + 1) = { tlbPoll (E.state u) c p with
      irq := update (E.state u).irq c (tlbPollNext ((E.state u).flag c) p) } := by
  obtain ⟨u, htu, hi, hl⟩ := LTS.awaits (P := fun t => (E.state t).irq c = some p) (fun t ht => (exec_irq ht).symm)
    (fun t ht => hf.handler c t (by rw [ht]; simp)) h
  refine ⟨u, htu, hi, ?_⟩
  rw [exec_run hl]
  unfold run
  rw [hi]

/-- A CPU that has seen its flag clears it. -/
lemma flush_clears (hf : Fair E)
    (h : (E.state t).irq c = some .flush ∨ (E.state t).pc c = .poll .flush ∨ ∃ i, (E.state t).pc c = .spin i .flush)
    : ∃ u, t ≤ u ∧ (E.state u).flag c = false := by
  rcases h with h | h | ⟨i, h⟩
  · obtain ⟨u, htu, -, hu⟩ := handler_step hf h
    have h1 : (E.state (u + 1)).irq c = some .clear := by rw [hu]; exact update_self ..
    obtain ⟨v, huv, -, hv⟩ := handler_step hf h1
    exact ⟨v + 1, by omega, by rw [hv]; exact update_self ..⟩
  all_goals
    obtain ⟨u, htu, ⟨hpc, -, -⟩, hu⟩ := program_step hf h (by simp)
    unfold runPc at hu
    rw [hpc] at hu
    obtain ⟨v, huv, ⟨hpc', -, -⟩, hv⟩ := program_step hf (by rw [hu, goto_pc]) (by simp [tlbPollNext])
    refine ⟨v + 1, by omega, ?_⟩
    rw [hv]; unfold runPc; rw [hpc']; exact update_self ..

/-- Whatever its flag is, every CPU clears it or finds it clear. -/
lemma eventually_clear (hf : Fair E) (c : Fin n) (t : ℕ) : ∃ u, t ≤ u ∧ (E.state u).flag c = false := by
  obtain ⟨u, htu, hl, htest⟩ := hf.polls c t
  cases hfl : (E.state u).flag c with
  | false => exact ⟨u, htu, hfl⟩
  | true =>
    have hnext : ∃ w, u + 1 ≤ w ∧ (E.state w).flag c = false := by
      apply flush_clears hf
      rcases htest with hi | ⟨hi, hpc | ⟨i, hpc⟩⟩
      · rw [exec_run hl]
        unfold run
        rw [hi]
        simp [tlbPollNext, hfl]
      · rw [exec_runPc hl hi]
        unfold runPc
        rw [hpc]
        simp [goto_pc, tlbPollNext, hfl]
      rw [exec_runPc hl hi]
      unfold runPc
      rw [hpc]
      simp [goto_pc, tlbPollNext, hfl]
    obtain ⟨w, huw, hw⟩ := hnext
    exact ⟨w, by omega, hw⟩

/-- The loop that waits for `cpus[k]` goes on only when the flag is false. -/
lemma waiting_step (hk : k < n) (h : (E.state t).waitsFor c k) :
    (E.state (t + 1)).waitsFor c k ∨ (E.state (t + 1)).pc c = .wait (k + 1) := by
  have hne : (E.state t).pc c ≠ .other := by
    rcases h with h | ⟨p, h⟩ <;> rw [h] <;> simp
  rcases exec_pc hne with hs | ⟨hl, hi⟩
  · left; unfold State.waitsFor at *; rw [hs]; exact h
  rw [exec_runPc hl hi]
  unfold runPc
  rcases h with h | ⟨p, h⟩ <;> rw [h]
  · dsimp only
    rw [dif_pos hk]
    split
    · exact .inl (.inr ⟨.test, goto_pc ..⟩)
    · exact .inr (goto_pc ..)
  left
  dsimp only
  cases tlbPollNext ((E.state t).flag c) p with
  | some q => exact .inr ⟨q, goto_pc ..⟩
  | none => exact .inl (goto_pc ..)

/-- A flag that is false stays so while a call waits for it. -/
lemma awaited_flag (hk : k < n) (hok : NotAwaited online (E.state t) (E.label t)) (h : (E.state t).waitsFor c k)
    (hf : (E.state t).flag ⟨k, hk⟩ = false) : (E.state (t + 1)).flag ⟨k, hk⟩ = false := by
  obtain ⟨he, hs⟩ := E.step t
  rw [hs]
  rcases next_effect online he with heff | heff
  swap
  · rw [heff]; exact hf
  cases heff with
  | quiet hfl | flush hfl | call hfl => rw [hfl]; exact hf
  | clear _ hfl =>
    rw [hfl, update_apply]
    split
    · rfl
    · exact hf
  | mark i j hrun hpc hirq hm hfl =>
    rw [hfl, update_apply, if_neg, hf]
    intro hj
    have := hok hrun hirq i j hpc hm c
    rw [← hj] at this
    exact this h

/-- Where the loop that waits for `cpus[k]` is, by the steps left to the next
load of the flag. -/
inductive SpinPos (k : ℕ) : ℕ → Pc → Prop
  | wait : SpinPos k 0 (.wait k)
  | clear : SpinPos k 1 (.spin k .clear)
  | flush : SpinPos k 2 (.spin k .flush)
  | test : SpinPos k 3 (.spin k .test)

variable {s : State n}

lemma spinPos_of_waitsFor (h : s.waitsFor c k) : ∃ m, SpinPos k m (s.pc c) := by
  rcases h with h | ⟨p, h⟩
  · exact ⟨0, h ▸ .wait⟩
  cases p with
  | test => exact ⟨3, h ▸ .test⟩
  | flush => exact ⟨2, h ▸ .flush⟩
  | clear => exact ⟨1, h ▸ .clear⟩

lemma SpinPos.waitsFor (h : SpinPos k m (s.pc c)) : s.waitsFor c k := by
  unfold State.waitsFor
  generalize s.pc c = pc at h ⊢
  cases h <;> simp

/-- A step of the poll in the loop brings the load of the flag nearer. -/
lemma SpinPos.run (h : SpinPos k m (s.pc c)) (hm : m ≠ 0) :
    ∃ m', m' < m ∧ SpinPos k m' ((runPc online s c).pc c) := by
  unfold runPc
  generalize hpc : s.pc c = pc at h ⊢
  cases h with
  | wait => exact absurd rfl hm
  | clear => exact ⟨0, by omega, by rw [goto_pc]; exact .wait⟩
  | flush => exact ⟨1, by omega, by rw [goto_pc]; exact .clear⟩
  | test =>
    rw [goto_pc]
    cases s.flag c with
    | true => exact ⟨2, by omega, .flush⟩
    | false => exact ⟨0, by omega, .wait⟩

lemma spinPos_ne_other (h : SpinPos k m pc) : pc ≠ .other := by
  cases h <;> simp

/-- With the flag false, the loop gets past `cpus[k]`. -/
lemma load_false (hf : Fair E) (hok : ∀ t, NotAwaited online (E.state t) (E.label t))
    (hk : k < n) (h : SpinPos k m ((E.state t).pc c)) (hfl : (E.state t).flag ⟨k, hk⟩ = false) :
    ∃ u, t ≤ u ∧ (E.state u).pc c = .wait (k + 1) := by
  refine LTS.descends (P := fun m t => SpinPos k m ((E.state t).pc c) ∧ (E.state t).flag ⟨k, hk⟩ = false) ?_ ⟨h, hfl⟩
  rintro m t ⟨h, hfl⟩
  have hstay : ∀ u, (E.state u).pc c = (E.state t).pc c → (E.state u).flag ⟨k, hk⟩ = false →
      (E.state (u + 1)).flag ⟨k, hk⟩ = false := fun u hpc hu =>
    awaited_flag hk (hok u) (SpinPos.waitsFor (by rw [hpc]; exact h)) hu
  obtain ⟨u, htu, ⟨hpc, hu⟩, hl, hi⟩ := LTS.awaits
    (P := fun u => (E.state u).pc c = (E.state t).pc c ∧ (E.state u).flag ⟨k, hk⟩ = false)
    (fun u ⟨hpc, hu⟩ => (exec_pc (by rw [hpc]; exact spinPos_ne_other h)).symm.imp id fun he =>
      ⟨he.trans hpc, hstay u hpc hu⟩)
    (fun u ⟨hpc, _⟩ => hf.program c u (by rw [hpc]; exact spinPos_ne_other h)) ⟨rfl, hfl⟩
  refine ⟨u + 1, by omega, ?_⟩
  have hnext := hstay u hpc hu
  rw [exec_runPc hl hi] at hnext ⊢
  by_cases hm : m = 0
  · left
    subst hm
    have hw : (E.state u).pc c = .wait k := by
      rw [hpc]
      generalize (E.state t).pc c = pc at h
      cases h
      rfl
    unfold runPc
    rw [hw]
    dsimp only
    rw [dif_pos hk, hu]
    exact goto_pc ..
  · right
    obtain ⟨m', hm', hs⟩ := @SpinPos.run n online c _ _ (E.state u) (by rw [hpc]; exact h) hm
    exact ⟨m', hm', hs, hnext⟩

/-- The loop gets past every CPU. -/
lemma passes (hf : Fair E) (hok : ∀ t, NotAwaited online (E.state t) (E.label t)) (hk : k < n)
    (h : (E.state t).waitsFor c k) : ∃ u, t ≤ u ∧ (E.state u).pc c = .wait (k + 1) := by
  obtain ⟨u, htu, hw, hA⟩ := LTS.awaits
    (A := fun t => (E.state t).flag ⟨k, hk⟩ = false ∨ (E.state (t + 1)).pc c = .wait (k + 1))
    (fun t ht => (waiting_step hk ht).symm.imp .inr id)
    (fun t _ => by
      obtain ⟨u, htu, hu⟩ := eventually_clear hf ⟨k, hk⟩ t
      exact ⟨u, htu, .inl hu⟩) h
  rcases hA with hfl | hp
  · obtain ⟨m, hm⟩ := spinPos_of_waitsFor hw
    obtain ⟨v, huv, hv⟩ := load_false hf hok hk hm hfl
    exact ⟨v, by omega, hv⟩
  · exact ⟨u + 1, by omega, hp⟩

/-- A poll in the loop ends. -/
lemma spin_ends (hf : Fair E) (h : SpinPos k m ((E.state t).pc c)) : ∃ u, t ≤ u ∧ (E.state u).pc c = .wait k := by
  refine LTS.descends (P := fun m t => SpinPos k m ((E.state t).pc c)) ?_ h
  intro m t h
  by_cases hm : m = 0
  · subst hm
    refine ⟨t, le_rfl, .inl ?_⟩
    generalize (E.state t).pc c = pc at h
    cases h
    rfl
  · obtain ⟨u, htu, ⟨hpc, -, -⟩, hu⟩ := program_step hf rfl (spinPos_ne_other h)
    obtain ⟨m', hm', hs⟩ := @SpinPos.run n online c _ _ (E.state u) (by rw [hpc]; exact h) hm
    exact ⟨u + 1, by omega, .inr ⟨m', hm', by rw [hu]; exact hs⟩⟩

/-- The second loop ends. -/
lemma wait_returns (hf : Fair E) (hok : ∀ t, NotAwaited online (E.state t) (E.label t))
    (h : (E.state t).waitsFor c k) : ∃ u, t ≤ u ∧ E.label u = (c, .run) ∧ (E.state u).returns c := by
  refine LTS.descends (P := fun m t => ∃ k, m = n - k ∧ (E.state t).waitsFor c k) ?_ ⟨k, rfl, h⟩
  rintro m t ⟨k, rfl, h⟩
  by_cases hk : k < n
  · obtain ⟨u, htu, hu⟩ := passes hf hok hk h
    exact ⟨u, htu, .inr ⟨n - (k + 1), by omega, k + 1, rfl, .inl hu⟩⟩
  obtain ⟨m, hm⟩ := spinPos_of_waitsFor h
  obtain ⟨u, htu, hu⟩ := spin_ends hf hm
  obtain ⟨v, huv, ⟨hpc, hl, hi⟩, -⟩ := program_step hf hu (by simp)
  exact ⟨v, by omega, .inl ⟨hl, hi, k, hpc, by omega⟩⟩

/-- The first loop ends. -/
lemma mark_sends (hf : Fair E) {i : ℕ} (h : (E.state t).pc c = .mark i) : ∃ u, t ≤ u ∧ (E.state u).pc c = .send := by
  refine LTS.descends (P := fun m t => ∃ i, m = n - i ∧ (E.state t).pc c = .mark i) ?_ ⟨i, rfl, h⟩
  rintro m t ⟨i, rfl, h⟩
  obtain ⟨u, htu, ⟨hpc, -, -⟩, hu⟩ := program_step hf h (by simp)
  refine ⟨u + 1, by omega, ?_⟩
  rw [hu]
  unfold runPc
  rw [hpc]
  dsimp only
  split
  · right
    refine ⟨n - (i + 1), by omega, i + 1, rfl, ?_⟩
    split <;> exact goto_pc ..
  · exact .inl (goto_pc ..)

/-- Inside `smp_tlb_shootdown`. -/
def Pc.inside : Pc → Bool
  | .mark _ | .send | .wait _ | .spin _ _ => true
  | .other | .poll _ => false

lemma shootdown_returns (hf : Fair E) (hok : ∀ t, NotAwaited online (E.state t) (E.label t))
    (h : ((E.state t).pc c).inside = true) : ∃ u, t ≤ u ∧ E.label u = (c, .run) ∧ (E.state u).returns c := by
  have hsend : ∀ {t}, (E.state t).pc c = .send → ∃ u, t ≤ u ∧ E.label u = (c, .run) ∧ (E.state u).returns c := by
    intro t ht
    obtain ⟨u, htu, ⟨hpc, -, -⟩, hu⟩ := program_step hf ht (by simp)
    have hw : (E.state (u + 1)).waitsFor c 0 := by left; rw [hu]; unfold runPc; rw [hpc]; exact goto_pc ..
    obtain ⟨v, huv, hv⟩ := wait_returns hf hok hw
    exact ⟨v, by omega, hv⟩
  cases hpc : (E.state t).pc c with
  | other | poll _ => rw [hpc] at h; cases h
  | mark i =>
    obtain ⟨u, htu, hu⟩ := mark_sends hf hpc
    obtain ⟨v, huv, hv⟩ := hsend hu
    exact ⟨v, by omega, hv⟩
  | send => exact hsend hpc
  | wait k => exact wait_returns hf hok (.inl hpc)
  | spin k p => exact wait_returns hf hok (.inr ⟨p, hpc⟩)

end Progress

/-- **The shootdown handshake.** For any number of CPUs and of callers at the
same time: in a run that sets no flag on a CPU between its flush and its
clear, every other online CPU has flushed since the call began when a call
returns; and in a fair run that sets no flag another call waits for, every
call returns. -/
theorem tlb_shootdown {n : Nat} (online : Fin n → Bool) :
    (∀ s, ((system online).restrict (StoreOk online)).Reachable s → ∀ c, s.returns c →
      ∀ j, j ≠ c → online j = true → s.since c j = true) ∧
    (∀ E : (system online).Exec, Fair E → (∀ t, NotAwaited online (E.state t) (E.label t)) →
      ∀ c t, ((E.state t).pc c).inside = true → ∃ u, t ≤ u ∧ E.label u = (c, .run) ∧ (E.state u).returns c) :=
  ⟨fun _ h _ hr _ hj ho => returns_flushed online h hr hj ho, fun _ hf hok _ _ h => shootdown_returns hf hok h⟩

/-! ## Two CPUs -/

section Replay

variable {n : Nat} (online : Fin n → Bool)

/-- Follow `ls` as long as every step is enabled and meets `guard`. -/
def replay (guard : State n → Fin n × Act → Bool) : State n → List (Fin n × Act) → Option (State n)
  | s, [] => some s
  | s, l :: ls => if enabled s l && guard s l then replay guard (next online s l) ls else none

lemma replay_run {guard : State n → Fin n × Act → Bool} {ok : State n → Fin n × Act → Prop}
    (hok : ∀ s l, guard s l = true → ok s l) :
    ∀ {ls : List (Fin n × Act)} {s t : State n}, replay online guard s ls = some t →
      ((system online).restrict ok).Run s ls t
  | [], s, t, h => by cases h; exact .nil _
  | l :: ls, s, t, h => by
    unfold replay at h
    split at h
    · rename_i hg
      obtain ⟨he, hg⟩ := Bool.and_eq_true_iff.1 hg
      exact .cons ⟨hok s l hg, he, rfl⟩ (replay_run hok h)
    · cases h

/-- Neither polling nor waiting. -/
def Pc.still : Pc → Bool
  | .other | .mark _ | .send => true
  | .poll _ | .wait _ | .spin _ _ => false

/-- Only CPUs that no call waits for and that are not polling are marked. -/
def calm (s : State n) (l : Fin n × Act) : Bool :=
  match s.pc l.1 with
  | .mark _ => decide (∀ j, s.irq j = none ∧ (s.pc j).still = true)
  | _ => true

lemma calm_still {s : State n} {l : Fin n × Act} {i : Nat} (h : calm s l = true) (hpc : s.pc l.1 = .mark i)
    (j : Fin n) : s.irq j = none ∧ (s.pc j).still = true := by
  unfold calm at h
  rw [hpc] at h
  exact of_decide_eq_true h j

lemma calm_storeOk (s : State n) (l : Fin n × Act) (h : calm s l = true) : StoreOk online s l := by
  rintro - - i j hpc -
  obtain ⟨hi, hj⟩ := calm_still h hpc j
  rintro (hc | hc | ⟨i, hc⟩)
  · rw [hi] at hc; cases hc
  · rw [hc] at hj; cases hj
  · rw [hc] at hj; cases hj

lemma calm_notAwaited (s : State n) (l : Fin n × Act) (h : calm s l = true) : NotAwaited online s l := by
  rintro - - i j hpc - d
  obtain ⟨-, hd⟩ := calm_still h hpc d
  rintro (hc | ⟨p, hc⟩) <;> rw [hc] at hd <;> cases hd

end Replay

/-- CPU 0 shoots down, CPU 1 takes the interrupt, CPU 0 polls; over and over. -/
def pairLabels : List (Fin 2 × Act) := [(0, .call), (0, .run), (0, .run), (0, .run), (0, .run), (0, .run),
   (1, .interrupt), (1, .run), (1, .run), (1, .run), (0, .run), (0, .run), (0, .poll), (0, .run)]

def bothOnline : Fin 2 → Bool := fun _ => true

def pairState (k : Nat) : State 2 := (pairLabels.take k).foldl (next bothOnline) start

def pairLabel (k : Nat) : Fin 2 × Act := pairLabels.getD k (0, .run)

lemma pair_step : ∀ k : Fin 14, enabled (pairState k) (pairLabel k) = true ∧ calm (pairState k) (pairLabel k) = true ∧
    ((pairState k).pc 1 = .other) ∧ pairState ((k + 1) % 14) = next bothOnline (pairState k) (pairLabel k) := by
  decide

def pairExec : (system bothOnline).Exec where
  state t := pairState (t % 14)
  label t := pairLabel (t % 14)
  step t := by
    obtain ⟨h1, -, -, h2⟩ := pair_step ⟨t % 14, Nat.mod_lt _ (by decide)⟩
    refine ⟨h1, ?_⟩
    rw [← h2]
    congr 1
    dsimp only
    omega

lemma pairExec_at (t k : ℕ) (hk : k < 14) :
    pairExec.state (14 * t + k) = pairState k ∧ pairExec.label (14 * t + k) = pairLabel k := by
  have h : (14 * t + k) % 14 = k := by omega
  exact ⟨congrArg pairState h, congrArg pairLabel h⟩

lemma pairExec_fair : Fair pairExec := by
  refine ⟨fun c t => ?_, fun c t _ => ?_, fun c t hc => ?_⟩
  · fin_cases c
    · obtain ⟨hs, hl⟩ := pairExec_at t 13 (by decide)
      exact ⟨14 * t + 13, by omega, hl, by rw [hs]; exact .inr ⟨by decide, .inl (by decide)⟩⟩
    obtain ⟨hs, hl⟩ := pairExec_at t 7 (by decide)
    exact ⟨14 * t + 7, by omega, hl, by rw [hs]; exact .inl (by decide)⟩
  · fin_cases c
    · exact ⟨14 * t + 1, by omega, (pairExec_at t 1 (by decide)).2⟩
    · exact ⟨14 * t + 7, by omega, (pairExec_at t 7 (by decide)).2⟩
  · fin_cases c
    · obtain ⟨hs, hl⟩ := pairExec_at t 1 (by decide)
      exact ⟨14 * t + 1, by omega, hl, by rw [hs]; decide⟩
    · exact absurd (pair_step ⟨t % 14, Nat.mod_lt _ (by decide)⟩).2.2.1 hc

theorem tlb_shootdown_pair : (pairState 11).since 0 1 = true ∧
    ∃ u, 1 ≤ u ∧ pairExec.label u = (0, .run) ∧ (pairExec.state u).returns 0 := by
  obtain ⟨hsafe, hlive⟩ := tlb_shootdown bothOnline
  constructor
  · refine hsafe _ ⟨start, pairLabels.take 11, rfl, ?_⟩ 0 ⟨by decide, 2, by decide, by decide⟩ 1 (by decide) rfl
    exact @replay_run _ bothOnline calm _ (calm_storeOk bothOnline) _ _ _ (by decide)
  exact hlive pairExec pairExec_fair
    (fun t => calm_notAwaited _ _ _ (pair_step ⟨t % 14, Nat.mod_lt _ (by decide)⟩).2.1) 0 1 (by decide)

/-! ## A call that returns too early

`tlb_poll` flushes first and clears the flag afterwards. A second caller that
sets the flag in between has its request cleared together with the first
one's: its call returns although the CPU has not flushed since it began. -/

namespace Bugs

/-- CPU 0 asks CPU 2 to flush; CPU 2 flushes; CPU 1 begins its own call and
sets the flag again; CPU 2 clears it, and CPU 1 finds nothing to wait for. -/
def lostRequest : List (Fin 3 × Act) := [(0, .call), (0, .run), (0, .run), (0, .run),
   (2, .interrupt), (2, .run), (2, .run),
   (1, .call), (1, .run), (1, .run), (1, .run), (1, .run), (1, .run),
   (2, .run),
   (0, .interrupt), (0, .run), (0, .run), (0, .run),
   (1, .run), (1, .run), (1, .run), (1, .run), (1, .run), (1, .run), (1, .run)]

def allOnline : Fin 3 → Bool := fun _ => true

/-- CPU 1 returns, and CPU 2 has not flushed since the call began. -/
theorem shootdown_returns_early : ∃ s, (system allOnline).Reachable s ∧ s.returns 1 ∧
    (2 : Fin 3) ≠ 1 ∧ allOnline 2 = true ∧ s.since 1 2 = false := by
  have hrun := @replay_run _ allOnline (fun _ _ => true) (fun _ _ => True) (fun _ _ _ => trivial)
    lostRequest start (lostRequest.foldl (next allOnline) start) (by decide)
  refine ⟨_, ⟨start, lostRequest, rfl, hrun.weaken⟩, ⟨by decide, 3, by decide, by decide⟩, by decide, rfl, by decide⟩

end Bugs

end Hermes.L1.Smp
