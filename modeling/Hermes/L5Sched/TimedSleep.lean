import Hermes.L5Sched.SchedLife

/-!
# Sleeping with a timeout

`process_sleep_timeout` of `drivers/scheduler/process.c` with the timers of
`drivers/timer/callout.c`, as a system around the scheduler. A call clears
`timed_out`, arms a timer that lies on the stack of the caller, goes to sleep, and
after it woke up stops the timer without waiting for its callback. The callback sets
`timed_out` and wakes the process; it runs on any CPU, without a lock around the two.

Of the timer wheel only these timers are modelled: the others share its slots and
change nothing here.
-/
namespace Hermes.L5

open Function List Option

/-- A pending timer of the `k`-th call, by process `p`. -/
structure Timer where
  p : Nat
  k : Nat
  expires : Nat
deriving DecidableEq, Repr

/-- A callback in progress: `sleep_timeout` with its argument, before or after it
set `timed_out`. -/
structure Callback where
  p : Nat
  k : Nat
  marked : Bool
deriving DecidableEq, Repr

/-- Where a call of `process_sleep_timeout` is. -/
inductive Stage
  /-- `timed_out` is cleared and the timer initialised -/
  | begun
  /-- after `callout_reset` -/
  | armed
  /-- `interruptible` is set -/
  | flagged
  /-- after the locked section of `sleep_interruptible`: asleep, or awake again -/
  | slept
  /-- `sleep_interruptible` returned, with or without an error -/
  | awake (err : Bool)
  /-- after `callout_stop` -/
  | stopped (err : Bool)
deriving DecidableEq, Repr

structure Call where
  k : Nat
  id : Int
  delay : UInt64
  /-- the tick at which the timer was armed -/
  start : Nat
  stage : Stage
deriving DecidableEq, Repr

/-- The timer is set and not yet stopped. -/
def Call.timed (cl : Call) : Bool :=
  match cl.stage with
  | .armed | .flagged | .slept | .awake _ => true
  | .begun | .stopped _ => false

def Call.deadline (cl : Call) : Nat := cl.start + cl.delay.toNat

/-- `WHEEL_SIZE` -/
abbrev wheelSize : Nat := 256

structure TSys where
  sys : Sys
  /-- `ticks`, counted without wrap-around -/
  ticks : Nat
  wheel : List Timer
  running : List Callback
  /-- the calls of `callout_tick` in progress, by their `now` -/
  tickers : List Nat
  call : Nat → Option Call
  /-- how many calls there have been -/
  calls : Nat

inductive TLabel
  /-- anything else in the system -/
  | sys (l : Label)
  | start (c : Nat) (id : Int) (delay : UInt64)
  | arm (c : Nat)
  | flag (c : Nat)
  | lock (c : Nat)
  | unflag (c : Nat)
  | stop (c : Nat)
  | ret (c : Nat)
  | tick
  | dispatch (now : Nat)
  | tickEnd (now : Nat)
  | mark (cb : Callback)
  | wake (cb : Callback)
deriving DecidableEq, Repr

namespace TSys

variable (s : TSys)

def init : TSys := ⟨Sys.boot, 0, [], [], [], fun _ => none, 0⟩

/-- The process on a CPU and its call. -/
def callOf (c : Nat) : Option (Nat × Call) := do
  let p ← s.sys.cur c
  let cl ← s.call p
  some (p, cl)

/-- A process in a timed sleep does nothing else, and nothing else writes `timed_out`. -/
def allowed (l : Label) : Bool := (match l.actor with
    | some c => (s.callOf c).isNone
    | none => true) &&
  (match l with
    | .assign p f => f.timedOut == (s.sys.procs p).flags.timedOut
    | _ => true)

def setCall (p : Nat) (x : Option Call) : TSys := { s with call := update s.call p x }

/-- A step of the scheduler. -/
def does (l : Label) : Option TSys :=
  if s.sys.enabled l then (s.sys.exec l).map fun t => { s with sys := t } else none

/-- A step of the process on CPU `c`, from one stage of its call to the next. -/
def advance (c : Nat) (f : Nat → Call → Option TSys) : Option TSys :=
  match s.callOf c with
  | some (p, cl) => f p cl
  | none => none

/-- The slot of the wheel that `callout_tick` looks at, and what is due in it. -/
def due (now : Nat) : Option Timer :=
  s.wheel.find? fun t => t.expires % wheelSize = now % wheelSize ∧ t.expires ≤ now % 2 ^ 64

def flagsOf (p : Nat) : Flags := (s.sys.procs p).flags

def exec : TLabel → Option TSys
  | .sys l => if s.allowed l then s.does l else none
  | .start c id delay => do
    let p ← s.sys.caller c
    if s.call p = none ∧ delay ≠ 0 then
      let t ← s.does (.assign p { s.flagsOf p with timedOut := false })
      some { t.setCall p (some ⟨s.calls, id, delay, 0, .begun⟩) with calls := s.calls + 1 }
    else none
  | .arm c => s.advance c fun p cl =>
    if cl.stage = .begun then
      let timer : Timer := ⟨p, cl.k, (s.ticks + cl.delay.toNat) % 2 ^ 64⟩
      some { s.setCall p (some { cl with stage := .armed, start := s.ticks }) with wheel := s.wheel ++ [timer] }
    else none
  | .flag c => s.advance c fun p cl =>
    if cl.stage = .armed then do
      let t ← s.does (.assign p { s.flagsOf p with interruptible := true })
      some (t.setCall p (some { cl with stage := .flagged }))
    else none
  | .lock c => s.advance c fun p cl =>
    if cl.stage = .flagged then do
      let t ← s.does (.sleepInterruptible c cl.id none)
      some (t.setCall p (some { cl with stage := .slept }))
    else none
  | .unflag c => s.advance c fun p cl =>
    if cl.stage = .slept then do
      let t ← s.does (.assign p { s.flagsOf p with interruptible := false })
      some (t.setCall p (some { cl with stage := .awake (s.sys.procs p).signalWakes }))
    else none
  | .stop c => s.advance c fun p cl =>
    match cl.stage with
    | .awake err =>
      some { s.setCall p (some { cl with stage := .stopped err }) with
        wheel := s.wheel.filter fun t => !(t.p == p && t.k == cl.k) }
    | _ => none
  | .ret c => s.advance c fun p cl =>
    match cl.stage with
    | .stopped _ => some (s.setCall p none)
    | _ => none
  | .tick => some { s with ticks := s.ticks + 1, tickers := s.tickers ++ [s.ticks + 1] }
  | .dispatch now =>
    if now ∈ s.tickers then do
      let t ← s.due now
      some { s with wheel := s.wheel.erase t, running := s.running ++ [⟨t.p, t.k, false⟩] }
    else none
  | .tickEnd now => if s.due now = none then some { s with tickers := s.tickers.erase now } else none
  | .mark cb =>
    if cb ∈ s.running ∧ cb.marked = false then do
      let t ← s.does (.assign cb.p { s.flagsOf cb.p with timedOut := true })
      some { t with running := s.running.erase cb ++ [{ cb with marked := true }] }
    else none
  | .wake cb =>
    if cb ∈ s.running ∧ cb.marked = true then do
      let t ← s.does (.wake cb.p)
      some { t with running := s.running.erase cb }
    else none

/-- What `process_sleep_timeout` of a process returns, once the timer is stopped. -/
def result (p : Nat) : Option Int :=
  match s.call p with
  | some ⟨_, _, _, _, .stopped err⟩ =>
    some (if err then -4 else if (s.flagsOf p).timedOut then -110 else 0)
  | _ => none

def system : LTS TSys TLabel := LTS.ofOption (fun s => s = init) exec

/-- The timer of a call is still set, or its callback is not finished. -/
def unfinished (p : Nat) (cl : Call) : Bool :=
  s.wheel.any (fun t => t.p == p && t.k == cl.k) || s.running.any fun cb => cb.p == p && cb.k == cl.k

/-- No callback is over before its process went to sleep, no call starts while a callback of
an earlier timer is in progress, no deadline wraps around, and the other steps meet
the condition of the scheduler. -/
def undisturbed : TLabel → Bool
  | .sys l => s.sys.undisturbed l
  | .start c _ _ => match s.sys.cur c with
    | some p => s.running.all fun cb => cb.p != p
    | none => true
  | .arm c => match s.callOf c with
    | some (_, cl) => s.ticks + cl.delay.toNat < 2 ^ 64
    | none => true
  | .lock c => match s.callOf c with
    | some (p, cl) => s.sys.staysAwake p none || s.unfinished p cl
    | none => true
  | _ => true

/-! ## The invariant -/

structure Inv (s : TSys) : Prop where
  good : s.sys.Good
  tickers : ∀ n ∈ s.tickers, n ≤ s.ticks
  /-- a pending timer is that of a call in progress -/
  wheel : ∀ t ∈ s.wheel, ∃ cl, s.call t.p = some cl ∧ cl.k = t.k ∧ cl.timed = true ∧ t.expires = cl.deadline
  /-- a callback in progress belongs to the call its process is in, if it is in one -/
  running : ∀ cb ∈ s.running, ∀ cl, s.call cb.p = some cl → cb.k = cl.k ∧ cl.stage ≠ .begun ∧ cl.deadline ≤ s.ticks
  timedOut : ∀ p cl, s.call p = some cl → (s.flagsOf p).timedOut = true → cl.stage ≠ .begun ∧ cl.deadline ≤ s.ticks
  asleep : ∀ p cl, s.call p = some cl → cl.stage = .slept → (s.sys.procs p).state = .sleeping → s.unfinished p cl = true

variable {s t : TSys} {sys' : Sys} {l : Label} {p q c : Nat} {cl : Call} {st : Stage}

lemma unfinished_iff : s.unfinished p cl = true ↔ (∃ t ∈ s.wheel, t.p = p ∧ t.k = cl.k) ∨
    ∃ cb ∈ s.running, cb.p = p ∧ cb.k = cl.k := by
  simp [unfinished]

lemma callOf_eq_some : s.callOf c = some (p, cl) ↔ s.sys.cur c = some p ∧ s.call p = some cl := by
  simp [callOf, bind_eq_some_iff]

lemma advance_eq_some {f : Nat → Call → Option TSys} (h : s.advance c f = some t) :
    ∃ p cl, s.sys.cur c = some p ∧ s.call p = some cl ∧ f p cl = some t := by
  unfold advance at h
  split at h
  · rename_i p cl hc
    exact ⟨p, cl, (callOf_eq_some.1 hc).1, (callOf_eq_some.1 hc).2, h⟩
  · cases h

/-- A step of the scheduler that the rest of the system sees nothing of. -/
lemma does_spec (hg : s.sys.Good) (hok : s.sys.undisturbed l = true) (h : s.does l = some t) :
    ∃ sys', t = { s with sys := sys' } ∧ s.sys.Stepped sys' l := by
  unfold does at h
  split at h
  · rename_i he
    obtain ⟨sys', hx, hst⟩ := hg.step he hok
    rw [hx] at h
    cases h
    exact ⟨sys', rfl, hst⟩
  · cases h

/-- The scheduler takes a step that does not put a process in a timed sleep to sleep, and
marks it only after its deadline. -/
lemma Inv.sched (h : Inv s) (hs : s.sys.Stepped sys' l)
    (hsl : ∀ q cl, s.call q = some cl → cl.stage = .slept → (sys'.procs q).state = .sleeping →
      (s.sys.procs q).state = .sleeping)
    (hto : ∀ q cl, s.call q = some cl → (sys'.procs q).flags.timedOut = true →
      cl.stage ≠ .begun ∧ cl.deadline ≤ s.ticks) : Inv { s with sys := sys' } where
  good := hs.good
  __ := h
  timedOut := hto
  asleep p cl hp hst hsp := h.asleep p cl hp hst (hsl p cl hp hst hsp)

lemma setCall_same (x : Option Call) : (s.setCall p x).call p = x := update_self ..

lemma setCall_ne (x : Option Call) (h : q ≠ p) : (s.setCall p x).call q = s.call q := update_of_ne h ..

/-- The call of process `p` becomes `x`, and of the timers only its own change. -/
lemma Inv.setCall (h : Inv s) (x : Option Call) (w : List Timer) (hold : ∀ t ∈ s.wheel, t.p ≠ p → t ∈ w)
    (hnew : ∀ t ∈ w, t.p ≠ p ∧ t ∈ s.wheel ∨
      t.p = p ∧ ∃ cl, x = some cl ∧ cl.k = t.k ∧ cl.timed = true ∧ t.expires = cl.deadline)
    (hcall : ∀ cl, x = some cl →
      (∀ cb ∈ s.running, cb.p = p → cb.k = cl.k ∧ cl.stage ≠ .begun ∧ cl.deadline ≤ s.ticks) ∧
      ((s.flagsOf p).timedOut = true → cl.stage ≠ .begun ∧ cl.deadline ≤ s.ticks) ∧
      (cl.stage = .slept → (s.sys.procs p).state = .sleeping → { s with wheel := w }.unfinished p cl = true)) :
    Inv { s.setCall p x with wheel := w } where
  __ := h
  wheel t hm := by
    rcases hnew t hm with ⟨hq, ht⟩ | ⟨hq, cl, rfl, hcl⟩
    · obtain ⟨cl, hc, hcl⟩ := h.wheel t ht
      exact ⟨cl, (setCall_ne _ hq).trans hc, hcl⟩
    · exact ⟨cl, hq ▸ setCall_same _, hcl⟩
  running cb hm cl hc := by
    by_cases hq : cb.p = p
    · exact (hcall cl ((setCall_same x).symm.trans (hq ▸ hc))).1 cb hm hq
    · exact h.running cb hm cl ((setCall_ne _ hq).symm.trans hc)
  timedOut q cl hc hf := by
    by_cases hq : q = p
    · subst hq
      exact (hcall cl ((setCall_same x).symm.trans hc)).2.1 hf
    · exact h.timedOut q cl ((setCall_ne _ hq).symm.trans hc) hf
  asleep q cl hc hst hsp := by
    by_cases hq : q = p
    · subst hq
      exact (hcall cl ((setCall_same x).symm.trans hc)).2.2 hst hsp
    have := unfinished_iff.1 (h.asleep q cl ((setCall_ne _ hq).symm.trans hc) hst hsp)
    refine unfinished_iff.2 (this.imp_left ?_)
    rintro ⟨t, ht, hp, hk⟩
    exact ⟨t, hold t ht (hp ▸ hq), hp, hk⟩

/-- What the invariant says of the callbacks and `timed_out` of a call that goes on. -/
lemma Inv.goesOn (h : Inv s) (hp : s.call p = some cl) (hst : st ≠ .begun) :
    (∀ cb ∈ s.running, cb.p = p → cb.k = cl.k ∧ st ≠ .begun ∧ cl.deadline ≤ s.ticks) ∧
    ((s.flagsOf p).timedOut = true → st ≠ .begun ∧ cl.deadline ≤ s.ticks) := by
  refine ⟨fun cb hm hq => ?_, fun hf => ⟨hst, (h.timedOut p cl hp hf).2⟩⟩
  obtain ⟨h1, -, h3⟩ := h.running cb hm cl (hq ▸ hp)
  exact ⟨h1, hst, h3⟩

/-- A call goes on, with its timer as it was. -/
lemma Inv.setStage (h : Inv s) (hp : s.call p = some cl) (st : Stage) (hst : st ≠ .begun)
    (ht : Call.timed { cl with stage := st } = true)
    (hsl : st = .slept → (s.sys.procs p).state = .sleeping → s.unfinished p cl = true) :
    Inv (s.setCall p (some { cl with stage := st })) := by
  obtain ⟨h1, h2⟩ := h.goesOn hp hst
  refine h.setCall (some { cl with stage := st }) s.wheel (fun _ ht _ => ht) (fun t hm => ?_) ?_
  · by_cases hq : t.p = p
    · obtain ⟨cl', hc, hk, -, he⟩ := h.wheel t hm
      rw [hq, hp] at hc
      cases hc
      exact .inr ⟨hq, _, rfl, hk, ht, he⟩
    · exact .inl ⟨hq, hm⟩
  · rintro _ ⟨⟩
    exact ⟨h1, h2, hsl⟩

/-! ## The steps -/

lemma does_assign {f : Flags} (h : s.does (.assign p f) = some t) :
    t = { s with sys := { s.sys with toSched := s.sys.setProc p { s.sys.procs p with flags := f } } } := by
  unfold does at h
  split at h
  · cases h
    rfl
  · cases h

section

variable (h : Inv s)
include h

/-- An assignment to flags that sets `timed_out` only after the deadline. -/
lemma Inv.assign {f : Flags}
    (hf : f.timedOut = true → ∀ cl, s.call p = some cl → cl.stage ≠ .begun ∧ cl.deadline ≤ s.ticks)
    (hd : s.does (.assign p f) = some t) : Inv t ∧ t.call = s.call ∧ t.wheel = s.wheel ∧ t.running = s.running ∧
    t.ticks = s.ticks ∧ (t.flagsOf p = f) ∧ t.calls = s.calls ∧ ∀ q, (t.sys.procs q).state = (s.sys.procs q).state := by
  obtain ⟨sys', ht, hs⟩ := does_spec h.good rfl hd
  have ht' := does_assign hd
  have hsys : sys' = { s.sys with toSched := s.sys.setProc p { s.sys.procs p with flags := f } } := by
    rw [ht] at ht'
    exact congrArg TSys.sys ht'
  have hst : ∀ q, (sys'.procs q).state = (s.sys.procs q).state := fun q => by
    rw [hsys]
    by_cases hq : q = p
    · simp [hq]
    · exact congrArg Proc.state (Sched.setProc_ne _ hq)
  have hself : (sys'.procs p).flags = f := by
    rw [hsys]
    exact congrArg Proc.flags (Sched.setProc_same _)
  subst ht
  refine ⟨h.sched hs (fun q _ _ _ hq => hst q ▸ hq) (fun q cl hcl hq => ?_), rfl, rfl, rfl, rfl, hself, rfl, hst⟩
  by_cases hqp : q = p
  · rw [hqp] at hq hcl
    exact hf (hself ▸ hq) cl hcl
  have : (sys'.procs q).flags = s.flagsOf q := by
    rw [hsys]
    exact congrArg Proc.flags (Sched.setProc_ne _ hqp)
  exact h.timedOut q cl hcl (this ▸ hq)

lemma step_sys (hok : s.sys.undisturbed l = true) (ha : s.allowed l = true) (hd : s.does l = some t) : Inv t := by
  obtain ⟨sys', rfl, hs⟩ := does_spec h.good hok hd
  unfold allowed at ha
  rw [Bool.and_eq_true] at ha
  refine h.sched hs (fun q cl hq _ hsl => ?_) fun q cl hq hto => h.timedOut q cl hq ?_
  · rcases hs.asleep_actor h.good hsl with h1 | ⟨c, hc, hl⟩
    · exact h1
    rw [hl, isNone_iff_eq_none, callOf_eq_some.2 ⟨hc, hq⟩] at ha
    cases ha.1
  refine hs.timedOut hto ?_
  rintro f rfl hf
  have hsame : f.timedOut = (s.sys.procs q).flags.timedOut := by simpa using ha.2
  exact hsame ▸ hf

lemma step_start {id : Int} {delay : UInt64}
    (hok : s.undisturbed (.start c id delay) = true) (hd : s.exec (.start c id delay) = some t) : Inv t := by
  obtain ⟨p, hp, hd⟩ := bind_eq_some_iff.1 hd
  split at hd
  swap
  · cases hd
  rename_i hg
  obtain ⟨t₁, hd₁, hd⟩ := bind_eq_some_iff.1 hd
  cases hd
  obtain ⟨hi, hcall, hw, hr, htk, hself, _⟩ := h.assign (by simp) hd₁
  have hcur : s.sys.cur c = some p := (filter_eq_some_iff.1 hp).1
  have hno : ∀ cb ∈ t₁.running, cb.p ≠ p := by
    rw [hr]
    simpa [undisturbed, hcur] using hok
  refine { hi.setCall (some _) t₁.wheel (fun _ hx _ => hx) (fun x hx => .inl ⟨fun he => ?_, hx⟩) ?_ with }
  · obtain ⟨cl, hc, -⟩ := hi.wheel x hx
    rw [he, hcall, hg.1] at hc
    cases hc
  rintro _ ⟨⟩
  refine ⟨fun cb hcb hq => absurd hq (hno cb hcb), fun hf => ?_, nofun⟩
  rw [hself] at hf
  cases hf

lemma step_arm (hok : s.undisturbed (.arm c) = true) (hd : s.exec (.arm c) = some t) : Inv t := by
  obtain ⟨p, cl, hcur, hcall, hd⟩ := advance_eq_some hd
  split at hd
  swap
  · cases hd
  rename_i hb
  cases hd
  have hw : s.ticks + cl.delay.toNat < 2 ^ 64 := by simpa [undisturbed, callOf_eq_some.2 ⟨hcur, hcall⟩] using hok
  -- a call that has just begun has neither a timer nor a callback
  refine h.setCall (some _) _ (fun x hx _ => mem_append_left _ hx) (fun x hx => ?_) ?_
  · rcases mem_append.1 hx with hx | hx
    · refine .inl ⟨fun hq => ?_, hx⟩
      obtain ⟨cl', hc, -, ht, -⟩ := h.wheel x hx
      rw [hq, hcall] at hc
      cases hc
      simp [Call.timed, hb] at ht
    · cases mem_singleton.1 hx
      exact .inr ⟨rfl, _, rfl, rfl, rfl, Nat.mod_eq_of_lt hw⟩
  · rintro _ ⟨⟩
    exact ⟨fun cb hcb hq => absurd hb (h.running cb hcb cl (hq ▸ hcall)).2.1,
      fun hf => absurd hb (h.timedOut p cl hcall hf).1, nofun⟩

/-- The steps that set or clear `interruptible`. -/
lemma step_flag {b : Bool} {t₁ : TSys} (hcall : s.call p = some cl)
    (hd : s.does (.assign p { s.flagsOf p with interruptible := b }) = some t₁) (st : Stage)
    (hst : st ≠ .begun) (hsl : st ≠ .slept) (ht : Call.timed { cl with stage := st } = true) :
    Inv (t₁.setCall p (some { cl with stage := st })) := by
  obtain ⟨hi, hc, -⟩ := h.assign (f := { s.flagsOf p with interruptible := b })
    (fun hf cl hcl => h.timedOut p cl hcl hf) hd
  exact hi.setStage (hc ▸ hcall) st hst ht fun he => absurd he hsl

lemma step_lock (hok : s.undisturbed (.lock c) = true) (hd : s.exec (.lock c) = some t) : Inv t := by
  obtain ⟨p, cl, hcur, hcall, hd⟩ := advance_eq_some hd
  split at hd
  swap
  · cases hd
  rename_i hfl
  obtain ⟨t₁, hd₁, hd⟩ := bind_eq_some_iff.1 hd
  cases hd
  have hok' : s.sys.staysAwake p none = true ∨ s.unfinished p cl = true := by
    simpa [undisturbed, callOf_eq_some.2 ⟨hcur, hcall⟩] using hok
  obtain ⟨sys', rfl, hs⟩ := does_spec h.good rfl hd₁
  -- only the caller can fall asleep, and its call is not past the sleep yet
  have hi : Inv { s with sys := sys' } := by
    refine h.sched hs (fun q cl' hq hst hsl => ?_) fun q cl' hq hto => h.timedOut q cl' hq ?_
    · rcases hs.asleep_actor h.good hsl with h1 | ⟨d, hdq, ⟨⟩⟩
      · exact h1
      rw [hcur] at hdq
      cases hdq
      rw [hcall] at hq
      cases hq
      rw [hfl] at hst
      cases hst
    · exact hs.timedOut hto nofun
  refine hi.setStage hcall .slept (by simp) rfl fun _ hsp => ?_
  rcases hok' with haw | hun
  · -- it did not go to sleep
    have hrun := (h.good.inv.running c p (by simp) hcur).1
    have hsame : sys' = s.sys := by
      unfold does at hd₁
      split at hd₁
      · simp only [Sys.exec, Sched.sleepInterruptible, hcur, bind_eq_bind, bind_some, haw,
          if_true, map_some, Option.some.injEq] at hd₁
        exact (congrArg TSys.sys hd₁).symm
      · cases hd₁
    rw [hsame, hrun] at hsp
    cases hsp
  · exact hun

lemma step_stop (hd : s.exec (.stop c) = some t) : Inv t := by
  obtain ⟨p, cl, hcur, hcall, hd⟩ := advance_eq_some hd
  split at hd
  swap
  · cases hd
  rename_i err hst
  cases hd
  obtain ⟨h1, h2⟩ := h.goesOn hcall (show Stage.stopped err ≠ .begun by simp)
  refine h.setCall (some _) _ (fun x hx hne => mem_filter.2 ⟨hx, by simp [hne]⟩) (fun x hx => ?_) ?_
  · obtain ⟨hx, hne⟩ := mem_filter.1 hx
    refine .inl ⟨fun hq => ?_, hx⟩
    obtain ⟨cl', hc, hk, -⟩ := h.wheel x hx
    rw [hq, hcall] at hc
    cases hc
    simp [hq, hk] at hne
  · rintro _ ⟨⟩
    exact ⟨h1, h2, nofun⟩

lemma step_ret (hd : s.exec (.ret c) = some t) : Inv t := by
  obtain ⟨p, cl, hcur, hcall, hd⟩ := advance_eq_some hd
  split at hd
  · rename_i hst
    cases hd
    refine h.setCall none s.wheel (fun _ hx _ => hx) (fun x hx => .inl ⟨fun hq => ?_, hx⟩) nofun
    obtain ⟨cl', hc, -, htm, -⟩ := h.wheel x hx
    rw [hq, hcall] at hc
    cases hc
    simp [Call.timed, hst] at htm
  · cases hd

lemma step_dispatch {now : Nat} (hd : s.exec (.dispatch now) = some t) : Inv t := by
  rw [exec] at hd
  split at hd
  swap
  · cases hd
  rename_i hnow
  obtain ⟨x, hx, hd⟩ := bind_eq_some_iff.1 hd
  cases hd
  have hmem := mem_of_find?_eq_some hx
  have hdue : x.expires ≤ s.ticks := by
    have h1 := List.find?_some hx
    simp only [decide_eq_true_eq] at h1
    exact le_trans h1.2 ((Nat.mod_le _ _).trans (h.tickers now hnow))
  obtain ⟨cl, hc, hk, htm, he⟩ := h.wheel x hmem
  exact { h with
    wheel := fun y hy => h.wheel y (mem_of_mem_erase hy)
    running := fun cb hcb cl' hc' => by
      rcases mem_append.1 hcb with hcb | hcb
      · exact h.running cb hcb cl' hc'
      cases mem_singleton.1 hcb
      have hc'' : s.call x.p = some cl' := hc'
      rw [hc] at hc''
      cases hc''
      refine ⟨hk.symm, fun hb => ?_, he ▸ hdue⟩
      simp [Call.timed, hb] at htm
    asleep := fun q cl' hc' hst hsp => by
      rcases unfinished_iff.1 (h.asleep q cl' hc' hst hsp) with ⟨y, hy, hyq, hyk⟩ | ⟨cb, hcb, hcbq⟩
      · by_cases hyx : y = x
        · subst hyx
          exact unfinished_iff.2 (.inr ⟨⟨y.p, y.k, false⟩, by simp, hyq, hyk⟩)
        · exact unfinished_iff.2 (.inl ⟨y, (mem_erase_of_ne hyx).2 hy, hyq, hyk⟩)
      · exact unfinished_iff.2 (.inr ⟨cb, mem_append_left _ hcb, hcbq⟩) }

lemma step_mark {cb : Callback} (hd : s.exec (.mark cb) = some t) : Inv t := by
  rw [exec] at hd
  split at hd
  swap
  · cases hd
  rename_i hcb
  obtain ⟨t₁, hd₁, hd⟩ := bind_eq_some_iff.1 hd
  cases hd
  obtain ⟨hi, hcall, hw, hr, _⟩ := h.assign (fun _ cl hcl => (h.running cb hcb.1 cl hcl).2) hd₁
  have hmem : ∀ x ∈ s.running.erase cb ++ [{ cb with marked := true }], ∃ y ∈ t₁.running, x.p = y.p ∧ x.k = y.k := by
    intro x hx
    rw [hr]
    rcases mem_append.1 hx with hx | hx
    · exact ⟨x, mem_of_mem_erase hx, rfl, rfl⟩
    cases mem_singleton.1 hx
    exact ⟨cb, hcb.1, rfl, rfl⟩
  exact { hi with
    running := fun x hx cl hc => by
      obtain ⟨y, hy, hp, hk⟩ := hmem x hx
      have := hi.running y hy cl (hp ▸ hc)
      exact ⟨hk.trans this.1, this.2⟩
    asleep := fun q cl hc hst hsp => by
      refine unfinished_iff.2 ((unfinished_iff.1 (hi.asleep q cl hc hst hsp)).imp_right ?_)
      rintro ⟨y, hy, hyq, hyk⟩
      rw [hr] at hy
      by_cases hyc : y = cb
      · subst hyc
        exact ⟨{ y with marked := true }, mem_append_right _ (by simp), hyq, hyk⟩
      · exact ⟨y, mem_append_left _ ((mem_erase_of_ne hyc).2 hy), hyq, hyk⟩ }

end

/-- After `process_wake` the process is not asleep. -/
lemma does_wake (hg : s.sys.Good) (hd : s.does (.wake p) = some t) : (t.sys.procs p).state ≠ .sleeping := by
  unfold does at hd
  split at hd
  · simp only [Sys.exec, Sched.wake] at hd
    by_cases hp : (s.sys.procs p).state = .sleeping
    · obtain ⟨u, hu, hw, -⟩ := hg.inv.wakeOne hp
      rw [if_pos hp, hu] at hd
      cases hd
      rw [hw.procs p]
      simp
    · rw [if_neg hp] at hd
      cases hd
      exact hp
  · cases hd

lemma step_wake {cb : Callback} (h : Inv s) (hd : s.exec (.wake cb) = some t) : Inv t := by
  rw [exec] at hd
  split at hd
  swap
  · cases hd
  obtain ⟨t₁, hd₁, hd⟩ := bind_eq_some_iff.1 hd
  cases hd
  have hawake := does_wake h.good hd₁
  obtain ⟨sys', rfl, hs⟩ := does_spec h.good rfl hd₁
  have hi : Inv { s with sys := sys' } := by
    refine h.sched hs (fun q cl hq _ hsl => ?_) fun q cl hq hto => h.timedOut q cl hq ?_
    · exact (hs.asleep_actor h.good hsl).resolve_right nofun
    · exact hs.timedOut hto nofun
  exact { hi with
    running := fun x hx => hi.running x (mem_of_mem_erase hx)
    asleep := fun q cl hc hst hsp => by
      refine unfinished_iff.2 ((unfinished_iff.1 (hi.asleep q cl hc hst hsp)).imp_right ?_)
      rintro ⟨y, hy, hyq, hyk⟩
      have hyc : y ≠ cb := by
        rintro rfl
        exact hawake (hyq ▸ hsp)
      exact ⟨y, (mem_erase_of_ne hyc).2 hy, hyq, hyk⟩ }

lemma Inv.step {l : TLabel} (h : Inv s) (hok : s.undisturbed l = true) (hd : s.exec l = some t) : Inv t := by
  cases l with
  | sys l =>
    rw [exec] at hd
    split at hd
    · rename_i ha
      exact step_sys h hok ha hd
    · cases hd
  | start c id delay => exact step_start h hok hd
  | arm c => exact step_arm h hok hd
  | flag c | unflag c =>
    obtain ⟨p, cl, -, hcall, hd⟩ := advance_eq_some hd
    split at hd
    · obtain ⟨t₁, hd₁, hd⟩ := bind_eq_some_iff.1 hd
      cases hd
      exact step_flag h hcall hd₁ _ (by simp) (by simp) rfl
    · cases hd
  | lock c => exact step_lock h hok hd
  | stop c => exact step_stop h hd
  | ret c => exact step_ret h hd
  | tick =>
    cases hd
    exact { h with
      tickers := fun n hn => by
        rcases mem_append.1 hn with hn | hn
        · exact Nat.le_succ_of_le (h.tickers n hn)
        · exact le_of_eq (mem_singleton.1 hn)
      running := fun cb hcb cl hc => by
        obtain ⟨h1, h2, h3⟩ := h.running cb hcb cl hc
        exact ⟨h1, h2, Nat.le_succ_of_le h3⟩
      timedOut := fun p cl hc hto => by
        obtain ⟨h1, h2⟩ := h.timedOut p cl hc hto
        exact ⟨h1, Nat.le_succ_of_le h2⟩ }
  | dispatch now => exact step_dispatch h hd
  | tickEnd now =>
    rw [exec] at hd
    split at hd
    · cases hd
      exact { h with tickers := fun n hn => h.tickers n (mem_of_mem_erase hn) }
    · cases hd
  | mark cb => exact step_mark h hd
  | wake cb => exact step_wake h hd

lemma init_inv : Inv init where
  good := Sys.boot_good
  tickers := by simp [init]
  wheel := by simp [init]
  running := by simp [init]
  timedOut := by simp [init]
  asleep := by simp [init]

/-- The runs in which every step meets the condition. -/
abbrev undisturbedRuns : LTS TSys TLabel := system.restrict fun s l => s.undisturbed l = true

lemma reachable_inv (h : undisturbedRuns.Reachable s) : Inv s := by
  refine LTS.Inductive.reachable ⟨?_, ?_⟩ h
  · rintro s rfl
    exact init_inv
  intro s l t hs hstep
  exact hs.step hstep.1 hstep.2

/-- In every state of these runs: a process that sleeps in a timed sleep has its timer still
set or the callback of it not finished; a timed sleep that returns `-ETIMEDOUT` has
lasted for its delay; a callback in progress is that of no earlier sleep than the
one its process is in; and the timers in the wheel are those of calls that have not
returned. -/
theorem timed_sleep (h : undisturbedRuns.Reachable s) :
    (∀ p cl, s.call p = some cl → cl.stage = .slept → (s.sys.procs p).state = .sleeping → s.unfinished p cl = true) ∧
    (∀ p cl, s.call p = some cl → s.result p = some (-110) → cl.start + cl.delay.toNat ≤ s.ticks) ∧
    (∀ cb ∈ s.running, ∀ cl, s.call cb.p = some cl → cb.k = cl.k) ∧
    ∀ t ∈ s.wheel, ∃ cl, s.call t.p = some cl ∧ cl.k = t.k := by
  have hi := reachable_inv h
  refine ⟨hi.asleep, fun p cl hc hr => ?_, fun cb hcb cl hc => (hi.running cb hcb cl hc).1, fun t ht => ?_⟩
  · refine (hi.timedOut p cl hc ?_).2
    unfold result at hr
    split at hr
    · split at hr
      · cases hr
      · simpa using hr
    · cases hr
  · obtain ⟨cl, hc, hk, -⟩ := hi.wheel t ht
    exact ⟨cl, hc, hk⟩

/-- A process sleeps for two ticks, its timer fires and wakes it, and it returns. -/
def oneTimeout : List TLabel := [.sys (.pick 0), .sys (.claim 0), .sys (.publish 0), .sys (.yield 0),
    .start 0 5 2, .arm 0, .flag 0, .lock 0, .tick, .tickEnd 1, .tick, .dispatch 2, .mark ⟨1, 0, false⟩,
    .wake ⟨1, 0, true⟩, .tickEnd 2, .sys (.yield 0), .unflag 0, .stop 0]

theorem timed_sleep_oneTimeout : ∃ s, undisturbedRuns.Reachable s ∧ s.result 1 = some (-110) ∧ 2 ≤ s.ticks := by
  have h : ((oneTimeout.foldlM (fun (s : TSys) l => if s.undisturbed l then s.exec l else none) init).map
      fun s => (s.result 1, (s.call 1).map fun cl => (cl.start, cl.delay))) = some (some (-110), some (0, 2)) := by
    decide
  obtain ⟨s, hrun, he⟩ := map_eq_some_iff.1 h
  simp only [Prod.mk.injEq] at he
  obtain ⟨cl, hcl, hcd⟩ := map_eq_some_iff.1 he.2
  have hr : undisturbedRuns.Reachable s := ⟨_, _, rfl, LTS.run_restrict_ofOption hrun⟩
  refine ⟨s, hr, he.1, ?_⟩
  have := (timed_sleep hr).2.1 1 cl hcl he.1
  rw [Prod.mk.injEq] at hcd
  rw [hcd.1, hcd.2] at this
  exact this

/-- The timer fires before the process is asleep. -/
def firedTooEarly : List TLabel := [.sys (.pick 0), .sys (.claim 0), .sys (.publish 0), .sys (.yield 0),
    .start 0 5 1, .arm 0, .tick, .dispatch 1, .mark ⟨1, 0, false⟩, .wake ⟨1, 0, true⟩, .tickEnd 1,
    .flag 0, .lock 0]

/-- Another process wakes the sleeper while the callback is about to run, and it goes to sleep
again, for a hundred ticks. -/
def firedTooLate : List TLabel := [.sys (.pick 0), .sys (.claim 0), .sys (.publish 0), .sys (.yield 0),
    .start 0 5 1, .arm 0, .flag 0, .lock 0, .tick, .dispatch 1, .sys (.wakeupN 5 (-1)), .sys (.yield 0),
    .unflag 0, .stop 0, .ret 0,
    .start 0 5 100, .arm 0, .flag 0, .lock 0, .mark ⟨1, 0, false⟩, .wake ⟨1, 0, true⟩, .tickEnd 1,
    .sys (.yield 0), .unflag 0, .stop 0]

/-- In the first run the process sleeps and nothing will wake it any more; in the second it returns
`-ETIMEDOUT` at once. -/
theorem timeout_lost_and_misplaced : (∃ s cl, system.Reachable s ∧ s.call 1 = some cl ∧ cl.stage = .slept ∧
      (s.sys.procs 1).state = .sleeping ∧ s.unfinished 1 cl = false) ∧
    ∃ s cl, system.Reachable s ∧ s.call 1 = some cl ∧ s.result 1 = some (-110) ∧
      s.ticks < cl.start + cl.delay.toNat := by
  have h₁ : ((firedTooEarly.foldlM exec init).map fun s =>
      ((s.call 1).map fun cl => (cl.stage, s.unfinished 1 cl), (s.sys.procs 1).state)) =
      some (some (.slept, false), .sleeping) := by decide
  have h₂ : ((firedTooLate.foldlM exec init).map fun s =>
      ((s.call 1).map fun cl => (cl.start, cl.delay), s.result 1, s.ticks)) =
      some (some (1, 100), some (-110), 1) := by decide
  constructor
  · obtain ⟨s, hrun, he⟩ := map_eq_some_iff.1 h₁
    simp only [Prod.mk.injEq] at he
    obtain ⟨cl, hcl, hcd⟩ := map_eq_some_iff.1 he.1
    rw [Prod.mk.injEq] at hcd
    exact ⟨s, cl, ⟨_, _, rfl, LTS.run_ofOption hrun⟩, hcl, hcd.1, he.2, hcd.2⟩
  obtain ⟨s, hrun, he⟩ := map_eq_some_iff.1 h₂
  simp only [Prod.mk.injEq] at he
  obtain ⟨cl, hcl, hcd⟩ := map_eq_some_iff.1 he.1
  rw [Prod.mk.injEq] at hcd
  refine ⟨s, cl, ⟨_, _, rfl, LTS.run_ofOption hrun⟩, hcl, he.2.1, ?_⟩
  rw [hcd.1, hcd.2, he.2.2]
  decide

end TSys

end Hermes.L5
