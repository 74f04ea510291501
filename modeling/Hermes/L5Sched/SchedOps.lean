import Hermes.L5Sched.SchedInv

/-!
# What the sections under the scheduler lock do

`Woken s s' ws` says that `s'` is `s` with exactly the sleepers `ws` made ready,
in this order. The three kinds of wakeup are described by it; the others keep
the invariant and say what becomes of the sleepers.

* `Inv.wakeupN`: `process_wakeup_n` (process.c:186) wakes the first sleepers on its id.
-/
namespace Hermes.L5

open List Option

namespace Sched

/-- The sleepers `ws` are made ready, and nothing else changes. -/
structure Woken (s s' : Sched) (ws : List Nat) : Prop where
  procs : ∀ q, s'.procs q = if q ∈ ws then { s.procs q with state := .ready } else s.procs q
  ready : s'.ready = s.ready ++ ws
  waiting : s'.waiting.inorder = s.waiting.inorder.filter (· ∉ ws)
  killed : s'.killed = s.killed
  cur : s'.cur = s.cur
  idle : s'.idle = s.idle
  pollWakeSeq : s'.pollWakeSeq = s.pollWakeSeq

variable {s s' s'' : Sched} {off : Option Nat} {freed ws : List Nat} {p q c : Nat} {id : Int}

lemma Woken.refl (s : Sched) : Woken s s [] := ⟨by simp, by simp, by simp, rfl, rfl, rfl, rfl⟩

lemma Woken.trans {vs : List Nat} (h : Woken s s' ws) (h' : Woken s' s'' vs)
    (hd : ∀ q ∈ vs, q ∉ ws) : Woken s s'' (ws ++ vs) where
  procs q := by
    rw [h'.procs q, h.procs q]
    by_cases hv : q ∈ vs
    · simp [hd q hv]
    · simp [hv]
  ready := by rw [h'.ready, h.ready, append_assoc]
  waiting := by
    rw [h'.waiting, h.waiting]
    simp [Bool.and_comm]
  killed := h'.killed.trans h.killed
  cur := h'.cur.trans h.cur
  idle := h'.idle.trans h.idle
  pollWakeSeq := h'.pollWakeSeq.trans h.pollWakeSeq

lemma Woken.waitId (h : Woken s s' ws) (q : Nat) : (s'.procs q).waitId = (s.procs q).waitId := by
  rw [h.procs q]
  split <;> rfl

lemma Woken.flags (h : Woken s s' ws) (q : Nat) : (s'.procs q).flags = (s.procs q).flags := by
  rw [h.procs q]
  split <;> rfl

namespace Inv

lemma wakeOne (h : Inv s off freed none) (hp : (s.procs p).state = .sleeping) :
    ∃ s', s.wakeOne p = some s' ∧ Woken s s' [p] ∧ Inv s' off freed none := by
  obtain ⟨t, he, ho, ht⟩ := h.hold_sleeping hp
  obtain ⟨s', he', hs', hi⟩ := ht.place_ready
  refine ⟨s', by rw [Sched.wakeOne, he]; exact he', ?_, hi⟩
  subst hs'
  exact {
    procs := fun q => by
      by_cases hq : q = p
      · subst hq
        simp [setState]
      · simp [setState, setProc, hq]
    ready := rfl
    waiting := by
      show t.inorder = _
      rw [ho, h.waitingNodup.erase_eq_filter]
      simp [bne, Bool.beq_eq_decide_eq]
    killed := rfl
    cur := rfl
    idle := rfl
    pollWakeSeq := rfl }

/-- `waiting_first` finds the first sleeper on the id. -/
lemma waitingFirstLoop_eq (key : Nat → Int) (id : Int) (t : RbTree Nat) (found : Option Nat)
    (hs : t.inorder.Pairwise fun x y => key x ≤ key y) :
    waitingFirstLoop key id t found = (t.inorder.find? fun p => key p = id).or found := by
  induction t generalizing found with
  | nil => rfl
  | node _ l p r ihl ihr =>
    obtain ⟨hl, hpr, hlr⟩ := pairwise_append.1 hs
    obtain ⟨hp, hr⟩ := pairwise_cons.1 hpr
    rw [waitingFirstLoop, RbTree.inorder, List.find?_append, List.find?_cons]
    split
    · rename_i hlt
      have hnone : l.inorder.find? (fun q => decide (key q = id)) = none := by
        refine List.find?_eq_none.2 fun x hx => ?_
        have := hlr x hx p (by simp)
        simp only [decide_eq_true_eq]
        omega
      rw [ihr found hr, hnone, decide_eq_false (by omega)]
      rfl
    rename_i hge
    rw [ihl _ hl]
    by_cases hid : key p = id
    · simp [hid]
    have hnone : r.inorder.find? (fun q => decide (key q = id)) = none := by
      refine List.find?_eq_none.2 fun x hx => ?_
      have := hp x hx
      simp only [decide_eq_true_eq]
      omega
    simp [hid, hnone]

end Inv

/-- The sleepers on an id, in the order of the tree. -/
def sleepersOn (s : Sched) (id : Int) : List Nat := s.waiting.inorder.filter fun p => (s.procs p).waitId = id

lemma Woken.sleepersOn (h : Woken s s' ws) (id : Int) : s'.sleepersOn id = (s.sleepersOn id).filter (· ∉ ws) := by
  unfold Sched.sleepersOn
  rw [h.waiting, List.filter_filter, List.filter_filter]
  refine filter_congr fun q _ => ?_
  rw [h.waitId, Bool.and_comm]

namespace Inv

variable {rest : List Nat}

section

variable (h : Inv s off freed none)
include h

lemma waitingFirst_eq (id : Int) : s.waitingFirst id = (s.sleepersOn id).head? := by
  rw [waitingFirst, waitingFirstLoop_eq _ _ _ _ h.sorted, sleepersOn, List.head?_filter, or_none]

lemma sleeper_state (hp : p ∈ s.sleepersOn id) : (s.procs p).state = .sleeping :=
  ((h.waitingIff p).1 (mem_filter.1 hp).1).1

lemma sleepersOn_nodup (id : Int) : (s.sleepersOn id).Nodup := h.waitingNodup.filter _

/-- The first sleeper is woken and the others stay in order. -/
lemma wake_first (hk : s.sleepersOn id = p :: rest) :
    ∃ s', s.wakeOne p = some s' ∧ Woken s s' [p] ∧ Inv s' off freed none ∧ s'.sleepersOn id = rest := by
  obtain ⟨s', he, hw, hi⟩ := h.wakeOne (h.sleeper_state (show p ∈ s.sleepersOn id by simp [hk]))
  refine ⟨s', he, hw, hi, ?_⟩
  have hn := h.sleepersOn_nodup id
  rw [hk, nodup_cons] at hn
  rw [hw.sleepersOn, hk]
  simp only [mem_singleton, filter_cons]
  exact filter_eq_self.2 fun q hq => by simpa using ne_of_mem_of_not_mem hq hn.1

end

/-- How many of the sleepers a call with the given count wakes. -/
def quota (count : Int) (ks : List Nat) : List Nat := if count < 0 then ks else ks.take count.toNat

lemma wakeupLoop_spec (count : Int) (fuel : Nat) (h : Inv s off freed none) (woken : Nat)
    (hf : (s.sleepersOn id).length < fuel) (hw : 0 ≤ count → (woken : Int) ≤ count) :
    ∃ s' ws, wakeupLoop id count fuel s woken = some (s', woken + ws.length) ∧ Woken s s' ws ∧ Inv s' off freed none ∧
      ws = if count < 0 then s.sleepersOn id else (s.sleepersOn id).take (count - woken).toNat := by
  induction fuel generalizing s woken with
  | zero => omega
  | succ fuel ih =>
    rw [wakeupLoop]
    split
    · rename_i hgo
      rw [h.waitingFirst_eq]
      cases hk : s.sleepersOn id with
      | nil => exact ⟨s, [], by simp, Woken.refl s, h, by simp⟩
      | cons p rest =>
        obtain ⟨s₁, he, hwk, hi, hrest⟩ := h.wake_first hk
        obtain ⟨s', ws, he', hws, hi', heq⟩ := ih hi (woken + 1)
          (by rw [hrest]; rw [hk] at hf; simpa using hf) (by intro h0; push_cast; omega)
        have hn := h.sleepersOn_nodup id
        rw [hk, nodup_cons] at hn
        have hsub : ∀ q ∈ ws, q ∈ rest := fun q hq => by
          rw [heq, hrest] at hq
          split at hq
          · exact hq
          · exact mem_of_mem_take hq
        refine ⟨s', p :: ws, ?_, hwk.trans hws fun q hq => ?_, hi', ?_⟩
        · simp only [List.head?_cons, he]
          rw [length_cons, show woken + (ws.length + 1) = woken + 1 + ws.length by omega]
          exact he'
        · simpa using ne_of_mem_of_not_mem (hsub q hq) hn.1
        rw [heq, hrest]
        split
        · rfl
        have hc : (count - woken).toNat = (count - ((woken + 1 : Nat) : Int)).toNat + 1 := by
          push_cast
          omega
        rw [hc, take_succ_cons]
    · rename_i hstop
      refine ⟨s, [], by simp, Woken.refl s, h, ?_⟩
      have h1 : ¬ count < 0 := fun h1 => hstop (.inl h1)
      have h2 : ¬ (woken : Int) < count := fun h2 => hstop (.inr h2)
      rw [if_neg h1, show (count - woken).toNat = 0 by omega]
      rfl

/-- `process_wakeup_n` wakes the first sleepers on its id, as many as it is
told to. -/
lemma wakeupN (h : Inv s off freed none) (id count : Int) :
    ∃ s', s.wakeupN id count = some (s', (quota count (s.sleepersOn id)).length) ∧
      Woken s s' (quota count (s.sleepersOn id)) ∧ Inv s' off freed none := by
  have hlen : (s.sleepersOn id).length < s.waiting.inorder.length + 1 := Nat.lt_succ_of_le (length_filter_le _ _)
  obtain ⟨s', ws, he, hw, hi, heq⟩ := h.wakeupLoop_spec count _ 0 hlen (by omega)
  have hq : ws = quota count (s.sleepersOn id) := by
    rw [heq, quota]
    simp
  rw [hq, zero_add] at he
  exact ⟨s', he, hq ▸ hw, hi⟩

/-- The loop of `process_wakeup_poll` from the rest of the tree's order on. -/
lemma wakeupPollLoop_spec (interest : UInt64) (fuel : Nat) (h : Inv s off freed none) (woken : Nat)
    {xs : List Nat} (hin : s.waiting.inorder = xs ++ rest) (hf : rest.length < fuel) :
    ∃ s' ws, wakeupPollLoop interest fuel s rest.head? woken = some (s', woken + ws.length) ∧
      Woken s s' ws ∧ Inv s' off freed none ∧
      ws = (rest.takeWhile fun p => (s.procs p).waitId = waitChannelPoll).filter fun p =>
        (s.procs p).flags.pollInterest &&& interest ≠ 0 := by
  induction fuel generalizing s woken xs rest with
  | zero => omega
  | succ fuel ih =>
    cases hr : rest with
    | nil => exact ⟨s, [], by simp [wakeupPollLoop], Woken.refl s, h, by simp⟩
    | cons p ys =>
      rw [hr] at hin hf
      have hnext := RbTree.nextNode_spec h.waitingNodup hin
      simp only [List.head?_cons, wakeupPollLoop, hnext]
      have hn := h.waitingNodup
      rw [hin] at hn
      have hpx : p ∉ xs := fun hm => (nodup_append.1 hn).2.2 p hm p (by simp) rfl
      have hpy : p ∉ ys := (nodup_cons.1 (nodup_append.1 hn).2.1).1
      by_cases hid : (s.procs p).waitId = waitChannelPoll
      swap
      · rw [if_neg hid, takeWhile_cons_of_neg (by simpa using hid)]
        exact ⟨s, [], by simp, Woken.refl s, h, by simp⟩
      rw [if_pos hid, takeWhile_cons_of_pos (by simpa using hid)]
      split <;> rename_i hint
      · obtain ⟨s₁, he, hwk, hi⟩ := h.wakeOne (p := p) ((h.waitingIff p).1 (by simp [hin])).1
        have hin₁ : s₁.waiting.inorder = xs ++ ys := by
          rw [hwk.waiting, hin, filter_append, filter_cons_of_neg (by simp)]
          rw [filter_eq_self.2, filter_eq_self.2]
          · exact fun q hq => by simpa using ne_of_mem_of_not_mem hq hpy
          · exact fun q hq => by simpa using ne_of_mem_of_not_mem hq hpx
        obtain ⟨s', ws, he', hws, hi', heq⟩ := ih hi (woken + 1) hin₁ (by simpa using hf)
        simp only [hwk.waitId, hwk.flags] at heq
        refine ⟨s', p :: ws, ?_, hwk.trans hws fun q hq => ?_, hi', ?_⟩
        · rw [he]
          rw [length_cons, show woken + (ws.length + 1) = woken + 1 + ws.length by omega]
          exact he'
        · rw [heq] at hq
          have := (takeWhile_sublist _).subset (mem_filter.1 hq).1
          simpa using ne_of_mem_of_not_mem this hpy
        · rw [heq, filter_cons_of_pos (by simpa using hint)]
      · obtain ⟨s', ws, he', hws, hi', heq⟩ := ih h woken
          (show s.waiting.inorder = (xs ++ [p]) ++ ys by simp [hin]) (by simpa using hf)
        refine ⟨s', ws, he', hws, hi', ?_⟩
        rw [heq, filter_cons_of_neg (by simpa using hint)]

/-- In a sorted list the elements with the key of the first one come first. -/
lemma takeWhile_eq_filter {key : Nat → Int} {l : List Nat} (hs : l.Pairwise fun x y => key x ≤ key y)
    (hl : ∀ x ∈ l, id ≤ key x) : (l.takeWhile fun p => key p = id) = l.filter fun p => key p = id := by
  induction l with
  | nil => rfl
  | cons p l ih =>
    obtain ⟨hp, hs'⟩ := pairwise_cons.1 hs
    by_cases hid : key p = id
    · rw [takeWhile_cons_of_pos (by simpa using hid), filter_cons_of_pos (by simpa using hid),
        ih hs' fun x hx => hl x (by simp [hx])]
    rw [takeWhile_cons_of_neg (by simpa using hid), filter_cons_of_neg (by simpa using hid)]
    refine (filter_eq_nil_iff.2 fun x hx => ?_).symm
    have h1 := hp x hx
    have h2 := hl p (by simp)
    simp only [decide_eq_true_eq]
    omega

/-- `process_wakeup_poll` wakes the pollers whose interest it meets. -/
lemma wakeupPoll (h : Inv s off freed none) (interest : UInt64) :
    ∃ s' ws, s.wakeupPoll interest = some (s', ws.length) ∧ Woken s s' ws ∧ Inv s' off freed none ∧
      ws = (s.sleepersOn waitChannelPoll).filter fun p => (s.procs p).flags.pollInterest &&& interest ≠ 0 := by
  unfold Sched.wakeupPoll
  rw [h.waitingFirst_eq]
  cases hk : s.sleepersOn waitChannelPoll with
  | nil => exact ⟨s, [], by simp [wakeupPollLoop], Woken.refl s, h, by simp⟩
  | cons p ks =>
    -- the loop starts at the first poller
    obtain ⟨xs, ys, hin, hxs, hp, hys⟩ := filter_eq_cons_iff.1 hk
    simp only [decide_eq_true_eq] at hp
    have hlen : (p :: ys).length < s.waiting.inorder.length + 1 := by
      rw [hin, length_append]
      omega
    obtain ⟨s', ws, he, hw, hi, heq⟩ := h.wakeupPollLoop_spec interest _ 0 hin hlen
    rw [zero_add] at he
    refine ⟨s', ws, he, hw, hi, ?_⟩
    have hs := h.sorted
    rw [hin] at hs
    obtain ⟨-, hs', -⟩ := pairwise_append.1 hs
    rw [heq, takeWhile_eq_filter hs', filter_cons_of_pos (by simpa using hp), hys]
    intro x hx
    rcases mem_cons.1 hx with rfl | hx
    · exact Int.le_of_eq hp.symm
    · exact hp ▸ (pairwise_cons.1 hs').1 x hx

end Inv

/-- At most the state of a process changes, and only between running and ready, or to
killed if it dies. -/
def Rescheduled (dies : Prop) (x y : Proc) : Prop :=
  ∃ st, y = { x with state := st } ∧ (st = x.state ∨ (x.state = .running ∨ x.state = .ready) ∧
    (st = .running ∨ st = .ready ∨ dies ∧ st = .killed))

lemma Rescheduled.refl (dies : Prop) (x : Proc) : Rescheduled dies x x := ⟨x.state, rfl, .inl rfl⟩

variable {dies : Prop} {x y : Proc} {D : Nat → Prop}

lemma Rescheduled.trans {z : Proc} (h : Rescheduled dies x y) (h' : Rescheduled dies y z) : Rescheduled dies x z := by
  obtain ⟨st, rfl, h⟩ := h
  obtain ⟨st', rfl, h'⟩ := h'
  refine ⟨st', rfl, ?_⟩
  rcases h with rfl | h
  · exact h'
  rcases h' with rfl | h'
  · exact .inr h
  · exact .inr ⟨h.1, h'.2⟩

lemma Rescheduled.state (h : Rescheduled dies x y) (h1 : x.state ≠ .running) (h2 : x.state ≠ .ready) :
    y.state = x.state := by
  obtain ⟨st, rfl, rfl | ⟨h | h, -⟩⟩ := h
  · rfl
  · exact absurd h h1
  · exact absurd h h2

/-- The states of a process between its creation and its death. -/
def Alive (x : Proc) : Prop := x.state = .running ∨ x.state = .ready ∨ x.state = .sleeping

lemma Rescheduled.alive (h : Rescheduled dies x y) (hd : ¬ dies) (hx : Alive x) : Alive y := by
  obtain ⟨st, rfl, rfl | ⟨-, h | h | h⟩⟩ := h
  · exact hx
  · exact .inl h
  · exact .inr (.inl h)
  · exact absurd h.1 hd

/-- No process falls asleep or wakes up. -/
structure SameSleepers (s s' : Sched) (dies : Nat → Prop) : Prop where
  waiting : s'.waiting = s.waiting
  pollWakeSeq : s'.pollWakeSeq = s.pollWakeSeq
  idle : s'.idle = s.idle
  procs : ∀ q, Rescheduled (dies q) (s.procs q) (s'.procs q)

lemma SameSleepers.refl (s : Sched) (dies : Nat → Prop) : SameSleepers s s dies := ⟨rfl, rfl, rfl, fun _ => .refl _ _⟩

lemma SameSleepers.trans {dies : Nat → Prop} (h : SameSleepers s s' dies)
    (h' : SameSleepers s' s'' dies) : SameSleepers s s'' dies where
  waiting := h'.waiting.trans h.waiting
  pollWakeSeq := h'.pollWakeSeq.trans h.pollWakeSeq
  idle := h'.idle.trans h.idle
  procs q := (h.procs q).trans (h'.procs q)

lemma rescheduled_setState {x : PState} (h : (s.procs p).state = .running ∨ (s.procs p).state = .ready)
    (hx : x = .running ∨ x = .ready ∨ D p ∧ x = .killed) (q : Nat) :
    Rescheduled (D q) (s.procs q) ((s.setState p x).procs q) := by
  by_cases hq : q = p
  · subst hq
    exact ⟨x, by simp [setState], .inr ⟨h, hx⟩⟩
  rw [setState, setProc_ne _ hq]
  exact .refl _ _

namespace Inv

section

variable (h : Inv s none freed none)
include h

/-- The idle process of a CPU that is about to switch is in no list. -/
lemma idle_off (hc : s.cur c = some p) (hp : s.IsIdle p) : Inv (s.setState p .ready) (some c) freed none := by
  obtain ⟨d, hd⟩ := hp
  obtain rfl : c = d := h.idleOwn d c p hd hc
  have hself : ((s.setState p .ready).procs p).state = .ready := by simp [setState]
  have hrun : (s.procs p).state = .running := (h.running c p (by simp) hc).1
  have hne : ∀ {q}, q ≠ p → (s.setState p .ready).procs q = s.procs q := fun hq => setProc_ne _ hq
  have hkeep := fun q => setState_keeps (x := .ready) (.inr hrun) (.inl rfl) q
  exact { h with
    sorted := by
      simp only [(hkeep _).1.1]
      exact h.sorted
    waitingIff := fun q => by
      rw [(hkeep q).2 (by simp) (by simp)]
      exact h.waitingIff q
    readyIff := fun q => by
      by_cases hq : q = p
      · subst hq
        refine iff_of_false (fun hm => ((h.readyIff q).1 hm).2.2 ⟨c, hd⟩) fun hm => hm.2.2 ⟨c, hd⟩
      rw [hne hq]
      exact h.readyIff q
    killedIff := fun q => by
      rw [(hkeep q).2 (by simp) (by simp)]
      exact h.killedIff q
    running := fun d' q hd' hq => by
      have : q ≠ p := by
        rintro rfl
        exact hd' (congrArg some (h.once c d' q (by simp) (by simp) hc hq))
      rw [hne this]
      exact h.running d' q (by simp) hq
    onCpu := fun q hq hh hi => by
      have hqp : q ≠ p := by
        rintro rfl
        exact hi ⟨c, hd⟩
      rw [hne hqp] at hq
      obtain ⟨d', -, hd'⟩ := h.onCpu q hq hh hi
      refine ⟨d', ?_, hd'⟩
      rintro ⟨⟩
      exact hqp (Option.some.inj (hd'.symm.trans hc))
    once := fun d₁ d₂ q _ _ => h.once d₁ d₂ q (by simp) (by simp)
    idle := fun d' q hq => by
      refine ⟨(hkeep q).1.2.trans (h.idle d' q hq).1, by simp, ?_⟩
      by_cases hqp : q = p
      · rw [hqp]
        exact .inr hself
      rw [hne hqp]
      exact (h.idle d' q hq).2.2
    pid := fun q hi hu => by
      rw [(hkeep q).1.2]
      exact h.pid q hi fun he => hu (((hkeep q).2 (by simp) (by simp)).2 he)
    freedKilled := fun q hq => ⟨((hkeep q).2 (by simp) (by simp)).2 (h.freedKilled q hq).1, by simp⟩
    heldPid := by simp }

lemma pid_idle_iff (hc : s.cur c = some p) : (s.procs p).pid = idlePid ↔ s.IsIdle p := by
  constructor
  · intro hp
    by_contra hi
    exact h.pid p hi (by simp [(h.running c p (by simp) hc).1]) hp
  · rintro ⟨d, hd⟩
    exact (h.idle d p hd).1

/-- A CPU that gave up its process takes the next one. -/
lemma switch (hc : s.cur c = some p) (hs : Inv s' (some c) freed none) (hi : s'.idle = s.idle) :
    ∃ s'', s'.schedule c = some s'' ∧ Inv s'' none freed none ∧ SameSleepers s' s'' D := by
  have hidle : (s'.idle c).isSome = true := by
    rw [hi, ← h.started, hc]
    rfl
  obtain ⟨s'', next, he, hinv, hp, hw, hq, hi', hst⟩ := hs.schedule hidle
  refine ⟨s'', he, hinv, hw, hq, hi', fun q => ?_⟩
  rw [hp]
  exact rescheduled_setState hst.symm (.inl rfl) q

lemma yield (hc : s.cur c = some p) :
    ∃ s', s.yield c = some s' ∧ Inv s' none freed none ∧ SameSleepers s s' fun _ => False := by
  unfold Sched.yield
  split
  · exact ⟨s, rfl, h, SameSleepers.refl s _⟩
  simp only [hc, bind_eq_bind, bind_some]
  by_cases hi : s.IsIdle p
  · rw [if_neg (by simpa using (h.pid_idle_iff hc).2 hi)]
    obtain ⟨s', he, hinv, hs⟩ := h.switch hc (h.idle_off hc hi) rfl
    refine ⟨s', he, hinv, SameSleepers.trans ?_ hs⟩
    exact ⟨rfl, rfl, rfl, rescheduled_setState (.inl (h.running c p (by simp) hc).1) (.inr (.inl rfl))⟩
  rw [if_pos (mt (h.pid_idle_iff hc).1 hi)]
  obtain ⟨s₁, he₁, hs₁, hi₁⟩ := (h.hold_running hc hi).place_ready
  obtain ⟨s', he, hinv, hs⟩ := h.switch hc hi₁ (by rw [hs₁]; rfl)
  have he₁' : (s.setState p .ready).insertReady p = some s₁ := he₁
  refine ⟨s', by rw [he₁']; exact he, hinv, SameSleepers.trans ?_ hs⟩
  rw [hs₁]
  exact ⟨rfl, rfl, rfl, rescheduled_setState (.inl (h.running c p (by simp) hc).1) (.inr (.inl rfl))⟩

lemma exit (hc : s.cur c = some p) (hi : ¬ s.IsIdle p) :
    ∃ s', s.exit c = some s' ∧ Inv s' none freed none ∧ SameSleepers s s' fun q => q = p := by
  obtain ⟨s₁, he₁, hs₁, hi₁⟩ := (h.hold_running hc hi).place_killed
  obtain ⟨s', he, hinv, hs⟩ := h.switch hc hi₁ (by rw [hs₁]; rfl)
  refine ⟨s', ?_, hinv, SameSleepers.trans ?_ hs⟩
  · simp only [Sched.exit, hc, he₁, bind_eq_bind, bind_some]
    exact he
  rw [hs₁]
  exact ⟨rfl, rfl, rfl, rescheduled_setState (.inl (h.running c p (by simp) hc).1) (.inr (.inr ⟨rfl, rfl⟩))⟩

end

end Inv

/-- Process `p` falls asleep on `id`, behind the others that sleep on it. -/
structure FallsAsleep (s s' : Sched) (p : Nat) (id : Int) : Prop where
  order : ∃ xs ys, s.waiting.inorder = xs ++ ys ∧ s'.waiting.inorder = xs ++ p :: ys ∧
    (∀ x ∈ xs, (s.procs x).waitId ≤ id) ∧ (∀ y ∈ ys, id < (s.procs y).waitId)
  self : (s'.procs p).state = .sleeping ∧ (s'.procs p).waitId = id ∧ (s'.procs p).flags = (s.procs p).flags
  others : ∀ q, q ≠ p → Rescheduled False (s.procs q) (s'.procs q)
  pollWakeSeq : s'.pollWakeSeq = s.pollWakeSeq

lemma Inv.sleepOn (h : Inv s none freed none) (hc : s.cur c = some p) (hi : ¬ s.IsIdle p) (id : Int) :
    ∃ s', s.sleepOn c p id = some s' ∧ Inv s' none freed none ∧ FallsAsleep s s' p id := by
  obtain ⟨s₁, t, xs, ys, he₁, hs₁, hin, hin', hx, hy, hi₁⟩ := (h.hold_running hc hi).place_waiting id
  have hself : s₁.procs p = { s.procs p with state := .sleeping, waitId := id } := by simp [hs₁]
  obtain ⟨s', he, hinv, hs⟩ := h.switch (D := fun _ => False) hc hi₁ (by rw [hs₁]; rfl)
  refine ⟨s', ?_, hinv, ⟨xs, ys, hin, ?_, hx, hy⟩, ?_, fun q hqp => ?_, ?_⟩
  · simp only [Sched.sleepOn, he₁, bind_eq_bind, bind_some]
    exact he
  · rw [hs.waiting, hs₁]
    exact hin'
  · have hst := (hs.procs p).state (by simp [hself]) (by simp [hself])
    obtain ⟨st, hp, -⟩ := hs.procs p
    rw [hst, hp, hself]
    exact ⟨rfl, rfl, rfl⟩
  · have hsame : s₁.procs q = s.procs q := by
      rw [hs₁]
      exact setProc_ne _ hqp
    rw [← hsame]
    exact hs.procs q
  · rw [hs.pollWakeSeq, hs₁]
    rfl

end Sched

end Hermes.L5
