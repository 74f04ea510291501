import Hermes.L5Sched.SchedSys

/-!
# The structure of the scheduler over whole runs

The invariant of the scheduler with the processes being created and freed around
it. Every step keeps it and none corrupts a list or the tree, as long as a creation
takes its slot while it is free: `scheduler_structure`. `slot_taken_twice` is what
happens otherwise.
-/
namespace Hermes.L5

open Function List Option

namespace Sched

variable {s : Sched} {freed freed' : List Nat} {p c d : Nat}

namespace Inv

lemma assigned (f : Flags) (q : Nat) : ∃ g, (s.setProc p { s.procs p with flags := f }).procs q =
    { s.procs q with flags := g } ∧ (q = p ∧ g = f ∨ g = (s.procs q).flags) := by
  by_cases hq : q = p
  · subst hq
    exact ⟨f, setProc_same _, .inl ⟨rfl, rfl⟩⟩
  · exact ⟨(s.procs q).flags, setProc_ne _ hq, .inr rfl⟩

/-- Only fields that the invariant does not mention change. -/
lemma assign (h : Inv s none freed none) (f : Flags) :
    Inv (s.setProc p { s.procs p with flags := f }) none freed none := by
  have hst : ∀ q, ((s.setProc p { s.procs p with flags := f }).procs q).state = (s.procs q).state ∧
      ((s.setProc p { s.procs p with flags := f }).procs q).pid = (s.procs q).pid ∧
      ((s.setProc p { s.procs p with flags := f }).procs q).waitId = (s.procs q).waitId := fun q => by
    obtain ⟨g, hg, -⟩ := assigned f q
    rw [hg]
    exact ⟨rfl, rfl, rfl⟩
  exact { h with
    sorted := by simp only [hst]; exact h.sorted
    waitingIff := by simp only [hst]; exact h.waitingIff
    readyIff := by simp only [hst]; exact h.readyIff
    killedIff := by simp only [hst]; exact h.killedIff
    running := by simp only [hst]; exact h.running
    onCpu := by simp only [hst]; exact h.onCpu
    idle := by simp only [hst]; exact h.idle
    pid := by simp only [hst]; exact h.pid
    freedKilled := by simp only [hst]; exact h.freedKilled
    heldPid := by simp }

/-- A slot that is in no list. -/
structure Absent (s : Sched) (p : Nat) : Prop where
  idle : ∀ d, s.idle d ≠ some p
  cur : ∀ d, s.cur d ≠ some p
  waiting : p ∉ s.waiting.inorder
  ready : p ∉ s.ready
  killed : p ∉ s.killed

lemma absent (h : Inv s none freed none)
    (hp : (s.procs p).state = .unused ∨ (s.procs p).state = .init ∨ (s.procs p).state = .killed ∧ p ∈ freed) :
    Absent s p where
  idle d hd := by rcases (h.idle d p hd).2.2 with h1 | h1 <;> rw [h1] at hp <;> simp at hp
  cur d hd := by
    rw [(h.running d p (by simp) hd).1] at hp
    simp at hp
  waiting hm := by
    rw [((h.waitingIff p).1 hm).1] at hp
    simp at hp
  ready hm := by
    rw [((h.readyIff p).1 hm).1] at hp
    simp at hp
  killed hm := by
    have hk := (h.killedIff p).1 hm
    rw [hk.1] at hp
    simp [hk.2.2] at hp

/-- Such a slot may change, as long as its new state is none of the list's. -/
lemma mem_iff_setProc {q : Nat} {x : Proc} {l : List Nat} {y : PState} {R : Prop} (hp : p ∉ l) (hx : x.state ≠ y)
    (h : q ≠ p → (q ∈ l ↔ (s.procs q).state = y ∧ R)) : q ∈ l ↔ ((s.setProc p x).procs q).state = y ∧ R := by
  by_cases hq : q = p
  · subst hq
    rw [setProc_same]
    exact iff_of_false hp fun hs => hx hs.1
  · rw [setProc_ne x hq]
    exact h hq

section

variable (h : Inv s none freed none)
include h

lemma sorted_setProc (hp : p ∉ s.waiting.inorder) (x : Proc) :
    s.waiting.inorder.Pairwise fun a b => ((s.setProc p x).procs a).waitId ≤ ((s.setProc p x).procs b).waitId :=
  h.sorted.imp_of_mem fun {a b} ha hb hab => by
    rw [setProc_ne x (ne_of_mem_of_not_mem ha hp), setProc_ne x (ne_of_mem_of_not_mem hb hp)]
    exact hab

/-- A slot that is in no list is cleared or taken. -/
lemma setPlain (x : Proc)
    (hp : (s.procs p).state = .unused ∨ (s.procs p).state = .init ∨ (s.procs p).state = .killed ∧ p ∈ freed)
    (hx : x.state = .unused ∨ x.state = .init ∧ x.pid ≠ idlePid)
    (hf : ∀ q, q ∈ freed' ↔ q ∈ freed ∧ q ≠ p) : Inv (s.setProc p x) none freed' none := by
  have ha := h.absent hp
  have hxs : ∀ {y : PState}, y ≠ .unused → y ≠ .init → x.state ≠ y := by
    rintro y h1 h2 rfl
    rcases hx with hx | hx
    · exact h1 hx
    · exact h2 hx.1
  have hne : ∀ {q}, q ≠ p → (s.setProc p x).procs q = s.procs q := fun hq => setProc_ne x hq
  have hself : (s.setProc p x).procs p = x := setProc_same x
  exact { h with
    sorted := h.sorted_setProc ha.waiting x
    waitingIff := fun q => mem_iff_setProc ha.waiting (hxs (by simp) (by simp)) fun _ => h.waitingIff q
    readyIff := fun q => mem_iff_setProc ha.ready (hxs (by simp) (by simp)) fun _ => h.readyIff q
    killedIff := fun q => mem_iff_setProc ha.killed (hxs (by simp) (by simp)) fun hq => by
      rw [hf q]
      exact (h.killedIff q).trans (by simp [hq])
    running := fun d q hd hq => by
      rw [hne (by rintro rfl; exact ha.cur d hq)]
      exact h.running d q hd hq
    onCpu := fun q hq hh hi => by
      by_cases hqp : q = p
      · subst hqp
        rw [hself] at hq
        exact absurd hq (hxs (by simp) (by simp))
      · rw [hne hqp] at hq
        exact h.onCpu q hq hh hi
    idle := fun d q hq => by
      rw [hne (by rintro rfl; exact ha.idle d hq)]
      exact h.idle d q hq
    pid := fun q hi hu => by
      by_cases hq : q = p
      · subst hq
        rw [hself] at hu ⊢
        rcases hx with hx | hx
        · exact absurd hx hu
        · exact hx.2
      · rw [hne hq] at hu ⊢
        exact h.pid q hi hu
    freedKilled := fun q hq => by
      obtain ⟨hq', hqp⟩ := (hf q).1 hq
      rw [hne hqp]
      exact h.freedKilled q hq'
    heldPid := by simp }

/-- A free slot becomes the idle process of a CPU that starts. -/
lemma startIdle (hp : (s.procs p).state = .unused) (hd : s.cur d = none) :
    Inv { s.setProc p (Sys.fresh .running idlePid) with
      cur := update s.cur d (some p)
      idle := update s.idle d (some p) } none freed none := by
  have ha := h.absent (.inl hp)
  have hdi : s.idle d = none := by
    have := h.started d
    rw [hd] at this
    simpa using this.symm
  have hne : ∀ {q}, q ≠ p → (s.setProc p (Sys.fresh .running idlePid)).procs q = s.procs q := fun hq =>
    setProc_ne _ hq
  have hself : (s.setProc p (Sys.fresh .running idlePid)).procs p = Sys.fresh .running idlePid := setProc_same _
  have hisidle : ∀ {q}, q ≠ p → ((∃ e, update s.idle d (some p) e = some q) ↔ s.IsIdle q) := by
    intro q hq
    refine exists_congr fun e => update_eq_some.trans ?_
    by_cases he : e = d
    · subst he
      simp [hq, hdi]
    · simp [he]
  have hpidle : ∃ e, update s.idle d (some p) e = some p := ⟨d, update_self ..⟩
  exact { h with
    sorted := h.sorted_setProc ha.waiting _
    waitingIff := fun q => mem_iff_setProc ha.waiting (by simp [Sys.fresh]) fun _ => h.waitingIff q
    readyIff := fun q => by
      show q ∈ s.ready ↔ _ ∧ _ ∧ ¬ ∃ e, update s.idle d (some p) e = some q
      refine mem_iff_setProc ha.ready (by simp [Sys.fresh]) fun hq => ?_
      rw [hisidle hq]
      exact h.readyIff q
    killedIff := fun q => mem_iff_setProc ha.killed (by simp [Sys.fresh]) fun _ => h.killedIff q
    running := fun e q _ he => by
      rcases update_eq_some.1 he with ⟨-, hq⟩ | ⟨-, heq⟩
      · rw [hq, hself]
        exact ⟨rfl, by simp⟩
      rw [hne fun hqp => ha.cur e (hqp ▸ heq)]
      exact h.running e q (by simp) heq
    onCpu := fun q hq _ hi => by
      have hqp : q ≠ p := by
        rintro rfl
        exact hi hpidle
      rw [hne hqp] at hq
      obtain ⟨e, -, he⟩ := h.onCpu q hq (by simp) fun hi' => hi ((hisidle hqp).2 hi')
      refine ⟨e, by simp, (update_of_ne ?_ ..).trans he⟩
      rintro rfl
      rw [hd] at he
      cases he
    once := fun e e' q _ _ => update_inj (fun e _ => ha.cur e) (fun e _ => ha.cur e)
      fun e e' q _ _ => h.once e e' q (by simp) (by simp)
    idle := fun e q he => by
      rcases update_eq_some.1 he with ⟨-, hq⟩ | ⟨-, heq⟩
      · rw [hq, hself]
        exact ⟨rfl, by simp, .inl rfl⟩
      rw [hne fun hqp => ha.idle e (hqp ▸ heq)]
      exact h.idle e q heq
    idleOwn := fun e e' q he he' => update_inj (fun e _ => ha.cur e) (fun e _ => ha.idle e)
      (fun e e' q _ _ he he' => h.idleOwn e' e q he' he) he' he
    idleInj := fun e e' q => update_inj (fun e _ => ha.idle e) (fun e _ => ha.idle e) fun e e' q _ _ => h.idleInj e e' q
    started := fun e => by
      show (update s.cur d (some p) e).isSome = (update s.idle d (some p) e).isSome
      by_cases hed : e = d
      · subst hed
        rw [update_self, update_self]
      rw [update_of_ne hed, update_of_ne hed]
      exact h.started e
    pid := fun q hi hu => by
      have hqp : q ≠ p := by
        rintro rfl
        exact hi hpidle
      rw [hne hqp] at hu ⊢
      exact h.pid q (fun hi' => hi ((hisidle hqp).2 hi')) hu
    freedKilled := fun q hq => by
      have hqp : q ≠ p := by
        rintro rfl
        rw [(h.freedKilled q hq).1] at hp
        cases hp
      rw [hne hqp]
      exact h.freedKilled q hq
    heldPid := by simp }

/-- A killed process is taken off its list. -/
lemma takeKilled (freed' : List Nat) (hp : p ∈ s.killed) (hf : ∀ q, q ∈ freed' ↔ q ∈ freed ∨ q = p) :
    ∃ s', s.removeKilled p = some s' ∧ s' = { s with killed := s.killed.erase p } ∧ Inv s' none freed' none := by
  refine ⟨_, if_pos hp, rfl, ?_⟩
  exact { h with
    killedNodup := h.killedNodup.erase p
    killedIff := fun q => by
      rw [h.killedNodup.mem_erase_iff, h.killedIff q, hf q]
      tauto
    freedKilled := fun q hq => by
      rcases (hf q).1 hq with hq | rfl
      · exact h.freedKilled q hq
      · exact ⟨((h.killedIff q).1 hp).1, by simp⟩
    heldPid := by simp }

end

end Inv

end Sched

namespace Sys

variable {s s' : Sys} {l : Label} {asleep : List Nat}

/-- The killed processes on their way to be freed. -/
def freed (s : Sys) : List Nat := s.reaping ++ s.waited.toList

structure Good (s : Sys) : Prop where
  inv : s.toSched.Inv none s.freed none
  made : ∀ p q, s.creation p = .made q → (s.procs q).state = .init
  madeOnce : ∀ p p' q, s.creation p = .made q → s.creation p' = .made q → p = p'
  freedNodup : s.freed.Nodup
  detached : ∀ p ∈ s.reaping, (s.procs p).flags.detached = true

/-- The order of the tree is, on every id, the order of falling asleep. -/
structure InOrder (s : Sys) (asleep : List Nat) : Prop where
  mem : ∀ p, p ∈ asleep ↔ (s.procs p).state = .sleeping
  order : ∀ id, s.sleepersOn id = asleep.filter fun p => (s.procs p).waitId = id

/-- What a step does to the sleepers. -/
inductive Effect (s s' : Sched) (l : Label) : Prop
  /-- none is added, and the order of the others is kept -/
  | shrink (order : s'.waiting.inorder = s.waiting.inorder.filter fun p => (s'.procs p).state = .sleeping)
    (key : ∀ p, (s'.procs p).state = .sleeping → (s'.procs p).waitId = (s.procs p).waitId)
  /-- the caller falls asleep -/
  | asleep (c p : Nat) (id : Int) (hl : (∃ i, l = .sleep c i) ∨ ∃ i n, l = .sleepInterruptible c i n)
    (hc : s.cur c = some p) (h : s.FallsAsleep s' p id)

lemma sched_keeps (h : Good s) {t : Sched} (hi : t.Inv none s.freed none)
    (hinit : ∀ q, (s.procs q).state = .init → (t.procs q).state = .init)
    (hfl : ∀ q, (t.procs q).flags = (s.procs q).flags) : Good { s with toSched := t } where
  inv := hi
  made p q hq := hinit q (h.made p q hq)
  __ := h
  detached p hp := (congrArg Flags.detached (hfl p)).trans (h.detached p hp)

lemma effect_same_tree {s s' : Sched} {freed : List Nat} (hi : s'.Inv none freed none) (hw : s'.waiting = s.waiting)
    (hk : ∀ p ∈ s.waiting.inorder, (s'.procs p).waitId = (s.procs p).waitId) : Effect s s' l := by
  refine .shrink ?_ fun p hp => hk p (hw ▸ (hi.waitingIff p).2 ⟨hp, by simp⟩)
  rw [← hw]
  exact (filter_eq_self.2 fun p hp => by simpa using ((hi.waitingIff p).1 hp).1).symm

variable {D : Nat → Prop}

variable {freed : List Nat} {q : Nat}

lemma effect_same {s s' : Sched} (hi : s'.Inv none freed none) (h : s.SameSleepers s' D) : Effect s s' l := by
  refine effect_same_tree hi h.waiting fun p _ => ?_
  obtain ⟨x, hx, -⟩ := h.procs p
  rw [hx]

lemma effect_woken {s s' : Sched} {ws : List Nat} (hi : s.Inv none freed none)
    (h : s.Woken s' ws) : Effect s s' l := by
  refine .shrink ?_ fun p _ => h.waitId p
  rw [h.waiting]
  refine filter_congr fun p hp => ?_
  have := ((hi.waitingIff p).1 hp).1
  by_cases hpw : p ∈ ws
  · simp [h.procs p, hpw]
  · simp [h.procs p, hpw, this]

section InOrder

variable {freed' : List Nat} (h : InOrder s asleep) (hi : s.toSched.Inv none freed none)
  (hi' : s'.toSched.Inv none freed' none)
include h hi hi'

lemma InOrder.shrink (order : s'.waiting.inorder = s.waiting.inorder.filter fun p => (s'.procs p).state = .sleeping)
    (key : ∀ p, (s'.procs p).state = .sleeping → (s'.procs p).waitId = (s.procs p).waitId) :
    InOrder s' (s.note s' l asleep) := by
  have hdown : ∀ p, (s'.procs p).state = .sleeping → (s.procs p).state = .sleeping := by
    intro p hp
    have hm := (hi'.waitingIff p).2 ⟨hp, by simp⟩
    rw [order] at hm
    exact ((hi.waitingIff p).1 (mem_filter.1 hm).1).1
  -- the caller was running, so it is not a sleeper
  have hnote : s.note s' l asleep = asleep.filter fun p => (s'.procs p).state = .sleeping := by
    have hcaller : ∀ c, (s.cur c).toList.filter (fun p => (s'.procs p).state = .sleeping) = [] := by
      intro c
      refine filter_eq_nil_iff.2 fun p hp => ?_
      rw [mem_toList] at hp
      have hrun := (hi.running c p (by simp) hp).1
      simp only [decide_eq_true_eq]
      intro hs
      rw [hdown p hs] at hrun
      cases hrun
    unfold note
    cases l <;> simp [hcaller]
  rw [hnote]
  constructor
  · intro p
    rw [mem_filter, h.mem p]
    simpa using hdown p
  intro id
  have hid := congrArg (List.filter fun p => (s'.procs p).state = .sleeping) (h.order id)
  unfold Sched.sleepersOn at hid ⊢
  rw [List.filter_filter, List.filter_filter] at hid
  rw [order, List.filter_filter, List.filter_filter]
  have hkey : ∀ p, (decide ((s'.procs p).waitId = id) && decide ((s'.procs p).state = .sleeping)) =
      (decide ((s'.procs p).state = .sleeping) && decide ((s.procs p).waitId = id)) := by
    intro p
    by_cases hp : (s'.procs p).state = .sleeping
    · simp [hp, key p hp]
    · simp [hp]
  simp only [hkey]
  exact hid

lemma InOrder.fallAsleep {c p : Nat} {id : Int} (hl : (∃ i, l = .sleep c i) ∨ ∃ i n, l = .sleepInterruptible c i n)
    (hc : s.cur c = some p) (hf : s.toSched.FallsAsleep s'.toSched p id) : InOrder s' (s.note s' l asleep) := by
  obtain ⟨xs, ys, hin, hin', hx, hy⟩ := hf.order
  have hrun := (hi.running c p (by simp) hc).1
  have hold : ∀ q ∈ asleep, q ≠ p ∧ (s'.procs q).state = .sleeping ∧ (s'.procs q).waitId = (s.procs q).waitId := by
    intro q hq
    have hs := (h.mem q).1 hq
    have hqp : q ≠ p := by
      rintro rfl
      rw [hs] at hrun
      cases hrun
    have hr := hf.others q hqp
    refine ⟨hqp, (hr.state (by simp [hs]) (by simp [hs])).trans hs, ?_⟩
    obtain ⟨x, hx, -⟩ := hr
    rw [hx]
  have hnote : s.note s' l asleep = asleep ++ [p] := by
    have h1 : asleep.filter (fun q => (s'.procs q).state = .sleeping) = asleep :=
      filter_eq_self.2 fun q hq => by simpa using (hold q hq).2.1
    have h2 : (s.cur c).toList.filter (fun q => (s'.procs q).state = .sleeping) = [p] := by
      rw [hc]
      simp [hf.self.1]
    unfold note
    rcases hl with ⟨i, rfl⟩ | ⟨i, n, rfl⟩ <;> simp only [h1, h2]
  rw [hnote]
  constructor
  · intro q
    rw [mem_append, mem_singleton]
    constructor
    · rintro (hq | rfl)
      · exact (hold q hq).2.1
      · exact hf.self.1
    intro hq
    by_cases hqp : q = p
    · exact .inr hqp
    refine .inl ((h.mem q).2 ?_)
    have hm := (hi'.waitingIff q).2 ⟨hq, by simp⟩
    rw [hin'] at hm
    refine ((hi.waitingIff q).1 ?_).1
    rw [hin]
    simpa [hqp] using hm
  intro i
  have hmem : ∀ q ∈ s.waiting.inorder, (s'.procs q).waitId = (s.procs q).waitId := fun q hq =>
    (hold q ((h.mem q).2 ((hi.waitingIff q).1 hq).1)).2.2
  have hord := h.order i
  unfold Sched.sleepersOn at hord ⊢
  rw [hin', filter_append, filter_append]
  rw [hin, filter_append] at hord
  have hxs : xs.filter (fun q => (s'.procs q).waitId = i) = xs.filter (fun q => (s.procs q).waitId = i) :=
    filter_congr fun q hq => by rw [hmem q (by simp [hin, hq])]
  have hys : ys.filter (fun q => (s'.procs q).waitId = i) = ys.filter (fun q => (s.procs q).waitId = i) :=
    filter_congr fun q hq => by rw [hmem q (by simp [hin, hq])]
  have has : asleep.filter (fun q => (s'.procs q).waitId = i) = asleep.filter (fun q => (s.procs q).waitId = i) :=
    filter_congr fun q hq => by rw [(hold q hq).2.2]
  rw [hxs, has, ← hord]
  by_cases hid : id = i
  · -- everything behind the new sleeper has a larger id
    have hnil : ys.filter (fun q => (s.procs q).waitId = i) = [] := filter_eq_nil_iff.2 fun q hq => by
        have := hy q hq
        simp only [decide_eq_true_eq]
        omega
    rw [filter_cons_of_pos (by simp [hf.self.2.1, hid]), hys, hnil]
    simp [hf.self.2.1, hid]
  · rw [filter_cons_of_neg (by simp [hf.self.2.1, hid]), hys]
    simp [hf.self.2.1, hid]

lemma InOrder.step (he : Effect s.toSched s'.toSched l) : InOrder s' (s.note s' l asleep) := by
  cases he with
  | shrink order key => exact h.shrink hi hi' order key
  | asleep c p id hl hc hf => exact h.fallAsleep hi hi' hl hc hf

end InOrder

/-- What a step keeps. The flags of a process change in an assignment, or when its slot
is cleared, and a process that is alive stays so until it exits. -/
structure Stepped (s s' : Sys) (l : Label) : Prop where
  good : Good s'
  effect : Effect s.toSched s'.toSched l
  flags : ∀ q, (s'.procs q).flags = (s.procs q).flags ∨ (s'.procs q).flags = Flags.zero ∧ ¬ Sched.Alive (s.procs q) ∨
    ∃ f, l = .assign q f ∧ (s'.procs q).flags = f
  alive : ∀ q, Sched.Alive (s.procs q) → Sched.Alive (s'.procs q) ∨ ∃ c, l = .exit c ∧ s.cur c = some q
  seq : l ≠ .bumpSeq → s'.pollWakeSeq = s.pollWakeSeq

/-- Only the caller of a step that sleeps falls asleep. -/
lemma Stepped.falls_asleep (h : Stepped s s' l) (hi : Good s)
    (hq : (s'.procs q).state = .sleeping) : (s.procs q).state = .sleeping ∨ ∃ c, s.cur c = some q ∧
      ((∃ i, l = .sleep c i) ∨ ∃ i n, l = .sleepInterruptible c i n) := by
  have hm := (h.good.inv.waitingIff q).2 ⟨hq, by simp⟩
  cases h.effect with
  | shrink order key =>
    rw [order] at hm
    exact .inl ((hi.inv.waitingIff q).1 (mem_filter.1 hm).1).1
  | asleep c r id hl hc hf =>
    obtain ⟨xs, ys, hin, hin', _⟩ := hf.order
    by_cases hqr : q = r
    · exact .inr ⟨c, hqr ▸ hc, hl⟩
    rw [hin'] at hm
    refine .inl ((hi.inv.waitingIff q).1 ?_).1
    rw [hin]
    simpa [hqr] using hm

lemma Stepped.asleep_actor (h : Stepped s s' l) (hi : Good s) (hq : (s'.procs q).state = .sleeping) :
    (s.procs q).state = .sleeping ∨ ∃ c, s.cur c = some q ∧ l.actor = some c := by
  refine (h.falls_asleep hi hq).imp_right ?_
  rintro ⟨c, hc, ⟨i, rfl⟩ | ⟨i, n, rfl⟩⟩ <;> exact ⟨c, hc, rfl⟩

/-- Only an assignment sets `timed_out`. -/
lemma Stepped.timedOut (h : Stepped s s' l) (hq : (s'.procs q).flags.timedOut = true)
    (hl : ∀ f, l = .assign q f → f.timedOut = true → (s.procs q).flags.timedOut = true) :
    (s.procs q).flags.timedOut = true := by
  rcases h.flags q with h1 | ⟨h1, -⟩ | ⟨f, hf, h1⟩ <;> rw [h1] at hq
  · exact hq
  · cases hq
  · exact hl f hf hq

/-- A process that goes on sleeping does so on the same channel. -/
lemma Stepped.same_channel (h : Stepped s s' l) (hi : Good s) (hq : (s.procs q).state = .sleeping)
    (hq' : (s'.procs q).state = .sleeping) : (s'.procs q).waitId = (s.procs q).waitId := by
  cases h.effect with
  | shrink order key => exact key q hq'
  | asleep c r id hl hc hf =>
    have hqr : q ≠ r := by
      rintro rfl
      rw [(hi.inv.running c q (by simp) hc).1] at hq
      cases hq
    obtain ⟨x, hx, -⟩ := hf.others q hqr
    rw [hx]

/-! ## The steps -/

section Steps

variable {t : Sched} {ws : List Nat} {p q c d : Nat}

section

variable (h : Good s)
include h

lemma Good.same (hi : t.Inv none s.freed none) (hs : s.toSched.SameSleepers t D)
    (hD : ∀ q, D q → ∃ c, l = .exit c ∧ s.cur c = some q) : Stepped s { s with toSched := t } l := by
  have hfl : ∀ q, (t.procs q).flags = (s.procs q).flags := fun q => by
    obtain ⟨x, hx, -⟩ := hs.procs q
    rw [hx]
  refine ⟨sched_keeps h hi (fun q hq => ?_) hfl, effect_same hi hs, fun q => .inl (hfl q), fun q hq => ?_,
    fun _ => hs.pollWakeSeq⟩
  · rw [(hs.procs q).state (by simp [hq]) (by simp [hq])]
    exact hq
  by_cases hd : D q
  · exact .inr (hD q hd)
  · exact .inl ((hs.procs q).alive hd hq)

lemma Good.stay : Stepped s s l :=
  ⟨h, effect_same h.inv (.refl _ fun _ => False), fun _ => .inl rfl, fun _ hq => .inl hq, fun _ => rfl⟩

lemma Good.woken (hi : t.Inv none s.freed none) (hw : s.toSched.Woken t ws)
    (hws : ∀ q ∈ ws, (s.procs q).state = .sleeping) : Stepped s { s with toSched := t } l := by
  refine ⟨sched_keeps h hi (fun q hq => ?_) hw.flags, effect_woken h.inv hw, fun q => .inl (hw.flags q),
    fun q hq => .inl ?_, fun _ => hw.pollWakeSeq⟩
  · have hnot : q ∉ ws := fun hm => by
      rw [hws q hm] at hq
      cases hq
    rw [hw.procs q, if_neg hnot]
    exact hq
  · rw [hw.procs q]
    split
    · exact .inr (.inl rfl)
    · exact hq

lemma Good.fallsAsleep {id : Int} (hi : t.Inv none s.freed none) (hc : s.cur c = some p)
    (hf : s.toSched.FallsAsleep t p id)
    (hl : (∃ i, l = .sleep c i) ∨ ∃ i n, l = .sleepInterruptible c i n) :
    Stepped s { s with toSched := t } l := by
  have hrun := (h.inv.running c p (by simp) hc).1
  have hfl : ∀ q, (t.procs q).flags = (s.procs q).flags := fun q => by
    by_cases hqp : q = p
    · rw [hqp]
      exact hf.self.2.2
    obtain ⟨x, hx, -⟩ := hf.others q hqp
    rw [hx]
  refine ⟨sched_keeps h hi (fun q hq => ?_) hfl, .asleep c p id hl hc hf, fun q => .inl (hfl q),
    fun q hq => .inl ?_, fun _ => hf.pollWakeSeq⟩
  · have hqp : q ≠ p := by
      rintro rfl
      rw [hq] at hrun
      cases hrun
    rw [(hf.others q hqp).state (by simp [hq]) (by simp [hq])]
    exact hq
  · by_cases hqp : q = p
    · rw [hqp]
      exact .inr (.inr hf.self.1)
    · exact (hf.others q hqp).alive not_false hq

/-- A caller is a process on the CPU that is not idle. -/
lemma Good.caller (hc : (s.caller c).isSome = true) : ∃ p, s.cur c = some p ∧ ¬ s.IsIdle p := by
  obtain ⟨p, hp⟩ := isSome_iff_exists.1 hc
  obtain ⟨hcur, hpid⟩ := filter_eq_some_iff.1 hp
  exact ⟨p, hcur, fun hi => of_decide_eq_true hpid ((h.inv.pid_idle_iff hcur).2 hi)⟩

lemma step_sleep (id : Int) (hc : s.cur c = some p) (hp : ¬ s.IsIdle p)
    (hl : (∃ i, l = .sleep c i) ∨ ∃ i n, l = .sleepInterruptible c i n) :
    ∃ t, s.toSched.sleepOn c p id = some t ∧ Stepped s { s with toSched := t } l := by
  obtain ⟨t, he, hi, hf⟩ := h.inv.sleepOn hc hp id
  exact ⟨t, he, h.fallsAsleep hi hc hf hl⟩

lemma step_wakeOne (hp : (s.procs p).state = .sleeping) :
    ∃ t, s.toSched.wakeOne p = some t ∧ Stepped s { s with toSched := t } l := by
  obtain ⟨t, he, hw, hi⟩ := h.inv.wakeOne hp
  exact ⟨t, he, h.woken hi hw (by simpa using hp)⟩

/-- What a killed process that is taken off its list is freed by. -/
lemma step_take (hp : p ∈ s.killed) (s' : Sys) (hf : s'.freed.Perm (p :: s.freed)) (hcr : s'.creation = s.creation)
    (hre : ∀ q ∈ s'.reaping, q ∈ s.reaping ∨ (s.procs q).flags.detached = true)
    (ht : s'.toSched = { s.toSched with killed := s.killed.erase p }) :
    s.removeKilled p = some s'.toSched ∧ Stepped s s' l := by
  obtain ⟨t, he, ht', hi⟩ := h.inv.takeKilled s'.freed hp fun q => by rw [hf.mem_iff, mem_cons, or_comm]
  rw [← ht] at ht'
  subst ht'
  have hprocs : s'.procs = s.procs := by rw [ht]
  refine ⟨he, ⟨hi, ?_, ?_, ?_, ?_⟩, effect_same_tree hi (by rw [ht]) fun q _ => ?_,
    fun q => .inl (by rw [hprocs]), fun q hq => .inl (by rw [hprocs]; exact hq), fun _ => by rw [ht]⟩
  · rw [hcr, hprocs]
    exact h.made
  · rw [hcr]
    exact h.madeOnce
  · refine (hf.nodup_iff).2 (nodup_cons.2 ⟨?_, h.freedNodup⟩)
    exact ((h.inv.killedIff p).1 hp).2.2
  · intro q hq
    rw [hprocs]
    exact (hre q hq).elim (h.detached q) id
  · rw [hprocs]

/-- A slot that is in no list changes, and nothing else in the scheduler. -/
lemma step_plain (x : Proc) (s' : Sys)
    (hp : (s.procs p).state = .unused ∨ (s.procs p).state = .init ∨ (s.procs p).state = .killed ∧ p ∈ s.freed)
    (hx : x.state = .unused ∨ x.state = .init ∧ x.pid ≠ idlePid) (hz : x.flags = Flags.zero)
    (ht : s'.toSched = s.toSched.setProc p x)
    (hf : ∀ q, q ∈ s'.freed ↔ q ∈ s.freed ∧ q ≠ p) (hn : s'.freed.Nodup)
    (hre : ∀ q ∈ s'.reaping, q ∈ s.reaping ∧ q ≠ p)
    (hm : ∀ r q, s'.creation r = .made q → s.creation r = .made q ∧ q ≠ p ∨ q = p ∧ x.state = .init)
    (hmo : ∀ r r' q, s'.creation r = .made q → s'.creation r' = .made q → r = r') :
    Stepped s s' l := by
  have hi : s'.toSched.Inv none s'.freed none := by
    rw [ht]
    exact h.inv.setPlain x hp hx hf
  have hne : ∀ {q}, q ≠ p → s'.procs q = s.procs q := fun hq => by
    rw [ht]
    exact Sched.setProc_ne x hq
  have hdead : ¬ Sched.Alive (s.procs p) := by
    unfold Sched.Alive
    rcases hp with hp | hp | ⟨hp, -⟩ <;> simp [hp]
  refine ⟨⟨hi, fun r q hq => ?_, hmo, hn, fun q hq => ?_⟩,
    effect_same_tree hi (by rw [ht]; rfl) fun q hq => ?_, fun q => ?_, fun q hq => .inl ?_,
    fun _ => by rw [ht]; rfl⟩
  · rcases hm r q hq with ⟨hq', hqp⟩ | ⟨rfl, hx'⟩
    · rw [hne hqp]
      exact h.made r q hq'
    rw [ht, Sched.setProc_same]
    exact hx'
  · rw [hne (hre q hq).2]
    exact h.detached q (hre q hq).1
  · rw [hne]
    rintro rfl
    rw [((h.inv.waitingIff q).1 hq).1] at hp
    simp at hp
  · by_cases hqp : q = p
    · refine .inr (.inl ⟨?_, hqp ▸ hdead⟩)
      rw [ht, hqp, Sched.setProc_same]
      exact hz
    · rw [hne hqp]
      exact .inl rfl
  · rw [hne]
    · exact hq
    rintro rfl
    exact hdead hq

end

variable {x : Creation} {r : Nat}

lemma setCreation_made :
    (s.setCreation p x).creation r = .made q ↔ r = p ∧ x = .made q ∨ r ≠ p ∧ s.creation r = .made q := by
  by_cases hr : r = p
  · subst hr
    simp [setCreation]
  · simp [setCreation, hr]

/-- A creation that gets no slot of its own, or loses it. -/
lemma made_of_setCreation (hx : ∀ q, x ≠ .made q) (h : (s.setCreation p x).creation r = .made q) :
    r ≠ p ∧ s.creation r = .made q :=
  (setCreation_made.1 h).resolve_left fun h1 => hx q h1.2

lemma Good.madeOnce_setCreation (h : Good s) (hx : ∀ q, x ≠ .made q) :
    ∀ r r' q, (s.setCreation p x).creation r = .made q → (s.setCreation p x).creation r' = .made q → r = r' :=
  fun r r' q hr hr' => h.madeOnce r r' q (made_of_setCreation hx hr).2 (made_of_setCreation hx hr').2

/-- A creation that is over had the slot for itself. -/
lemma Good.made_others (h : Good s) {q' : Nat} (hp : s.creation p = .made q)
    (hr : (s.setCreation p .none).creation r = .made q') : s.creation r = .made q' ∧ q' ≠ q := by
  obtain ⟨h1, h2⟩ := made_of_setCreation (by simp) hr
  refine ⟨h2, ?_⟩
  rintro rfl
  exact h1 (h.madeOnce r p q' h2 hp)

/-- A creation in progress is that of the process on the CPU. -/
lemma creation_caller (hx : x ≠ .none) (h : s.creationOf c = x) : ∃ p, s.cur c = some p ∧ s.creation p = x := by
  unfold creationOf at h
  cases hc : s.cur c with
  | none =>
    rw [hc] at h
    exact absurd h.symm hx
  | some p =>
    rw [hc] at h
    exact ⟨p, rfl, h⟩

lemma picked_caller (h : s.enabled (.claim c) = true) :
    ∃ p q, s.cur c = some p ∧ s.creation p = .picked q ∧ s.creationOf c = .picked q := by
  obtain ⟨q, hq⟩ : ∃ q, s.creationOf c = .picked q := by
    cases hx : s.creationOf c <;> simp [enabled, hx] at h ⊢
  obtain ⟨p, hc, hp⟩ := creation_caller (by simp) hq
  exact ⟨p, q, hc, hp, hq⟩

lemma made_caller (h : s.enabled (.publish c) = true) : ∃ p q, s.cur c = some p ∧ s.creation p = .made q := by
  obtain ⟨q, hq⟩ : ∃ q, s.creationOf c = .made q := by
    cases hx : s.creationOf c <;> simp [enabled, hx] at h ⊢
  obtain ⟨p, hc, hp⟩ := creation_caller (by simp) hq
  exact ⟨p, q, hc, hp⟩

lemma Good.not_freed (h : Good s) (hq : (s.procs q).state ≠ .killed) : q ∉ s.freed :=
  fun hf => hq (h.inv.freedKilled q hf).1

end Steps

/-- A slot that nobody lists any more is free again. -/
lemma step_free (h : Good s) (he : s.enabled (.free p) = true) :
    ∃ s', s.exec (.free p) = some s' ∧ Stepped s s' (.free p) := by
  have hfr : p ∈ s.freed := by
    unfold freed
    simpa [enabled] using he
  have hfreed : ∀ q, q ∈ s.reaping.erase p ++ (if s.waited = some p then none else s.waited).toList ↔
      q ∈ s.freed ∧ q ≠ p := by
    intro q
    have hnd := (nodup_append.1 h.freedNodup).1
    rw [mem_append, hnd.mem_erase_iff, freed, mem_append]
    by_cases hw : s.waited = some p
    · rw [if_pos hw, hw]
      simp only [toList_none, not_mem_nil, or_false, toList_some, mem_singleton]
      tauto
    rw [if_neg hw, mem_toList]
    constructor
    · rintro (⟨h1, h2⟩ | h1)
      · exact ⟨.inl h2, h1⟩
      refine ⟨.inr h1, ?_⟩
      rintro rfl
      exact hw h1
    · rintro ⟨h1 | h1, h2⟩
      · exact .inl ⟨h2, h1⟩
      · exact .inr h1
  refine ⟨_, rfl, step_plain h Proc.zero _ (.inr (.inr ⟨(h.inv.freedKilled p hfr).1, hfr⟩))
    (.inl rfl) rfl rfl hfreed ?_ ?_ (fun r q hq => .inl ⟨hq, ?_⟩) h.madeOnce⟩
  · show (s.reaping.erase p ++ (if s.waited = some p then none else s.waited).toList).Nodup
    have hn := h.freedNodup
    unfold freed at hn
    refine hn.sublist (List.Sublist.append erase_sublist ?_)
    split
    · exact nil_sublist _
    · exact List.Sublist.refl _
  · intro q hq
    have := (nodup_append.1 h.freedNodup).1.mem_erase_iff.1 hq
    exact ⟨this.2, this.1⟩
  · rintro rfl
    have := h.made r q hq
    rw [(h.inv.freedKilled q hfr).1] at this
    cases this

/-- The slot that was picked becomes a process that nobody else sees yet. -/
lemma step_claim (h : Good s) (he : s.enabled (.claim c) = true) (hok : s.undisturbed (.claim c) = true) :
    ∃ s', s.exec (.claim c) = some s' ∧ Stepped s s' (.claim c) := by
  obtain ⟨p, q, hc, hpq, hq⟩ := picked_caller he
  simp only [undisturbed, hq, Bool.and_eq_true, beq_iff_eq, bne_iff_ne] at hok
  refine ⟨{ s.setCreation p (.made q) with
    toSched := s.setProc q (fresh .init s.nextPid), nextPid := s.nextPid + 1 }, ?_, ?_⟩
  · simp [exec, hc, hpq]
  have hnf : q ∉ s.freed := h.not_freed (by simp [hok.1])
  have hnm : ∀ {r}, s.creation r ≠ .made q := fun {r} hr => by
    rw [h.made r q hr] at hok
    cases hok.1
  refine step_plain h (fresh .init s.nextPid) _ (.inl hok.1) (.inr ⟨rfl, hok.2⟩) rfl rfl
    (fun r => (and_iff_left_of_imp fun hr => ne_of_mem_of_not_mem hr hnf).symm) h.freedNodup (fun r hr => ⟨hr, ?_⟩)
    (fun r q' hr => ?_) fun r r' q' hr hr' => ?_
  · exact ne_of_mem_of_not_mem (mem_append_left _ hr) hnf
  · rcases setCreation_made.1 hr with ⟨-, h1⟩ | ⟨-, h1⟩
    · cases h1
      exact .inr ⟨rfl, rfl⟩
    · exact .inl ⟨h1, by rintro rfl; exact hnm h1⟩
  rcases setCreation_made.1 hr with ⟨h1, h2⟩ | ⟨-, h1⟩
  · rcases setCreation_made.1 hr' with ⟨h1', -⟩ | ⟨-, h1'⟩
    · exact h1.trans h1'.symm
    cases h2
    exact absurd h1' hnm
  rcases setCreation_made.1 hr' with ⟨-, h2⟩ | ⟨-, h1'⟩
  · cases h2
    exact absurd h1 hnm
  · exact h.madeOnce r r' q' h1 h1'

/-- The slot that was picked becomes the idle process of a CPU. -/
lemma step_claimIdle (h : Good s) (he : s.enabled (.claimIdle c d) = true) (hok : s.undisturbed (.claimIdle c d) = true) :
    ∃ s', s.exec (.claimIdle c d) = some s' ∧ Stepped s s' (.claimIdle c d) := by
  simp only [enabled, Bool.and_eq_true, isNone_iff_eq_none] at he
  obtain ⟨p, q, hc, hpq, hq⟩ := picked_caller he.1
  simp only [undisturbed, hq, beq_iff_eq] at hok
  have hi := h.inv.startIdle hok he.2
  have hne : ∀ {r}, (s.procs r).state ≠ .unused →
      (s.setProc q (fresh .running idlePid)).procs r = s.procs r := fun hr =>
    Sched.setProc_ne _ (by rintro rfl; exact hr hok)
  refine ⟨{ s.setCreation p .none with toSched := { s.setProc q (fresh .running idlePid) with
      cur := update s.cur d (some q)
      idle := update s.idle d (some q) } },
    by simp [exec, hc, hpq],
    ⟨hi, fun r q' hr => ?_, h.madeOnce_setCreation (by simp), h.freedNodup, fun r hr => ?_⟩,
    effect_same_tree hi rfl fun r hr => ?_, fun r => ?_, fun r hr => .inl ?_, fun _ => rfl⟩
  · have := h.made r q' (made_of_setCreation (by simp) hr).2
    exact (congrArg Proc.state (hne (by simp [this]))).trans this
  · have := (h.inv.freedKilled r (mem_append_left _ hr)).1
    exact (congrArg (fun x => x.flags.detached) (hne (by simp [this]))).trans (h.detached r hr)
  · exact congrArg Proc.waitId (hne (by simp [((h.inv.waitingIff r).1 hr).1]))
  · by_cases hr : r = q
    · refine .inr (.inl ⟨by rw [hr]; exact congrArg Proc.flags (Sched.setProc_same _), ?_⟩)
      rw [hr]
      simp [Sched.Alive, hok]
    · exact .inl (congrArg Proc.flags (Sched.setProc_ne _ hr))
  · rw [hne]
    · exact hr
    · rcases hr with h1 | h1 | h1 <;> simp [h1]

/-- The process that was made becomes ready. -/
lemma step_publish (h : Good s) (he : s.enabled (.publish c) = true) :
    ∃ s', s.exec (.publish c) = some s' ∧ Stepped s s' (.publish c) := by
  obtain ⟨p, q, hc, hpq⟩ := made_caller he
  have hst := h.made p q hpq
  have ha := h.inv.absent (.inr (.inl hst))
  have hheld := h.inv.hold none (fun ⟨d, hd⟩ => ha.idle d hd) (.inr hst)
    (fun d _ => iff_of_false (ha.cur d) (by simp)) (fun d hd => hd)
  obtain ⟨t, ht, hts, hi⟩ := hheld.place_ready
  have hne : ∀ {r}, r ≠ q → t.procs r = s.procs r := fun hr => by
    rw [hts]
    exact Sched.setProc_ne _ hr
  refine ⟨{ s.setCreation p .none with toSched := t },
    by simp [exec, hc, hpq, ht, map_some],
    ⟨hi, fun r q' hr => ?_, h.madeOnce_setCreation (by simp), h.freedNodup, fun r hr => ?_⟩,
    effect_same_tree hi (by rw [hts]; rfl) fun r hr => ?_, fun r => .inl ?_, fun r hr => .inl ?_,
    fun _ => by rw [hts]; rfl⟩
  · obtain ⟨hr, hq'⟩ := h.made_others hpq hr
    exact (congrArg Proc.state (hne hq')).trans (h.made r q' hr)
  · have hrq := ne_of_mem_of_not_mem (mem_append_left _ hr) (h.not_freed (q := q) (by simp [hst]))
    exact (congrArg (fun x => x.flags.detached) (hne hrq)).trans (h.detached r hr)
  · exact congrArg Proc.waitId (hne (ne_of_mem_of_not_mem hr ha.waiting))
  · by_cases hr : r = q
    · rw [hr, hts]
      simp [Sched.setState]
    · exact congrArg Proc.flags (hne hr)
  · show Sched.Alive (t.procs r)
    rw [hne]
    · exact hr
    rintro rfl
    simp [Sched.Alive, hst] at hr

/-- No enabled step corrupts anything, and each keeps the structure. -/
lemma Good.step (h : Good s) (he : s.enabled l = true) (hok : s.undisturbed l = true) :
    ∃ s', s.exec l = some s' ∧ Stepped s s' l := by
  cases l with
  | yield c =>
    obtain ⟨p, hc⟩ := isSome_iff_exists.1 he
    obtain ⟨t, ht, hi, hs⟩ := h.inv.yield hc
    exact ⟨_, by simp only [exec, ht]; rfl, h.same hi hs fun _ hf => hf.elim⟩
  | sleep c id =>
    obtain ⟨p, hc, hp⟩ := h.caller he
    obtain ⟨t, ht, hg⟩ := step_sleep h id hc hp (l := .sleep c id) (.inl ⟨id, rfl⟩)
    exact ⟨_, by simp [exec, Sched.sleep, hc, ht], hg⟩
  | sleepInterruptible c id seq =>
    obtain ⟨p, hc, hp⟩ := h.caller he
    by_cases haw : s.staysAwake p seq = true
    · refine ⟨s, ?_, h.stay⟩
      simp [exec, Sched.sleepInterruptible, hc, haw]
    obtain ⟨t, ht, hg⟩ := step_sleep h id hc hp (l := .sleepInterruptible c id seq) (.inr ⟨id, seq, rfl⟩)
    refine ⟨_, ?_, hg⟩
    simp [exec, Sched.sleepInterruptible, hc, haw, ht]
  | wakeupN id count =>
    obtain ⟨t, ht, hw, hi⟩ := h.inv.wakeupN id count
    refine ⟨_, by simp only [exec, ht]; rfl, h.woken hi hw fun q hq => ?_⟩
    refine h.inv.sleeper_state (show q ∈ s.sleepersOn id from ?_)
    unfold Sched.Inv.quota at hq
    split at hq
    · exact hq
    · exact mem_of_mem_take hq
  | wake p =>
    by_cases hp : (s.procs p).state = .sleeping
    · obtain ⟨t, ht, hg⟩ := step_wakeOne h hp (l := .wake p)
      exact ⟨_, by simp only [exec, Sched.wake, if_pos hp, ht]; rfl, hg⟩
    · exact ⟨s, by simp only [exec, Sched.wake, if_neg hp]; rfl, h.stay⟩
  | interrupt p =>
    by_cases hp : (s.procs p).state = .sleeping ∧ (s.procs p).flags.interruptible = true
    · obtain ⟨t, ht, hg⟩ := step_wakeOne h hp.1 (l := .interrupt p)
      exact ⟨_, by simp only [exec, Sched.interrupt, if_pos hp, ht]; rfl, hg⟩
    · exact ⟨s, by simp only [exec, Sched.interrupt, if_neg hp]; rfl, h.stay⟩
  | bumpSeq =>
    have hi : Sched.Inv { s.toSched with pollWakeSeq := s.pollWakeSeq + 1 } none s.freed none := { h.inv with }
    exact ⟨_, rfl, sched_keeps h hi (fun q hq => hq) (fun q => rfl), effect_same_tree hi rfl fun _ _ => rfl,
      fun q => .inl rfl, fun _ hq => .inl hq, fun hl => absurd rfl hl⟩
  | wakeupPoll i =>
    obtain ⟨t, ws, ht, hw, hi, hws⟩ := h.inv.wakeupPoll i
    refine ⟨_, by simp only [exec, ht]; rfl, h.woken hi hw fun q hq => ?_⟩
    rw [hws] at hq
    exact h.inv.sleeper_state (mem_filter.1 hq).1
  | exit c =>
    simp only [enabled, Bool.and_eq_true] at he
    obtain ⟨p, hc, hp⟩ := h.caller he.1
    obtain ⟨t, ht, hi, hs⟩ := h.inv.exit hc hp
    exact ⟨_, by simp only [exec, ht]; rfl, h.same hi hs fun q hq => ⟨c, rfl, hq ▸ hc⟩⟩
  | assign p f =>
    have hi := h.inv.assign (p := p) f
    refine ⟨_, rfl, ⟨hi, fun r q hq => ?_, h.madeOnce, h.freedNodup, fun q hq => ?_⟩,
      effect_same_tree hi rfl fun q _ => ?_, fun q => ?_, fun q hq => .inl ?_, fun _ => rfl⟩ <;>
      obtain ⟨g, hg, hgf⟩ := Sched.Inv.assigned (p := p) f q
    · show ((s.setProc p _).procs q).state = .init
      rw [hg]
      exact h.made r q hq
    · rw [hg]
      have hd := h.detached q hq
      rcases hgf with ⟨rfl, rfl⟩ | rfl
      · simpa [enabled, hd] using he
      · exact hd
    · rw [hg]
    · show ((s.setProc p _).procs q).flags = _ ∨ ((s.setProc p _).procs q).flags = _ ∧ _ ∨
        ∃ f', _ ∧ ((s.setProc p _).procs q).flags = f'
      rw [hg]
      rcases hgf with ⟨rfl, rfl⟩ | rfl
      · exact .inr (.inr ⟨g, rfl, rfl⟩)
      · exact .inl rfl
    · show Sched.Alive ((s.setProc p _).procs q)
      rw [hg]
      exact hq
  | reapDetached =>
    cases hv : s.killed.find? fun p => (s.procs p).flags.detached with
    | none => exact ⟨s, by simp only [exec, hv], h.stay⟩
    | some v =>
      obtain ⟨ht, hg⟩ := step_take h (mem_of_find?_eq_some hv)
        { s with toSched := { s.toSched with killed := s.killed.erase v }, reaping := v :: s.reaping }
        (by simp [freed]) rfl
        (by
          intro q hq
          rcases mem_cons.1 hq with rfl | hq
          · exact .inr (List.find?_some (p := fun p => (s.procs p).flags.detached) hv)
          · exact .inl hq) rfl
      exact ⟨_, by simp only [exec, hv, ht]; rfl, hg⟩
  | wait4 p =>
    simp only [enabled, Bool.and_eq_true, beq_iff_eq, Bool.not_eq_true'] at he
    obtain ⟨⟨hk, hd⟩, hw⟩ := he
    have hmem : p ∈ s.killed := by
      refine (h.inv.killedIff p).2 ⟨hk, by simp, fun hf => ?_⟩
      unfold freed at hf
      rw [hw] at hf
      simp only [toList_none, append_nil] at hf
      rw [h.detached p hf] at hd
      cases hd
    obtain ⟨ht, hg⟩ := step_take h hmem
      { s with toSched := { s.toSched with killed := s.killed.erase p }, waited := some p }
      (l := .wait4 p) (by simp [freed, hw]) rfl (fun q hq => .inl hq) rfl
    exact ⟨_, by simp only [exec, ht]; rfl, hg⟩
  | free p => exact step_free h he
  | pick c =>
    simp only [enabled, Bool.and_eq_true] at he
    obtain ⟨p, hc⟩ := isSome_iff_exists.1 he.1
    cases hq : s.findFreeProcessSlot with
    | none =>
      refine ⟨s, ?_, h.stay⟩
      simp [exec, hc, hq]
    | some q =>
      refine ⟨s.setCreation p (.picked q), ?_,
        ⟨h.inv, fun r q' hr => h.made r q' (made_of_setCreation (by simp) hr).2, h.madeOnce_setCreation (by simp),
          h.freedNodup, h.detached⟩,
        effect_same h.inv (.refl _ fun _ => False), fun q => .inl rfl, fun _ hr => .inl hr, fun _ => rfl⟩
      simp [exec, hc, hq]
  | claim c => exact step_claim h he hok
  | claimIdle c d => exact step_claimIdle h he hok
  | publish c => exact step_publish h he
  | abort c =>
    obtain ⟨p, q, hc, hpq⟩ := made_caller he
    have hst := h.made p q hpq
    have hnf : q ∉ s.freed := h.not_freed (by simp [hst])
    refine ⟨{ s.setCreation p .none with toSched := s.setProc q Proc.zero }, ?_, ?_⟩
    · simp [exec, hc, hpq]
    exact step_plain h Proc.zero _ (.inr (.inl hst)) (.inl rfl) rfl rfl
      (fun r => (and_iff_left_of_imp fun hr => ne_of_mem_of_not_mem hr hnf).symm) h.freedNodup
      (fun r hr => ⟨hr, ne_of_mem_of_not_mem (mem_append_left _ hr) hnf⟩)
      (fun r q' hr => .inl (h.made_others hpq hr)) (h.madeOnce_setCreation (by simp))

/-! ## Runs -/

lemma boot_cur {c p : Nat} (h : boot.cur c = some p) : c = 0 ∧ p = 0 := by
  by_cases hc : c = 0
  · simpa [boot, hc, eq_comm] using h
  · simp [boot, hc] at h

lemma boot_good : Good boot where
  inv := {
    balanced := ⟨rfl, 0, rfl⟩
    sorted := .nil
    waitingNodup := .nil
    readyNodup := .nil
    killedNodup := .nil
    waitingIff := fun p => by
      by_cases hp : p = 0 <;> simp [boot, hp, fresh, Proc.zero, RbTree.inorder]
    readyIff := fun p => by
      by_cases hp : p = 0 <;> simp [boot, hp, fresh, Proc.zero]
    killedIff := fun p => by
      by_cases hp : p = 0 <;> simp [boot, hp, fresh, Proc.zero]
    running := fun c p _ hc => by
      rw [(boot_cur hc).2]
      simp [boot, fresh]
    onCpu := fun p hp _ _ => by
      by_cases hp0 : p = 0
      · exact ⟨0, by simp, by simp [boot, hp0]⟩
      · simp [boot, hp0, Proc.zero] at hp
    once := fun c c' p _ _ hc hc' => (boot_cur hc).1.trans (boot_cur hc').1.symm
    idle := fun c p hc => by
      rw [(boot_cur hc).2]
      simp [boot, fresh]
    idleOwn := fun c c' p hc hc' => (boot_cur hc').1.trans (boot_cur hc).1.symm
    idleInj := fun c c' p hc hc' => (boot_cur hc).1.trans (boot_cur hc').1.symm
    started := fun c => rfl
    pid := fun p hp hu => by
      by_cases hp0 : p = 0
      · exact absurd ⟨0, by simp [boot, hp0]⟩ hp
      · simp [boot, hp0, Proc.zero] at hu
    freedKilled := by simp [freed, boot]
    heldPid := by simp }
  made := by simp [boot]
  madeOnce := by simp [boot]
  freedNodup := by simp [freed, boot]
  detached := by simp [boot]

lemma boot_inOrder : InOrder boot [] where
  mem p := by by_cases hp : p = 0 <;> simp [boot, hp, fresh, Proc.zero]
  order id := by simp [boot, Sched.sleepersOn, RbTree.inorder]

/-- The runs in which every creation takes its slot while it is free. -/
abbrev undisturbedRuns : LTS (Sys × List Nat) Label := tracked.restrict fun a l => a.1.undisturbed l = true

lemma reachable_good (h : undisturbedRuns.Reachable (s, asleep)) : Good s ∧ InOrder s asleep := by
  refine LTS.Inductive.reachable (I := fun a => Good a.1 ∧ InOrder a.1 a.2) ⟨?_, ?_⟩ h
  · rintro a rfl
    exact ⟨boot_good, boot_inOrder⟩
  rintro ⟨s, asleep⟩ l ⟨s', asleep'⟩ ⟨hg, ho⟩ ⟨hok, hstep⟩
  have hstep' : track (s, asleep) l = some (s', asleep') := hstep
  unfold track at hstep'
  split at hstep'
  · rename_i he
    obtain ⟨t, ht, hg', heff, -⟩ := hg.step he hok
    rw [ht] at hstep'
    cases hstep'
    exact ⟨hg', ho.step hg.inv hg'.inv heff⟩
  · cases hstep'

/-- In every state of these runs each process is exactly where its state says, a
killed one until it is on its way to be freed, and on at most one CPU; a wakeup
makes ready the first sleepers on its id, in the order in which they went
to sleep; and no step corrupts a list or the tree. -/
theorem scheduler_structure (h : undisturbedRuns.Reachable (s, asleep)) : (∀ p, ¬ s.IsIdle p →
      (p ∈ s.waiting.inorder ↔ (s.procs p).state = .sleeping) ∧
      (p ∈ s.ready ↔ (s.procs p).state = .ready) ∧
      (p ∈ s.killed ↔ (s.procs p).state = .killed ∧ p ∉ s.freed) ∧
      ((∃ c, s.cur c = some p) ↔ (s.procs p).state = .running) ∧
      ∀ c c', s.cur c = some p → s.cur c' = some p → c = c') ∧
    (s.waiting.inorder ++ s.ready ++ s.killed).Nodup ∧
    (∀ id count, ∃ t, s.wakeupN id count = some (t, (Sched.Inv.quota count (asleep.filter fun p =>
        (s.procs p).waitId = id)).length) ∧
      s.Woken t (Sched.Inv.quota count (asleep.filter fun p => (s.procs p).waitId = id))) ∧
    ∀ l, s.enabled l = true → s.undisturbed l = true → ∃ s', s.exec l = some s' := by
  obtain ⟨hg, ho⟩ := reachable_good h
  have hi := hg.inv
  refine ⟨fun p hp => ⟨?_, ?_, ?_, ⟨?_, ?_⟩, fun c c' => hi.once c c' p (by simp) (by simp)⟩, ?_, ?_, ?_⟩
  · simpa using hi.waitingIff p
  · simpa [hp] using hi.readyIff p
  · simpa using hi.killedIff p
  · rintro ⟨c, hc⟩
    exact (hi.running c p (by simp) hc).1
  · intro hr
    obtain ⟨c, -, hc⟩ := hi.onCpu p hr (by simp) hp
    exact ⟨c, hc⟩
  · have hdisj : ∀ {x y : PState} {q : Nat}, (s.procs q).state = x → (s.procs q).state = y → x ≠ y → False :=
      fun h1 h2 h3 => h3 (h1.symm.trans h2)
    refine nodup_append.2 ⟨nodup_append.2 ⟨hi.waitingNodup, hi.readyNodup, ?_⟩, hi.killedNodup, ?_⟩
    · rintro q hq r hr rfl
      exact hdisj ((hi.waitingIff q).1 hq).1 ((hi.readyIff q).1 hr).1 (by simp)
    rintro q hq r hr rfl
    rcases mem_append.1 hq with hq | hq
    · exact hdisj ((hi.waitingIff q).1 hq).1 ((hi.killedIff q).1 hr).1 (by simp)
    · exact hdisj ((hi.readyIff q).1 hq).1 ((hi.killedIff q).1 hr).1 (by simp)
  · intro id count
    obtain ⟨t, ht, hw, -⟩ := hi.wakeupN id count
    rw [ho.order id] at ht hw
    exact ⟨t, ht, hw⟩
  · intro l he hok
    obtain ⟨s', hs', -⟩ := hg.step he hok
    exact ⟨s', hs'⟩

/-- The boot process creates two more, which run and go to sleep on the same id. -/
def twoSleepers : List Label :=
  [.pick 0, .claim 0, .publish 0, .pick 0, .claim 0, .publish 0, .yield 0, .sleep 0 5, .sleep 0 5]

/-- A wakeup of one makes the first of them ready. -/
theorem scheduler_structure_twoSleepers : ∃ s : Sys, undisturbedRuns.Reachable (s, [1, 2]) ∧
    ∃ t, s.wakeupN 5 1 = some (t, 1) ∧ s.Woken t [1] := by
  have h : ((twoSleepers.foldlM (fun (a : Sys × List Nat) l => if a.1.undisturbed l then track a l else none)
      (boot, [])).map fun a => (a.2, (a.1.procs 1).waitId, (a.1.procs 2).waitId)) = some ([1, 2], 5, 5) := by decide
  obtain ⟨⟨s, asleep⟩, hrun, he⟩ := map_eq_some_iff.1 h
  simp only [Prod.mk.injEq] at he
  obtain ⟨rfl, hid, hid'⟩ := he
  have hr : undisturbedRuns.Reachable (s, [1, 2]) := ⟨_, _, rfl, LTS.run_restrict_ofOption hrun⟩
  obtain ⟨t, ht, hw⟩ := (scheduler_structure hr).2.2.1 5 1
  have hq : Sched.Inv.quota 1 ([1, 2].filter fun p => (s.procs p).waitId = 5) = [1] := by
    simp [Sched.Inv.quota, hid, hid']
  rw [hq] at ht hw
  exact ⟨s, hr, t, ht, hw⟩

/-- The shell thread and a system call create processes at the same time. -/
def twoCreations : List Label :=
  [.pick 0, .claim 0, .publish 0, .pick 0, .claim 0, .publish 0, .pick 0, .claimIdle 0 1, .yield 0, .yield 1,
    -- both find slot 4 free
    .pick 0, .pick 1, .claim 0, .claim 1, .publish 0, .yield 0, .publish 1, .yield 1, .yield 1]

theorem slot_taken_twice : ∃ s asleep, tracked.Reachable (s, asleep) ∧
    (s.procs 4).pid ≠ idlePid ∧ s.cur 0 = some 4 ∧ s.cur 1 = some 4 := by
  have h : ((twoCreations.foldlM track (boot, [])).map fun a =>
      ((a.1.procs 4).pid, a.1.cur 0, a.1.cur 1)) = some (4, some 4, some 4) := by decide
  obtain ⟨⟨s, asleep⟩, hrun, he⟩ := map_eq_some_iff.1 h
  simp only [Prod.mk.injEq] at he
  exact ⟨s, asleep, ⟨_, _, rfl, LTS.run_ofOption hrun⟩, by rw [he.1]; decide, he.2.1, he.2.2⟩

/-- In every state of these runs no process is on its way to be freed twice; one that is, is killed, in no list and on
no CPU; the reaper takes detached processes only; and a slot that is being filled belongs to one creation. -/
theorem freed_once (h : undisturbedRuns.Reachable (s, asleep)) : s.freed.Nodup ∧
    (∀ p ∈ s.freed, (s.procs p).state = .killed ∧ p ∉ s.waiting.inorder ++ s.ready ++ s.killed ∧ ∀ c, s.cur c ≠ some p) ∧
    (∀ p ∈ s.reaping, (s.procs p).flags.detached = true) ∧
    ∀ p q, s.creation p = .made q → (s.procs q).state = .init ∧ ∀ p', s.creation p' = .made q → p' = p := by
  obtain ⟨hg, -⟩ := reachable_good h
  have hi := hg.inv
  refine ⟨hg.freedNodup, fun p hp => ?_, hg.detached, fun p q hq =>
    ⟨hg.made p q hq, fun p' hq' => hg.madeOnce p' p q hq' hq⟩⟩
  have hk := (hi.freedKilled p hp).1
  refine ⟨hk, ?_, fun c hc => ?_⟩
  · simp [hi.waitingIff, hi.readyIff, hi.killedIff, hk, hp]
  · have := (hi.running c p (by simp) hc).1
    rw [hk] at this
    cases this

theorem freed_once_oneExit : ∃ a, undisturbedRuns.Reachable a ∧ a.1.freed = [1] ∧ a.1.cur 0 ≠ some 1 := by
  have h : (([.pick 0, .claim 0, .publish 0, .yield 0, .exit 0, .wait4 1].foldlM (fun (a : Sys × List Nat) l =>
      if a.1.undisturbed l then track a l else none) (boot, [])).map (·.1.freed)) = some [1] := by decide
  obtain ⟨a, hrun, he⟩ := map_eq_some_iff.1 h
  have hr : undisturbedRuns.Reachable a := ⟨_, _, rfl, LTS.run_restrict_ofOption hrun⟩
  exact ⟨a, hr, he, ((freed_once hr).2.1 1 (by simp [he])).2.2 0⟩

end Sys

end Hermes.L5
