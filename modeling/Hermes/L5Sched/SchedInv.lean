import Hermes.L5Sched.Sched

/-!
# The structure of the scheduler

`Inv s off freed held` is the invariant inside a locked section. CPU `off` is
about to switch away from its process, `freed` are the killed processes that were
taken off the killed list to be freed, and `held` is a process that the
section has taken from one place and not yet put in the next. Outside there is no
`off` and no `held`.
-/
namespace Hermes.L5

open List

open Function

namespace Sched

def IsIdle (s : Sched) (p : Nat) : Prop := ∃ c, s.idle c = some p

structure Inv (s : Sched) (off : Option Nat) (freed : List Nat) (held : Option Nat) : Prop where
  balanced : s.waiting.Balanced
  sorted : s.waiting.inorder.Pairwise fun x y => (s.procs x).waitId ≤ (s.procs y).waitId
  waitingNodup : s.waiting.inorder.Nodup
  readyNodup : s.ready.Nodup
  killedNodup : s.killed.Nodup
  waitingIff : ∀ p, p ∈ s.waiting.inorder ↔ (s.procs p).state = .sleeping ∧ held ≠ some p
  readyIff : ∀ p, p ∈ s.ready ↔ (s.procs p).state = .ready ∧ held ≠ some p ∧ ¬ s.IsIdle p
  killedIff : ∀ p, p ∈ s.killed ↔ (s.procs p).state = .killed ∧ held ≠ some p ∧ p ∉ freed
  running : ∀ c p, off ≠ some c → s.cur c = some p → (s.procs p).state = .running ∧ held ≠ some p
  onCpu : ∀ p, (s.procs p).state = .running → held ≠ some p → ¬ s.IsIdle p → ∃ c, off ≠ some c ∧ s.cur c = some p
  once : ∀ c c' p, off ≠ some c → off ≠ some c' → s.cur c = some p → s.cur c' = some p → c = c'
  idle : ∀ c p, s.idle c = some p → (s.procs p).pid = idlePid ∧ held ≠ some p ∧
    ((s.procs p).state = .running ∨ (s.procs p).state = .ready)
  idleOwn : ∀ c c' p, s.idle c = some p → s.cur c' = some p → c' = c
  idleInj : ∀ c c' p, s.idle c = some p → s.idle c' = some p → c = c'
  started : ∀ c, (s.cur c).isSome = (s.idle c).isSome
  pid : ∀ p, ¬ s.IsIdle p → (s.procs p).state ≠ .unused → (s.procs p).pid ≠ idlePid
  freedKilled : ∀ p ∈ freed, (s.procs p).state = .killed ∧ held ≠ some p
  heldPid : ∀ p, held = some p → (s.procs p).pid ≠ idlePid

variable {s s' : Sched} {off held : Option Nat} {freed : List Nat} {p q c : Nat}

@[simp] lemma setProc_same (x : Proc) : (s.setProc p x).procs p = x := update_self ..

lemma setProc_ne (x : Proc) (h : q ≠ p) : (s.setProc p x).procs q = s.procs q := update_of_ne h ..

lemma update_eq_some {f : Nat → Option Nat} {d : Nat} : update f c (some p) d = some q ↔
    d = c ∧ q = p ∨ d ≠ c ∧ f d = some q := by
  by_cases hd : d = c
  · subst hd
    simp [eq_comm]
  · simp [hd]

/-- Two maps that are given the process `p` at `c`, and have it nowhere else. -/
lemma update_inj {f g : Nat → Option Nat} (hf : ∀ d, d ≠ c → f d ≠ some p) (hg : ∀ d, d ≠ c → g d ≠ some p)
    (h : ∀ d d' q, d ≠ c → d' ≠ c → f d = some q → g d' = some q → d = d') {d d' : Nat}
    (hd : update f c (some p) d = some q) (hd' : update g c (some p) d' = some q) : d = d' := by
  rcases update_eq_some.1 hd with ⟨h1, h2⟩ | ⟨h1, hd⟩
  · rcases update_eq_some.1 hd' with ⟨h1', -⟩ | ⟨h1', hd'⟩
    · exact h1.trans h1'.symm
    · exact absurd (h2 ▸ hd') (hg d' h1')
  rcases update_eq_some.1 hd' with ⟨-, h2⟩ | ⟨h1', hd'⟩
  · exact absurd (h2 ▸ hd) (hf d h1)
  · exact h d d' q h1 h1' hd hd'

namespace Inv

lemma held_not_idle (h : Inv s off freed (some p)) : ¬ s.IsIdle p := fun ⟨c, hc⟩ =>
  (h.idle c p hc).2.1 rfl

/-- The held process may be changed in any way. -/
lemma setHeld (h : Inv s off freed (some p)) (x : Proc) (hx : x.pid ≠ idlePid) :
    Inv (s.setProc p x) off freed (some p) := by
  -- no fact of the invariant is about the state of the held process
  have hne : ∀ {q}, some p ≠ some q → (s.setProc p x).procs q = s.procs q := fun hq =>
    setProc_ne x fun he => hq (congrArg some he.symm)
  have hiff : ∀ (P : Proc → Prop) q, (P ((s.setProc p x).procs q) ∧ some p ≠ some q) ↔
      (P (s.procs q) ∧ some p ≠ some q) := fun P q => by
    constructor
    · rintro ⟨h1, h2⟩
      exact ⟨hne h2 ▸ h1, h2⟩
    rintro ⟨h1, h2⟩
    exact ⟨(hne h2).symm ▸ h1, h2⟩
  exact { h with
    sorted := h.sorted.imp_of_mem fun {a b} ha hb hab => by
      rw [hne ((h.waitingIff a).1 ha).2, hne ((h.waitingIff b).1 hb).2]
      exact hab
    waitingIff := fun q => (h.waitingIff q).trans (hiff (fun r => r.state = .sleeping) q).symm
    readyIff := fun q => by
      rw [← and_assoc, hiff (fun r => r.state = .ready), and_assoc]
      exact h.readyIff q
    killedIff := fun q => by
      rw [← and_assoc, hiff (fun r => r.state = .killed), and_assoc]
      exact h.killedIff q
    running := fun c q hc hq => (hiff (fun r => r.state = .running) q).2 (h.running c q hc hq)
    onCpu := fun q hq hh => by
      rw [hne hh] at hq
      exact h.onCpu q hq hh
    idle := fun c q hq => by
      have := h.idle c q hq
      rw [hne this.2.1]
      exact this
    pid := fun q hq hu => by
      by_cases he : q = p
      · subst he
        rw [setProc_same]
        exact hx
      · rw [setProc_ne x he] at hu ⊢
        exact h.pid q hq hu
    freedKilled := fun q hq => (hiff (fun r => r.state = .killed) q).2 (h.freedKilled q hq)
    heldPid := by
      rintro q ⟨⟩
      rw [setProc_same]
      exact hx }

/-- Take a process in hand, out of the tree if it is there. -/
lemma take (h : Inv s off freed none) (off' : Option Nat) (hp : ¬ s.IsIdle p)
    (hst : (s.procs p).state = .running ∨ (s.procs p).state = .init ∨ (s.procs p).state = .sleeping)
    (hoff : ∀ c, off ≠ some c → (s.cur c = some p ↔ off' = some c))
    (hoff' : ∀ c, off' ≠ some c → off ≠ some c) {t : RbTree Nat} (hb : t.Balanced)
    (ht : t.inorder = s.waiting.inorder.erase p) : Inv { s with waiting := t } off' freed (some p) := by
  have hns : ∀ {q}, (s.procs q).state = .ready ∨ (s.procs q).state = .killed → some p ≠ some q := by
    rintro q hq ⟨⟩
    rcases hst with h1 | h1 | h1 <;> rw [h1] at hq <;> simp at hq
  have hnp : ∀ {c q}, off' ≠ some c → s.cur c = some q → some p ≠ some q := by
    rintro c q hc hq ⟨⟩
    exact hc ((hoff c (hoff' c hc)).1 hq)
  exact { h with
    balanced := hb
    sorted := by
      rw [ht]
      exact h.sorted.sublist erase_sublist
    waitingNodup := by
      rw [ht]
      exact h.waitingNodup.erase p
    waitingIff := fun q => by
      rw [ht, h.waitingNodup.mem_erase_iff, h.waitingIff q]
      simp [eq_comm, and_comm]
    readyIff := fun q => (h.readyIff q).trans
      ⟨fun ⟨h1, _, h3⟩ => ⟨h1, hns (.inl h1), h3⟩, fun ⟨h1, _, h3⟩ => ⟨h1, by simp, h3⟩⟩
    killedIff := fun q => (h.killedIff q).trans
      ⟨fun ⟨h1, _, h3⟩ => ⟨h1, hns (.inr h1), h3⟩, fun ⟨h1, _, h3⟩ => ⟨h1, by simp, h3⟩⟩
    running := fun c q hc hq => ⟨(h.running c q (hoff' c hc) hq).1, hnp hc hq⟩
    onCpu := fun q hq hh hi => by
      obtain ⟨c, hc, hcq⟩ := h.onCpu q hq (by simp) hi
      refine ⟨c, fun he => hh ?_, hcq⟩
      rw [← hcq]
      exact ((hoff c hc).2 he).symm
    once := fun c c' q hc hc' => h.once c c' q (hoff' c hc) (hoff' c' hc')
    idle := fun c q hq => ⟨(h.idle c q hq).1, by
      rintro ⟨⟩
      exact hp ⟨c, hq⟩, (h.idle c q hq).2.2⟩
    freedKilled := fun q hq => ⟨(h.freedKilled q hq).1, hns (.inr (h.freedKilled q hq).1)⟩
    heldPid := by
      rintro q ⟨⟩
      refine h.pid p hp fun hu => ?_
      rcases hst with h1 | h1 | h1 <;> rw [h1] at hu <;> cases hu }

/-- Take a process in hand that is in none of the lists. -/
lemma hold (h : Inv s off freed none) (off' : Option Nat) (hp : ¬ s.IsIdle p)
    (hst : (s.procs p).state = .running ∨ (s.procs p).state = .init)
    (hoff : ∀ c, off ≠ some c → (s.cur c = some p ↔ off' = some c))
    (hoff' : ∀ c, off' ≠ some c → off ≠ some c) : Inv s off' freed (some p) := by
  have hnw : p ∉ s.waiting.inorder := fun hm => by
    rw [((h.waitingIff p).1 hm).1] at hst
    simp at hst
  exact h.take off' hp (hst.imp_right .inl) hoff hoff' h.balanced (erase_of_not_mem hnw).symm

/-- The process of a CPU that is about to switch. -/
lemma hold_running (h : Inv s none freed none) (hc : s.cur c = some p) (hp : ¬ s.IsIdle p) :
    Inv s (some c) freed (some p) := by
  refine h.hold (some c) hp (.inl (h.running c p (by simp) hc).1) (fun d _ => ?_) (fun d _ => by simp)
  constructor
  · intro hd
    rw [h.once d c p (by simp) (by simp) hd hc]
  rintro ⟨⟩
  exact hc

/-- A sleeping process is taken out of the tree. -/
lemma hold_sleeping (h : Inv s off freed none) (hp : (s.procs p).state = .sleeping) :
    ∃ t, s.removeWaiting p = some { s with waiting := t } ∧ t.inorder = s.waiting.inorder.erase p ∧
      Inv { s with waiting := t } off freed (some p) := by
  have hmem : p ∈ s.waiting.inorder := (h.waitingIff p).2 ⟨hp, by simp⟩
  obtain ⟨t, he, ho, hb⟩ := RbTree.removeNode_spec h.balanced h.waitingNodup hmem
  have hidle : ¬ s.IsIdle p := by
    rintro ⟨c, hc⟩
    rcases (h.idle c p hc).2.2 with h1 | h1 <;> rw [hp] at h1 <;> cases h1
  refine ⟨t, by simp [removeWaiting, he], ho, ?_⟩
  refine h.take off hidle (.inr (.inr hp)) (fun c hc => iff_of_false (fun hcp => ?_) hc) (fun _ => id) hb ho
  rw [(h.running c p hc hcp).1] at hp
  cases hp

/-- The process in hand is put where its state says. -/
lemma place (h : Inv s off freed (some p)) {t : RbTree Nat} {ready killed : List Nat}
    (hrun : (s.procs p).state ≠ .running) (hb : t.Balanced)
    (hs : t.inorder.Pairwise fun x y => (s.procs x).waitId ≤ (s.procs y).waitId)
    (hnt : t.inorder.Nodup) (hnr : ready.Nodup) (hnk : killed.Nodup)
    (ht : ∀ q, q ∈ t.inorder ↔ q ∈ s.waiting.inorder ∨ q = p ∧ (s.procs p).state = .sleeping)
    (hr : ∀ q, q ∈ ready ↔ q ∈ s.ready ∨ q = p ∧ (s.procs p).state = .ready)
    (hk : ∀ q, q ∈ killed ↔ q ∈ s.killed ∨ q = p ∧ (s.procs p).state = .killed) :
    Inv { s with waiting := t, ready := ready, killed := killed } off freed none := by
  have hiff : ∀ (x : PState) q (P : Prop), (q = p → P) →
      ((s.procs q).state = x ∧ some p ≠ some q ∧ P ∨ q = p ∧ (s.procs p).state = x ↔
        (s.procs q).state = x ∧ none ≠ some q ∧ P) := by
    intro x q P hP
    constructor
    · rintro (⟨h1, -, h3⟩ | ⟨rfl, h1⟩)
      · exact ⟨h1, by simp, h3⟩
      · exact ⟨h1, by simp, hP rfl⟩
    rintro ⟨h1, -, h3⟩
    by_cases hq : q = p
    · exact .inr ⟨hq, hq ▸ h1⟩
    · exact .inl ⟨h1, fun he => hq (Option.some.inj he).symm, h3⟩
  exact { h with
    balanced := hb
    sorted := hs
    waitingNodup := hnt
    readyNodup := hnr
    killedNodup := hnk
    waitingIff := fun q => by
      have := hiff .sleeping q True (fun _ => trivial)
      simp only [and_true] at this
      rw [← this, ← h.waitingIff q]
      exact ht q
    readyIff := fun q => (hr q).trans ((or_congr_left (h.readyIff q)).trans
      (hiff .ready q (¬ s.IsIdle q) (by rintro rfl; exact h.held_not_idle)))
    killedIff := fun q => (hk q).trans ((or_congr_left (h.killedIff q)).trans
      (hiff .killed q (q ∉ freed) (by rintro rfl hm; exact (h.freedKilled q hm).2 rfl)))
    running := fun c q hc hq => ⟨(h.running c q hc hq).1, by simp⟩
    onCpu := fun q hq _ => h.onCpu q hq (by rintro ⟨⟩; exact hrun hq)
    idle := fun c q hq => ⟨(h.idle c q hq).1, by simp, (h.idle c q hq).2.2⟩
    freedKilled := fun q hq => ⟨(h.freedKilled q hq).1, by simp⟩
    heldPid := by simp }

/-- A process that is not in the list goes to its end. -/
lemma nodup_snoc {l : List Nat} (hl : l.Nodup) (hp : p ∉ l) : (l ++ [p]).Nodup :=
  nodup_append.2 ⟨hl, nodup_singleton p, fun a ha b hb => by
    rw [mem_singleton.1 hb]
    exact ne_of_mem_of_not_mem ha hp⟩

/-- The process in hand goes to the end of the ready list. -/
lemma place_ready (h : Inv s off freed (some p)) :
    ∃ s', s.makeReady p = some s' ∧ s' = { s.setState p .ready with ready := s.ready ++ [p] } ∧
      Inv s' off freed none := by
  have hnr : p ∉ s.ready := fun hm => ((h.readyIff p).1 hm).2.1 rfl
  have hnk : p ∉ s.killed := fun hm => ((h.killedIff p).1 hm).2.1 rfl
  have h' : Inv (s.setState p .ready) off freed (some p) := h.setHeld _ (h.heldPid p rfl)
  have hst : ((s.setState p .ready).procs p).state = .ready := by simp [setState]
  refine ⟨_, if_neg (by rintro (h1 | h1) <;> contradiction), rfl, ?_⟩
  refine h'.place (by simp [hst]) h'.balanced h'.sorted h'.waitingNodup (nodup_snoc h.readyNodup hnr)
    h'.killedNodup (fun q => ?_) (fun q => ?_) (fun q => ?_)
  · simp [hst]
  · simp [setState]
  · simp [hst]

/-- The process in hand goes to the end of the killed list. -/
lemma place_killed (h : Inv s off freed (some p)) : ∃ s', (s.setState p .killed).insertKilled p = some s' ∧
      s' = { s.setState p .killed with killed := s.killed ++ [p] } ∧ Inv s' off freed none := by
  have hnr : p ∉ s.ready := fun hm => ((h.readyIff p).1 hm).2.1 rfl
  have hnk : p ∉ s.killed := fun hm => ((h.killedIff p).1 hm).2.1 rfl
  have h' : Inv (s.setState p .killed) off freed (some p) := h.setHeld _ (h.heldPid p rfl)
  have hst : ((s.setState p .killed).procs p).state = .killed := by simp [setState]
  refine ⟨_, if_neg (by rintro (h1 | h1) <;> contradiction), rfl, ?_⟩
  refine h'.place (by simp [hst]) h'.balanced h'.sorted h'.waitingNodup h'.readyNodup
    (nodup_snoc h.killedNodup hnk) (fun q => ?_) (fun q => ?_) (fun q => ?_)
  · simp [hst]
  · simp [hst]
  · simp [setState]

/-- The process in hand goes into the tree, behind the ones that sleep on the
same or a smaller id and before the others. -/
lemma place_waiting (h : Inv s off freed (some p)) (id : Int) :
    ∃ s' t xs ys, (s.setProc p { s.procs p with state := .sleeping, waitId := id }).waitingInsert p = some s' ∧
      s' = { s.setProc p { s.procs p with state := .sleeping, waitId := id } with waiting := t } ∧
      s.waiting.inorder = xs ++ ys ∧ t.inorder = xs ++ p :: ys ∧
      (∀ x ∈ xs, (s.procs x).waitId ≤ id) ∧ (∀ y ∈ ys, id < (s.procs y).waitId) ∧
      Inv s' off freed none := by
  set s₁ := s.setProc p { s.procs p with state := .sleeping, waitId := id } with hs₁
  have h' : Inv s₁ off freed (some p) := by
    rw [hs₁]
    exact h.setHeld _ (h.heldPid p rfl)
  have hst : (s₁.procs p).state = .sleeping := by simp [hs₁]
  have hid : (s₁.procs p).waitId = id := by simp [hs₁]
  have hw : s₁.waiting = s.waiting := by rw [hs₁]; rfl
  have hnw : p ∉ s₁.waiting.inorder := fun hm => ((h'.waitingIff p).1 hm).2 rfl
  rw [waitingInsert, if_neg hnw, hid]
  obtain ⟨t, xs, ys, he, hb, hin, hin', hx, hy⟩ := RbTree.insertWhere_spec
    (fun o => decide ((s₁.procs o).waitId ≤ id)) p h'.balanced
    (h'.sorted.imp fun {a b} hab hle => by
      simp only [decide_eq_true_eq] at hle ⊢
      exact Int.le_trans hab hle)
  have hkey : ∀ q ∈ s₁.waiting.inorder, (s₁.procs q).waitId = (s.procs q).waitId := by
    intro q hq
    rw [hs₁, setProc_ne _ (ne_of_mem_of_not_mem hq hnw)]
  simp only [decide_eq_true_eq, decide_eq_false_iff_not, Int.not_le] at hx hy
  refine ⟨_, t, xs, ys, by rw [he]; rfl, rfl, hw ▸ hin, hin', fun x hx' => ?_, fun y hy' => ?_, ?_⟩
  · rw [← hkey x (by simp [hin, hx'])]
    exact hx x hx'
  · rw [← hkey y (by simp [hin, hy'])]
    exact hy y hy'
  refine h'.place (by simp [hst]) hb ?_ ?_ h'.readyNodup h'.killedNodup (fun q => ?_) (fun q => ?_) (fun q => ?_)
  · have hs := h'.sorted
    rw [hin] at hs
    rw [hin']
    obtain ⟨h1, h2, h3⟩ := pairwise_append.1 hs
    refine pairwise_append.2 ⟨h1, pairwise_cons.2 ⟨fun y hy' => ?_, h2⟩, fun x hx' y hy' => ?_⟩
    · exact hid ▸ Int.le_of_lt (hy y hy')
    rcases mem_cons.1 hy' with rfl | hy'
    · exact hid ▸ hx x hx'
    · exact h3 x hx' y hy'
  · have hn := h'.waitingNodup
    rw [hin] at hn hnw
    rw [hin']
    exact nodup_middle.2 (nodup_cons.2 ⟨hnw, hn⟩)
  · rw [hin', hin]
    simp only [mem_append, mem_cons, hst, and_true]
    tauto
  · simp [hst]
  · simp [hst]

/-- A process that goes between ready and running changes nothing for the other states. -/
lemma setState_keeps {x : PState} (hp : (s.procs p).state = .ready ∨ (s.procs p).state = .running)
    (hx : x = .ready ∨ x = .running) (q : Nat) :
    (((s.setState p x).procs q).waitId = (s.procs q).waitId ∧ ((s.setState p x).procs q).pid = (s.procs q).pid) ∧
      ∀ {y : PState}, y ≠ .ready → y ≠ .running → (((s.setState p x).procs q).state = y ↔ (s.procs q).state = y) := by
  by_cases hq : q = p
  · subst hq
    rw [setState, setProc_same]
    refine ⟨⟨rfl, rfl⟩, fun h1 h2 => ?_⟩
    rcases hp with hp | hp <;> rcases hx with rfl | rfl <;> simp [hp, h1.symm, h2.symm]
  · rw [setState, setProc_ne _ hq]
    exact ⟨⟨rfl, rfl⟩, fun _ _ => Iff.rfl⟩

/-- A CPU that gave up its process gets one from the ready list or its idle one. -/
lemma dispatch (h : Inv s (some c) freed none) (next : Nat) (ready : List Nat)
    (hnext : (s.procs next).state = .ready ∧ ¬ s.IsIdle next ∧ next ∉ ready ∨ s.idle c = some next)
    (hnr : ready.Nodup) (hr : ∀ q, q ∈ ready ↔ q ∈ s.ready ∧ q ≠ next) (hc : (s.idle c).isSome) :
    Inv { s.setState next .running with ready := ready, cur := update s.cur c (some next) } none freed none := by
  have hst : (s.procs next).state = .ready ∨ (s.procs next).state = .running := by
    rcases hnext with hn | hn
    · exact .inl hn.1
    · exact (h.idle c next hn).2.2.symm
  have hself : (s.setState next .running).procs next = { s.procs next with state := .running } := setProc_same _
  have hne : ∀ {q}, q ≠ next → (s.setState next .running).procs q = s.procs q := fun hq => setProc_ne _ hq
  have hkeep := fun q => setState_keeps hst (.inr rfl) q
  have hoff : ∀ {d}, d ≠ c → some c ≠ some d := fun hd he => hd (Option.some.inj he).symm
  have hother : ∀ d, d ≠ c → s.cur d ≠ some next := by
    intro d hd he
    rcases hnext with hn | hn
    · rw [(h.running d next (hoff hd) he).1] at hn
      cases hn.1
    · exact hd (h.idleOwn c d next hn he)
  exact { h with
    sorted := by
      simp only [(hkeep _).1.1]
      exact h.sorted
    readyNodup := hnr
    waitingIff := fun q => by
      rw [(hkeep q).2 (by simp) (by simp)]
      exact h.waitingIff q
    readyIff := fun q => by
      rw [hr q, h.readyIff q]
      by_cases hq : q = next
      · rw [hq, hself]
        simp
      · simp [hq, IsIdle, setState, setProc]
    killedIff := fun q => by
      rw [(hkeep q).2 (by simp) (by simp)]
      exact h.killedIff q
    running := fun d q _ hd => by
      refine ⟨?_, by simp⟩
      rcases update_eq_some.1 hd with ⟨-, rfl⟩ | ⟨hdc, hdq⟩
      · rw [hself]
      rw [hne fun he => hother d hdc (he ▸ hdq)]
      exact (h.running d q (hoff hdc) hdq).1
    onCpu := fun q hq _ hi => by
      by_cases he : q = next
      · exact ⟨c, by simp, by rw [he]; exact update_self ..⟩
      rw [hne he] at hq
      obtain ⟨d, hd, hdq⟩ := h.onCpu q hq (by simp) hi
      have hdc : d ≠ c := by
        rintro rfl
        exact hd rfl
      exact ⟨d, by simp, (update_of_ne hdc ..).trans hdq⟩
    once := fun d d' q _ _ hd hd' =>
      update_inj hother hother (fun e e' r h1 h2 => h.once e e' r (hoff h1) (hoff h2)) hd hd'
    idle := fun d q hq => by
      refine ⟨(hkeep q).1.2.trans (h.idle d q hq).1, by simp, ?_⟩
      by_cases he : q = next
      · rw [he, hself]
        exact .inl rfl
      rw [hne he]
      exact (h.idle d q hq).2.2
    idleOwn := fun d d' q hq hd => by
      rcases update_eq_some.1 hd with ⟨rfl, rfl⟩ | ⟨-, hd⟩
      · rcases hnext with hn | hn
        · exact absurd ⟨d, hq⟩ hn.2.1
        · exact h.idleInj d' d q hn hq
      · exact h.idleOwn d d' q hq hd
    started := fun d => by
      show (update s.cur c (some next) d).isSome = (s.idle d).isSome
      by_cases hd : d = c
      · subst hd
        rw [update_self, hc]
        rfl
      · rw [update_of_ne hd]
        exact h.started d
    pid := fun q hi hu => by
      rw [(hkeep q).1.2]
      exact h.pid q hi fun he => hu (((hkeep q).2 (by simp) (by simp)).2 he)
    freedKilled := fun q hq => ⟨((hkeep q).2 (by simp) (by simp)).2 (h.freedKilled q hq).1, by simp⟩
    heldPid := by simp }

lemma schedule (h : Inv s (some c) freed none) (hc : (s.idle c).isSome) :
    ∃ s' next, s.schedule c = some s' ∧ Inv s' none freed none ∧
      s'.procs = update s.procs next { s.procs next with state := .running } ∧
      s'.waiting = s.waiting ∧ s'.pollWakeSeq = s.pollWakeSeq ∧ s'.idle = s.idle ∧
      ((s.procs next).state = .ready ∨ (s.procs next).state = .running) := by
  unfold Sched.schedule
  cases hr : s.ready with
  | nil =>
    obtain ⟨next, hn⟩ := Option.isSome_iff_exists.1 hc
    have hdis := h.dispatch next [] (.inr hn) (by simp) (by simp [hr]) hc
    refine ⟨{ s.setState next .running with cur := update s.cur c (some next) }, next,
      by simp [hn], ?_, rfl, rfl, rfl, rfl, (h.idle c next hn).2.2.symm⟩
    have hr' : (s.setState next .running).ready = [] := hr
    rw [← hr'] at hdis
    exact hdis
  | cons next rest =>
    have hmem := (h.readyIff next).1 (by simp [hr])
    have hnd := h.readyNodup
    rw [hr, nodup_cons] at hnd
    refine ⟨_, next, rfl, ?_, rfl, rfl, rfl, rfl, .inl hmem.1⟩
    refine h.dispatch next rest (.inl ⟨hmem.1, hmem.2.2, hnd.1⟩) hnd.2 (fun q => ?_) hc
    rw [hr, mem_cons]
    constructor
    · exact fun hq => ⟨.inr hq, ne_of_mem_of_not_mem hq hnd.1⟩
    · exact fun hq => hq.1.resolve_left hq.2

end Inv

end Sched

end Hermes.L5
