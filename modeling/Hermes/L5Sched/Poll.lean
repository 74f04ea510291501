import Hermes.L5Sched.SchedLife

/-!
# Waiting for files to become ready

`poll_wait` of `drivers/syscalls/sys_poll.c`, with the scans of `poll`, `select` and
`epoll_wait`, against `process_wakeup_poll`. A poller reads the number of
notifications, scans its files, and goes to sleep unless the number has changed; a
notifier makes a file ready, adds one to the number and wakes those sleepers whose
`poll_interest` its own interest meets.

A notification is identified by how many there were before it. What the sleep of
`process_sleep_poll` has of a timeout is in `TimedSleep`: here the recheck timer is one
of the steps of the rest of the system, and nothing is proved from it.
-/
namespace Hermes.L5

open Function List Option

/-- The files that `epoll_collect_locked` tells apart. -/
inductive File
  | socket (so : UInt64)
  | epoll
  /-- pipes, eventfds, terminals, inotify and process descriptors -/
  | other
deriving DecidableEq, Repr

/-- `sock_poll_bit` -/
def sockPollBit (so : UInt64) : UInt64 := (1 : UInt64) <<< (((so >>> 6) * 0x9E3779B97F4A7C15) >>> 58)

/-- `socket_file_poll_bit` -/
def socketFilePollBit : File → UInt64
  | .socket so => sockPollBit so
  | .epoll | .other => 0

/-- What a notifier has done before it calls `process_wakeup_poll`. -/
inductive Event
  | ready (f : File)
  /-- `epoll_ctl` has changed a set -/
  | ctl
deriving DecidableEq, Repr

/-- The argument of `process_wakeup_poll`: the bit of the socket in `sock_wakeup`, everything
elsewhere. -/
def Event.interest : Event → UInt64
  | .ready (.socket so) => sockPollBit so
  | .ready .epoll | .ready .other | .ctl => ~~~0

/-- `EPOLLET` -/
abbrev epollET : UInt32 := 0x80000000

/-- An entry of an epoll set as a scan finds it. What the scan changes in it is left to
the next scan, whose entries are any. -/
structure Entry where
  file : File
  /-- `fd_pin(e->fd) == e->file` -/
  live : Bool
  disabled : Bool
  events : UInt32
  reported : UInt32
  /-- what `entry_ready` returns -/
  ready : UInt32
deriving DecidableEq, Repr

def Entry.report (e : Entry) : UInt32 :=
  if e.events &&& epollET ≠ 0 then (if e.ready &&& ~~~e.reported ≠ 0 then e.ready else 0) else e.ready

/-- The scan gets as far as the file of this entry. -/
def Entry.watched (e : Entry) : Bool := e.live && !e.disabled

/-- What an entry adds to the interest of its poller. -/
def Entry.interest (e : Entry) : UInt64 := if e.file = .epoll then ~~~0 else socketFilePollBit e.file

/-- The loop of `epoll_collect_locked`: how many entries are reported, and the interest. -/
def epollCollect (max : Nat) : List Entry → Nat → UInt64 → Nat × UInt64
  | [], count, i => (count, i)
  | e :: es, count, i =>
    if count < max then
      if e.watched then
        epollCollect max es (if e.report = 0 then count else count + 1) (i ||| e.interest)
      else epollCollect max es count i
    else (count, i)

inductive Scan
  /-- `scan_pollfds` and the like, which leave `poll_interest` alone -/
  | files (count : Nat)
  /-- `epoll_scan`, with room for `max + 1` events -/
  | epoll (max : Nat) (entries : List Entry)
deriving DecidableEq, Repr

def Scan.count : Scan → Nat
  | .files n => n
  | .epoll max es => (epollCollect (max + 1) es 0 0).1

def Scan.interest : Scan → UInt64
  | .files _ => ~~~0
  | .epoll max es => (epollCollect (max + 1) es 0 0).2

/-- An event that may change what the scan finds: a file of an epoll set is ready, or a socket in a
set that is an entry of it. -/
def Scan.Watches : Scan → Event → Prop
  | .files _, _ => True
  | .epoll _ es, .ready (.socket so) =>
    ∃ e ∈ es, e.watched = true ∧ (e.file = .socket so ∨ e.file = .epoll)
  | .epoll _ _, _ => True

/-- Where a turn of the loop of `poll_wait` is. -/
inductive PollStage
  /-- `poll_wake_seq` is read -/
  | read
  /-- `poll_interest` is set to everything -/
  | reset
  /-- the scan found nothing -/
  | scanned (sc : Scan)
  /-- after the locked section of `sleep_interruptible`: asleep, or awake again -/
  | slept (sc : Scan)
deriving DecidableEq, Repr

structure Poller where
  seq : UInt64
  /-- how many notifications there had been when it read `seq` -/
  since : Nat
  stage : PollStage
deriving DecidableEq, Repr

structure PSys where
  sys : Sys
  poller : Nat → Option Poller
  /-- the notifications -/
  log : List Event
  /-- those whose call is still before its locked section -/
  pending : List Nat

inductive PLabel
  /-- anything else in the system -/
  | sys (l : Label)
  | readSeq (c : Nat)
  | reset (c : Nat)
  | scan (c : Nat) (sc : Scan)
  | lock (c : Nat)
  /-- the turn ends: `poll_wait` returns or begins the next one -/
  | turn (c : Nat)
  /-- the first statement of `process_wakeup_poll` -/
  | bump (e : Event)
  /-- its locked section -/
  | deliver (m : Nat)
deriving DecidableEq, Repr

namespace PSys

variable (s : PSys)

def init : PSys := ⟨Sys.boot, fun _ => none, [], []⟩

/-- The process on a CPU and where its poll is. -/
def pollerOf (c : Nat) : Option (Nat × Poller) := do
  let p ← s.sys.cur c
  let po ← s.poller p
  some (p, po)

/-- A poller does nothing else, nothing else writes `poll_interest`, and the notifications are
those of the log. -/
def allowed (l : Label) : Bool := (match l.actor with
    | some c => (s.pollerOf c).isNone
    | none => true) &&
  (match l with
    | .assign p f => f.pollInterest == (s.sys.procs p).flags.pollInterest
    | .bumpSeq | .wakeupPoll _ => false
    | _ => true)

def setPoller (p : Nat) (x : Option Poller) : PSys := { s with poller := update s.poller p x }

/-- A step of the scheduler. -/
def does (l : Label) : Option PSys :=
  if s.sys.enabled l then (s.sys.exec l).map fun t => { s with sys := t } else none

/-- A step of the process on CPU `c`, from one stage of its poll to the next. -/
def advance (c : Nat) (f : Nat → Poller → Option PSys) : Option PSys :=
  match s.pollerOf c with
  | some (p, po) => f p po
  | none => none

/-- `current->poll_interest = i` -/
def setInterest (p : Nat) (i : UInt64) : Option PSys :=
  s.does (.assign p { (s.sys.procs p).flags with pollInterest := i })

/-- `epoll_scan` writes `poll_interest`, the other scans do not. -/
def noteInterest (p : Nat) : Scan → Option PSys
  | .files _ => some s
  | .epoll max es => s.setInterest p (Scan.interest (.epoll max es))

def exec : PLabel → Option PSys
  | .sys l => if s.allowed l then s.does l else none
  | .readSeq c => do
    let p ← s.sys.caller c
    if s.poller p = none then some (s.setPoller p (some ⟨s.sys.pollWakeSeq, s.log.length, .read⟩)) else none
  | .reset c => s.advance c fun p po =>
    if po.stage = .read then do
      let t ← s.setInterest p (~~~0)
      some (t.setPoller p (some { po with stage := .reset }))
    else none
  | .scan c sc => s.advance c fun p po =>
    if po.stage = .reset then do
      let t ← s.noteInterest p sc
      some (t.setPoller p (if sc.count = 0 then some { po with stage := .scanned sc } else none))
    else none
  | .lock c => s.advance c fun p po =>
    match po.stage with
    | .scanned sc => do
      let t ← s.does (.sleepInterruptible c waitChannelPoll (some po.seq))
      some (t.setPoller p (some { po with stage := .slept sc }))
    | _ => none
  | .turn c => s.advance c fun p po =>
    match po.stage with
    | .scanned _ | .slept _ => some (s.setPoller p none)
    | _ => none
  | .bump e => do
    let t ← s.does .bumpSeq
    some { t with log := s.log ++ [e], pending := s.pending ++ [s.log.length] }
  | .deliver m =>
    if m ∈ s.pending then do
      let e ← s.log[m]?
      let t ← s.does (.wakeupPoll e.interest)
      some { t with pending := s.pending.erase m }
    else none

def system : LTS PSys PLabel := LTS.ofOption (fun s => s = init) exec

/-- A scan that found nothing has an interest: an epoll set that is slept on has an entry, not
disabled, that is a socket or an epoll set. There have been fewer than `2 ^ 64` notifications, and the
other steps meet the condition of the scheduler. -/
def undisturbed : PLabel → Bool
  | .sys l => s.sys.undisturbed l
  | .scan _ sc => sc.count != 0 || sc.interest != 0
  | .bump _ => s.log.length + 1 < 2 ^ 64
  | _ => true

end PSys

/-! ## The interest of a scan -/

variable {es : List Entry} {i : UInt64}

/-- A scan that reports nothing has been through all entries. -/
lemma epollCollect_zero {max : Nat} (h : (epollCollect (max + 1) es 0 i).1 = 0) :
    (epollCollect (max + 1) es 0 i).2 = es.foldl (fun i e => if e.watched then i ||| e.interest else i) i := by
  have hgrow : ∀ (es : List Entry) (n : Nat) (i : UInt64), n ≤ (epollCollect (max + 1) es n i).1 := by
    intro es
    induction es with
    | nil => exact fun n i => le_rfl
    | cons e es ih =>
      intro n i
      rw [epollCollect]
      split
      · split
        · refine le_trans ?_ (ih _ _)
          split <;> omega
        · exact ih n i
      · exact le_rfl
  induction es generalizing i with
  | nil => rfl
  | cons e es ih =>
    rw [epollCollect, if_pos (Nat.succ_pos max)] at h ⊢
    rw [foldl_cons]
    by_cases hw : e.watched = true
    · rw [if_pos hw] at h ⊢
      by_cases hr : e.report = 0
      · rw [if_pos hr] at h ⊢
        rw [if_pos hw]
        exact ih h
      rw [if_neg hr] at h
      have := hgrow es (0 + 1) (i ||| e.interest)
      omega
    · rw [if_neg hw] at h ⊢
      rw [if_neg hw]
      exact ih h

lemma foldl_interest_and {x : UInt64} (h : i &&& x ≠ 0 ∨ ∃ e ∈ es, e.watched = true ∧ e.interest &&& x ≠ 0) :
    es.foldl (fun i e => if e.watched then i ||| e.interest else i) i &&& x ≠ 0 := by
  have hor : ∀ a b : UInt64, (a ||| b) &&& x = 0 → a &&& x = 0 ∧ b &&& x = 0 := by
    intro a b hab
    rw [← UInt64.toBitVec_inj] at hab ⊢
    rw [← UInt64.toBitVec_inj]
    simp only [UInt64.toBitVec_and, UInt64.toBitVec_or, UInt64.toBitVec_zero] at hab ⊢
    constructor <;> ext j hj <;> grind
  induction es generalizing i with
  | nil =>
    rcases h with h | ⟨e, he, -⟩
    · exact h
    · cases he
  | cons e es ih =>
    rw [foldl_cons]
    refine ih ?_
    rcases h with h | ⟨f, hf, hw, hx⟩
    · left
      split
      · exact fun h0 => h (hor _ _ h0).1
      · exact h
    rcases mem_cons.1 hf with rfl | hf
    · left
      rw [if_pos hw]
      exact fun h0 => hx (hor _ _ h0).2
    · exact .inr ⟨f, hf, hw, hx⟩

lemma sockPollBit_ne_zero (so : UInt64) : sockPollBit so ≠ 0 := by
  intro h
  have h := congrArg UInt64.toNat h
  unfold sockPollBit at h
  rw [UInt64.toNat_shiftLeft, Nat.shiftLeft_eq, UInt64.toNat_one, one_mul] at h
  have hlt := Nat.mod_lt (((so >>> 6) * 0x9E3779B97F4A7C15) >>> 58).toNat (show 0 < 64 by decide)
  rw [Nat.mod_eq_of_lt (Nat.pow_lt_pow_right (by decide) hlt)] at h
  exact absurd h (ne_of_gt (Nat.two_pow_pos _))

variable {sc : Scan} {e : Event}

/-- A scan with an interest has one in every event it watches. -/
lemma Scan.interest_meets (h0 : sc.count = 0) (hi : sc.interest ≠ 0) (hw : sc.Watches e) :
    sc.interest &&& e.interest ≠ 0 := by
  have hall : ∀ x : UInt64, x &&& ~~~0 = x := fun x => by simp
  have hone : ∀ x : UInt64, ~~~0 &&& x = x := fun x => by simp
  cases sc with
  | files n =>
    show ~~~0 &&& e.interest ≠ 0
    rw [hone]
    cases e with
    | ctl => decide
    | ready f =>
      cases f with
      | socket so => exact sockPollBit_ne_zero so
      | epoll | other => decide
  | epoll max es =>
    have hfold : Scan.interest (.epoll max es) =
        es.foldl (fun i e => if e.watched then i ||| e.interest else i) 0 := epollCollect_zero h0
    cases e with
    | ctl =>
      show _ &&& ~~~0 ≠ 0
      rwa [hall]
    | ready f =>
      cases f with
      | socket so =>
        obtain ⟨e, he, hew, hf⟩ := hw
        rw [hfold]
        refine foldl_interest_and (.inr ⟨e, he, hew, ?_⟩)
        show e.interest &&& sockPollBit so ≠ 0
        unfold Entry.interest
        rcases hf with hf | hf
        · rw [hf]
          simpa [socketFilePollBit] using sockPollBit_ne_zero so
        rw [if_pos hf, hone]
        exact sockPollBit_ne_zero so
      | epoll | other =>
        show _ &&& ~~~0 ≠ 0
        rwa [hall]

namespace PSys

/-! ## The invariant -/

structure Inv (s : PSys) : Prop where
  good : s.sys.Good
  seq : s.sys.pollWakeSeq = UInt64.ofNat s.log.length
  bound : s.log.length < 2 ^ 64
  pendingNodup : s.pending.Nodup
  pendingLt : ∀ m ∈ s.pending, m < s.log.length
  read : ∀ p po, s.poller p = some po →
    po.seq = UInt64.ofNat po.since ∧ po.since ≤ s.log.length ∧ Sched.Alive (s.sys.procs p)
  reset : ∀ p po, s.poller p = some po → po.stage = .reset → (s.sys.procs p).flags.pollInterest = ~~~0
  mask : ∀ p po sc, s.poller p = some po → po.stage = .scanned sc ∨ po.stage = .slept sc →
    (s.sys.procs p).flags.pollInterest = sc.interest ∧ sc.count = 0 ∧ sc.interest ≠ 0
  /-- a notification since it read the sequence number has not yet come to wake a sleeper, or has passed
  it by -/
  asleep : ∀ p po sc, s.poller p = some po → po.stage = .slept sc → (s.sys.procs p).state = .sleeping →
    (s.sys.procs p).waitId = waitChannelPoll ∧
    ∀ m e, po.since ≤ m → s.log[m]? = some e → m ∈ s.pending ∨ sc.interest &&& e.interest = 0

variable {s t : PSys} {sys' : Sys} {l : Label} {p q c : Nat} {po : Poller}

lemma pollerOf_eq_some : s.pollerOf c = some (p, po) ↔ s.sys.cur c = some p ∧ s.poller p = some po := by
  simp [pollerOf, bind_eq_some_iff]

lemma advance_eq_some {f : Nat → Poller → Option PSys} (h : s.advance c f = some t) :
    ∃ p po, s.sys.cur c = some p ∧ s.poller p = some po ∧ f p po = some t := by
  unfold advance at h
  split at h
  · rename_i p po hc
    exact ⟨p, po, (pollerOf_eq_some.1 hc).1, (pollerOf_eq_some.1 hc).2, h⟩
  · cases h

lemma does_enabled (h : s.does l = some t) : s.sys.enabled l = true := by
  unfold does at h
  split at h
  · assumption
  · cases h

lemma does_spec (hg : s.sys.Good) (hok : s.sys.undisturbed l = true) (h : s.does l = some t) :
    ∃ sys', s.sys.exec l = some sys' ∧ t = { s with sys := sys' } ∧ s.sys.Stepped sys' l := by
  have he := does_enabled h
  obtain ⟨sys', hx, hst⟩ := hg.step he hok
  rw [does, if_pos he, hx] at h
  cases h
  exact ⟨sys', hx, rfl, hst⟩

/-- A step of the scheduler that is no notification, does not let a poller exit, keeps the interest of
the pollers and puts none of them to sleep. -/
lemma Inv.sched (h : Inv s) (hs : s.sys.Stepped sys' l) (hl : l ≠ .bumpSeq)
    (hex : ∀ q po c, s.poller q = some po → s.sys.cur c = some q → l ≠ .exit c)
    (has : ∀ q po f, s.poller q = some po → l = .assign q f → f.pollInterest = (s.sys.procs q).flags.pollInterest)
    (hsl : ∀ q po sc, s.poller q = some po → po.stage = .slept sc → (sys'.procs q).state = .sleeping →
      (s.sys.procs q).state = .sleeping) : Inv { s with sys := sys' } := by
  have hfl : ∀ q po, s.poller q = some po → (sys'.procs q).flags.pollInterest = (s.sys.procs q).flags.pollInterest := by
    intro q po hq
    rcases hs.flags q with h1 | ⟨-, h1⟩ | ⟨f, h1, h2⟩
    · rw [h1]
    · exact absurd (h.read q po hq).2.2 h1
    · rw [h2]
      exact has q po f hq h1
  exact { h with
    good := hs.good
    seq := (hs.seq hl).trans h.seq
    read := fun q po hq => by
      obtain ⟨h1, h2, h3⟩ := h.read q po hq
      refine ⟨h1, h2, (hs.alive q h3).resolve_right ?_⟩
      rintro ⟨c, hc, hcur⟩
      exact hex q po c hq hcur hc
    reset := fun q po hq hst => (hfl q po hq).trans (h.reset q po hq hst)
    mask := fun q po sc hq hst => by
      obtain ⟨h1, h2⟩ := h.mask q po sc hq hst
      exact ⟨(hfl q po hq).trans h1, h2⟩
    asleep := fun q po sc hq hst hsp => by
      have hold := hsl q po sc hq hst hsp
      obtain ⟨h1, h2⟩ := h.asleep q po sc hq hst hold
      exact ⟨(hs.same_channel h.good hold hsp).trans h1, h2⟩ }

lemma setPoller_same (x : Option Poller) : (s.setPoller p x).poller p = x := update_self ..

lemma setPoller_ne (x : Option Poller) (h : q ≠ p) : (s.setPoller p x).poller q = s.poller q := update_of_ne h ..

/-- A poller moves on, if what its new stage says of it is so. -/
lemma Inv.setPoller (h : Inv s) (x : Option Poller) (hx : ∀ po, x = some po →
      (po.seq = UInt64.ofNat po.since ∧ po.since ≤ s.log.length ∧ Sched.Alive (s.sys.procs p)) ∧
      (po.stage = .reset → (s.sys.procs p).flags.pollInterest = ~~~0) ∧
      (∀ sc, po.stage = .scanned sc ∨ po.stage = .slept sc →
        (s.sys.procs p).flags.pollInterest = sc.interest ∧ sc.count = 0 ∧ sc.interest ≠ 0) ∧
      ∀ sc, po.stage = .slept sc → (s.sys.procs p).state = .sleeping → (s.sys.procs p).waitId = waitChannelPoll ∧
        ∀ m e, po.since ≤ m → s.log[m]? = some e → m ∈ s.pending ∨ sc.interest &&& e.interest = 0) :
    Inv (s.setPoller p x) := by
  have hcases : ∀ q po, (s.setPoller p x).poller q = some po → q = p ∧ x = some po ∨ s.poller q = some po := by
    intro q po hq
    by_cases hqp : q = p
    · rw [hqp, setPoller_same] at hq
      exact .inl ⟨hqp, hq⟩
    rw [setPoller_ne _ hqp] at hq
    exact .inr hq
  exact { h with
    read := fun q po hq => by
      rcases hcases q po hq with ⟨rfl, hq'⟩ | hq'
      · exact (hx po hq').1
      · exact h.read q po hq'
    reset := fun q po hq => by
      rcases hcases q po hq with ⟨rfl, hq'⟩ | hq'
      · exact (hx po hq').2.1
      · exact h.reset q po hq'
    mask := fun q po sc hq => by
      rcases hcases q po hq with ⟨rfl, hq'⟩ | hq'
      · exact (hx po hq').2.2.1 sc
      · exact h.mask q po sc hq'
    asleep := fun q po sc hq => by
      rcases hcases q po hq with ⟨rfl, hq'⟩ | hq'
      · exact (hx po hq').2.2.2 sc
      · exact h.asleep q po sc hq' }

/-! ## The steps -/

lemma step_sys (h : Inv s) (hok : s.sys.undisturbed l = true) (ha : s.allowed l = true)
    (hd : s.does l = some t) : Inv t := by
  obtain ⟨sys', -, rfl, hs⟩ := does_spec h.good hok hd
  unfold allowed at ha
  rw [Bool.and_eq_true] at ha
  have hact : ∀ q po c, s.poller q = some po → s.sys.cur c = some q → l.actor ≠ some c := by
    intro q po c hq hc hl
    rw [hl, isNone_iff_eq_none, pollerOf_eq_some.2 ⟨hc, hq⟩] at ha
    cases ha.1
  refine h.sched hs ?_ (fun q po c hq hc hl => ?_) (fun q po f _ hl => ?_) fun q po sc hq _ hsl => ?_
  · rintro rfl
    simp at ha
  · exact hact q po c hq hc (by rw [hl]; rfl)
  · rw [hl] at ha
    simpa using ha.2
  · rcases hs.asleep_actor h.good hsl with h1 | ⟨c, hc, hl⟩
    · exact h1
    · exact absurd hl (hact q po c hq hc)

lemma step_readSeq (h : Inv s) (hd : s.exec (.readSeq c) = some t) : Inv t := by
  obtain ⟨p, hp, hd⟩ := bind_eq_some_iff.1 hd
  obtain ⟨hcur, -⟩ := filter_eq_some_iff.1 hp
  split at hd
  · cases hd
    refine h.setPoller _ fun po hpo => ?_
    cases hpo
    refine ⟨⟨h.seq, le_rfl, .inl (h.good.inv.running c p (by simp) hcur).1⟩, by simp, by simp, by simp⟩
  · cases hd

lemma setPoller_setPoller (x y : Option Poller) : (s.setPoller p x).setPoller p y = s.setPoller p y := by
  simp [setPoller]

/-- A step of the poller itself, with nothing said of its new stage yet. -/
lemma Inv.own (h : Inv s) (hs : s.sys.Stepped sys' l) (hl : l ≠ .bumpSeq) (hex : ∀ c, l ≠ .exit c)
    (has : ∀ q f, l = .assign q f → q = p) (hsl : ∀ c, l.actor = some c → s.sys.cur c = some p) :
    Inv ({ s with sys := sys' }.setPoller p none) := by
  have hne : ∀ q po, (s.setPoller p none).poller q = some po → q ≠ p := by
    rintro q po hq rfl
    rw [setPoller_same] at hq
    cases hq
  refine (h.setPoller none (by simp)).sched hs hl (fun _ _ c _ _ => hex c) (fun q po f hq ha => ?_)
    fun q po sc hq _ hsp => ?_
  · exact absurd (has q f ha) (hne q po hq)
  rcases hs.asleep_actor h.good hsp with h1 | ⟨c, hc, h1⟩
  · exact h1
  · exact absurd (Option.some.inj (hc.symm.trans (hsl c h1))) (hne q po hq)

/-- The process itself writes its interest. -/
lemma Inv.setInterest (h : Inv s) (hp : s.poller p = some po) (hd : s.setInterest p i = some t) :
    Inv (t.setPoller p none) ∧ t.log = s.log ∧ (t.sys.procs p).flags.pollInterest = i ∧
      Sched.Alive (t.sys.procs p) := by
  obtain ⟨sys', hx, rfl, hs⟩ := does_spec h.good rfl hd
  refine ⟨h.own hs (by simp) (by simp) (fun _ f hq => ?_) (by simp [Label.actor]), rfl, ?_, ?_⟩
  · cases hq
    rfl
  · cases hx
    rw [Sched.setProc_same]
  refine (hs.alive p (h.read p po hp).2.2).resolve_right ?_
  rintro ⟨c, hc, -⟩
  cases hc

lemma step_reset (h : Inv s) (hd : s.exec (.reset c) = some t) : Inv t := by
  obtain ⟨p, po, -, hp, hd⟩ := advance_eq_some hd
  split at hd
  · obtain ⟨t₁, hd₁, hd⟩ := bind_eq_some_iff.1 hd
    cases hd
    obtain ⟨hi, hlog, hint, hal⟩ := h.setInterest hp hd₁
    rw [← setPoller_setPoller none]
    refine hi.setPoller _ fun po' hpo => ?_
    cases hpo
    obtain ⟨h1, h2, -⟩ := h.read p po hp
    exact ⟨⟨h1, hlog ▸ h2, hal⟩, fun _ => hint, by simp, by simp⟩
  · cases hd

lemma step_scan (h : Inv s) (hok : s.undisturbed (.scan c sc) = true) (hd : s.exec (.scan c sc) = some t) :
    Inv t := by
  obtain ⟨p, po, -, hp, hd⟩ := advance_eq_some hd
  split at hd
  swap
  · cases hd
  rename_i hst
  obtain ⟨t₁, hd₁, hd⟩ := bind_eq_some_iff.1 hd
  cases hd
  obtain ⟨hi, hlog, hint, hal⟩ : Inv (t₁.setPoller p none) ∧ t₁.log = s.log ∧
      (t₁.sys.procs p).flags.pollInterest = sc.interest ∧ Sched.Alive (t₁.sys.procs p) := by
    cases sc with
    | files n =>
      cases hd₁
      exact ⟨h.setPoller _ (by simp), rfl, h.reset p po hp hst, (h.read p po hp).2.2⟩
    | epoll max es => exact h.setInterest hp hd₁
  rw [← setPoller_setPoller none]
  refine hi.setPoller _ fun po' hpo => ?_
  split at hpo
  · rename_i h0
    cases hpo
    obtain ⟨h1, h2, -⟩ := h.read p po hp
    refine ⟨⟨h1, hlog ▸ h2, hal⟩, by simp, fun sc' hsc => ?_, by simp⟩
    obtain rfl : sc = sc' := by simpa using hsc
    exact ⟨hint, h0, by simpa [undisturbed, h0] using hok⟩
  · cases hpo

variable {u : Sys}

/-- The locked section of `sleep_interruptible`. -/
lemma exec_sleepInterruptible {id : Int} {seq : Option UInt64} (hg : u.Good)
    (he : u.enabled (.sleepInterruptible c id seq) = true) (hc : u.cur c = some p)
    (h : u.exec (.sleepInterruptible c id seq) = some sys') :
    u.staysAwake p seq = true ∧ sys' = u ∨
    u.staysAwake p seq = false ∧ (sys'.procs p).waitId = id := by
  obtain ⟨q, hq, hidle⟩ := hg.caller he
  rw [hc] at hq
  cases hq
  simp only [Sys.exec, Sched.sleepInterruptible, hc, bind_eq_bind, bind_some] at h
  by_cases haw : u.staysAwake p seq = true
  · rw [if_pos haw] at h
    cases h
    exact .inl ⟨haw, rfl⟩
  obtain ⟨v, hv, -, hf⟩ := hg.inv.sleepOn hc hidle id
  rw [if_neg haw, hv] at h
  cases h
  exact .inr ⟨by simpa using haw, hf.self.2.1⟩

/-- No notification since the sequence number was read, if it is still the same. -/
lemma Inv.unchanged (h : Inv s) (hp : s.poller p = some po)
    (haw : s.sys.staysAwake p (some po.seq) = false) : po.since = s.log.length := by
  obtain ⟨h1, h2, -⟩ := h.read p po hp
  unfold Sched.staysAwake at haw
  simp only [Bool.or_eq_false_iff, bne_eq_false_iff_eq] at haw
  have heq := congrArg UInt64.toNat (h1.symm.trans (haw.2.trans h.seq))
  have hb := h.bound
  rw [UInt64.toNat_ofNat_of_lt' (h2.trans_lt hb), UInt64.toNat_ofNat_of_lt' hb] at heq
  exact heq

lemma step_lock (h : Inv s) (hd : s.exec (.lock c) = some t) : Inv t := by
  obtain ⟨p, po, hc, hp, hd⟩ := advance_eq_some hd
  split at hd
  swap
  · cases hd
  rename_i sc hst
  obtain ⟨t₁, hd₁, hd⟩ := bind_eq_some_iff.1 hd
  cases hd
  have he := does_enabled hd₁
  obtain ⟨sys', hx, rfl, hs⟩ := does_spec h.good rfl hd₁
  have hi := h.own hs (by simp) (by simp) (by simp) fun d hcd => by
    cases hcd
    exact hc
  obtain ⟨h1, h2, h3⟩ := h.read p po hp
  have hal : Sched.Alive (sys'.procs p) := (hs.alive p h3).resolve_right (by simp)
  have hfl : (sys'.procs p).flags = (s.sys.procs p).flags := by
    rcases hs.flags p with hf | ⟨-, hf⟩ | ⟨f, hf, -⟩
    · exact hf
    · exact absurd h3 hf
    · cases hf
  rw [← setPoller_setPoller none]
  refine hi.setPoller _ fun po' hpo => ?_
  cases hpo
  refine ⟨⟨h1, h2, hal⟩, by simp, fun sc' hsc => ?_, fun sc' hsc hsp => ?_⟩
  · obtain rfl : sc = sc' := by simpa using hsc
    obtain ⟨hm, hm'⟩ := h.mask p po sc hp (.inl hst)
    exact ⟨(congrArg Flags.pollInterest hfl).trans hm, hm'⟩
  rcases exec_sleepInterruptible h.good he hc hx with ⟨-, rfl⟩ | ⟨haw, hw⟩
  · have hsp' : (s.sys.procs p).state = .sleeping := hsp
    rw [(h.good.inv.running c p (by simp) hc).1] at hsp'
    cases hsp'
  refine ⟨hw, fun m e hm he => ?_⟩
  have := h.unchanged hp haw
  have he' : s.log[m]? = some e := he
  have hm' : po.since ≤ m := hm
  rw [List.getElem?_eq_none (by omega)] at he'
  cases he'

lemma step_bump (h : Inv s) (hok : s.undisturbed (.bump e) = true) (hd : s.exec (.bump e) = some t) : Inv t := by
  rw [exec] at hd
  obtain ⟨t₁, hd₁, hd⟩ := bind_eq_some_iff.1 hd
  cases hd
  obtain ⟨sys', hx, rfl, hs⟩ := does_spec h.good rfl hd₁
  cases hx
  have hlen : (s.log ++ [e]).length = s.log.length + 1 := by simp
  exact { h with
    good := hs.good
    seq := by
      rw [h.seq, hlen, UInt64.ofNat_add]
      rfl
    bound := by simpa [undisturbed] using hok
    pendingNodup := nodup_append.2 ⟨h.pendingNodup, by simp, fun m hm n hn => by
      have := h.pendingLt m hm
      simp at hn
      omega⟩
    pendingLt := fun m hm => by
      rw [hlen]
      rcases mem_append.1 hm with hm | hm
      · exact Nat.lt_succ_of_lt (h.pendingLt m hm)
      simp at hm
      omega
    read := fun p po hp => by
      obtain ⟨h1, h2, h3⟩ := h.read p po hp
      refine ⟨h1, ?_, h3⟩
      show _ ≤ (s.log ++ [e]).length
      omega
    asleep := fun p po sc hp hst hsp => by
      obtain ⟨h1, h2⟩ := h.asleep p po sc hp hst hsp
      refine ⟨h1, fun m e' hm he => ?_⟩
      by_cases hml : m < s.log.length
      · have he' : s.log[m]? = some e' := by rw [← List.getElem?_append_left hml]; exact he
        exact (h2 m e' hm he').imp_left (mem_append_left _)
      left
      have : m < (s.log ++ [e]).length := (List.getElem?_eq_some_iff.1 he).1
      exact mem_append_right _ (by simp; omega) }

/-- The locked section of `process_wakeup_poll` wakes a poller whose interest it meets. -/
lemma exec_wakeupPoll (hg : u.Good) (h : u.exec (.wakeupPoll i) = some sys')
    (hq : (u.procs q).state = .sleeping) (hw : (u.procs q).waitId = waitChannelPoll)
    (hi : (u.procs q).flags.pollInterest &&& i ≠ 0) : (sys'.procs q).state = .ready := by
  obtain ⟨v, ws, hv, hwk, -, hws⟩ := hg.inv.wakeupPoll i
  simp only [Sys.exec, hv] at h
  cases h
  have hm : q ∈ ws := by
    rw [hws, mem_filter]
    refine ⟨?_, by simpa using hi⟩
    exact mem_filter.2 ⟨(hg.inv.waitingIff q).2 ⟨hq, by simp⟩, by simpa using hw⟩
  rw [hwk.procs q, if_pos hm]

lemma step_deliver {m : Nat} (h : Inv s) (hd : s.exec (.deliver m) = some t) : Inv t := by
  rw [exec] at hd
  split at hd
  swap
  · cases hd
  obtain ⟨e, he, hd⟩ := bind_eq_some_iff.1 hd
  obtain ⟨t₁, hd₁, hd⟩ := bind_eq_some_iff.1 hd
  cases hd
  obtain ⟨sys', hx, rfl, hs⟩ := does_spec h.good rfl hd₁
  have hdown : ∀ q, (sys'.procs q).state = .sleeping → (s.sys.procs q).state = .sleeping := fun q hq =>
    (hs.asleep_actor h.good hq).resolve_right nofun
  have hi := h.sched hs (by simp) (by simp) (by simp) fun q _ _ _ _ => hdown q
  exact { hi with
    pendingNodup := hi.pendingNodup.erase m
    pendingLt := fun n hn => hi.pendingLt n (mem_of_mem_erase hn)
    asleep := fun p po sc hp hst hsp => by
      obtain ⟨h1, h2⟩ := hi.asleep p po sc hp hst hsp
      refine ⟨h1, fun n e' hn he' => ?_⟩
      rcases h2 n e' hn he' with h3 | h3
      swap
      · exact .inr h3
      by_cases hnm : n = m
      swap
      · exact .inl ((mem_erase_of_ne hnm).2 h3)
      -- this is the call that would have woken it
      right
      subst hnm
      have he'' : s.log[n]? = some e' := he'
      rw [he] at he''
      cases he''
      have hold := hdown p hsp
      have hmask := (h.mask p po sc hp (.inr hst)).1
      apply Decidable.byContradiction
      intro hne
      have := exec_wakeupPoll h.good hx hold (h.asleep p po sc hp hst hold).1 (hmask ▸ hne)
      have hsp' : (sys'.procs p).state = .sleeping := hsp
      rw [this] at hsp'
      cases hsp' }

lemma Inv.step {l : PLabel} (h : Inv s) (hok : s.undisturbed l = true) (hd : s.exec l = some t) : Inv t := by
  cases l with
  | sys l =>
    rw [exec] at hd
    split at hd
    · rename_i ha
      exact step_sys h hok ha hd
    · cases hd
  | readSeq c => exact step_readSeq h hd
  | reset c => exact step_reset h hd
  | scan c sc => exact step_scan h hok hd
  | lock c => exact step_lock h hd
  | turn c =>
    obtain ⟨p, po, -, -, hd⟩ := advance_eq_some hd
    split at hd
    · cases hd
      exact h.setPoller none (by simp)
    · cases hd
      exact h.setPoller none (by simp)
    · cases hd
  | bump e => exact step_bump h hok hd
  | deliver m => exact step_deliver h hd

lemma init_inv : Inv init where
  good := Sys.boot_good
  seq := rfl
  bound := by simp [init]
  pendingNodup := by simp [init]
  pendingLt := by simp [init]
  read := by simp [init]
  reset := by simp [init]
  mask := by simp [init]
  asleep := by simp [init]

/-- The runs in which every step meets the condition. -/
abbrev undisturbedRuns : LTS PSys PLabel := system.restrict fun s l => s.undisturbed l = true

lemma reachable_inv (h : undisturbedRuns.Reachable s) : Inv s := by
  refine LTS.Inductive.reachable ⟨?_, ?_⟩ h
  · rintro s rfl
    exact init_inv
  intro s l t hs hstep
  exact hs.step hstep.1 hstep.2

/-- In every state of these runs, and for every poller: if there has been a notification since it read
the sequence number and it is not yet asleep, it does not fall asleep; and if it is asleep, every
notification since then of what it watches is by a call that has still to come to its locked
section, and that makes the poller ready. -/
theorem no_lost_poll_wakeup (h : undisturbedRuns.Reachable s) (hp : s.poller p = some po) :
    (po.since < s.log.length → ∀ c t, s.sys.cur c = some p → s.exec (.lock c) = some t →
      (t.sys.procs p).state = .running) ∧
    ∀ sc, po.stage = .slept sc → (s.sys.procs p).state = .sleeping →
      ∀ m e, po.since ≤ m → s.log[m]? = some e → sc.Watches e →
        m ∈ s.pending ∧ ∃ t, s.exec (.deliver m) = some t ∧ (t.sys.procs p).state = .ready := by
  have hi := reachable_inv h
  constructor
  · intro hn c t hc hd
    obtain ⟨q, po', hq, hp', hd⟩ := advance_eq_some hd
    rw [hc] at hq
    cases hq
    rw [hp] at hp'
    cases hp'
    split at hd
    · obtain ⟨t₁, hd₁, hd⟩ := bind_eq_some_iff.1 hd
      cases hd
      have he := does_enabled hd₁
      obtain ⟨sys', hx, rfl, -⟩ := does_spec hi.good rfl hd₁
      rcases exec_sleepInterruptible hi.good he hc hx with ⟨-, rfl⟩ | ⟨haw, -⟩
      · exact (hi.good.inv.running c p (by simp) hc).1
      have := hi.unchanged hp haw
      omega
    · cases hd
  · intro sc hst hsp m e hm he hw
    obtain ⟨hch, hpend⟩ := hi.asleep p po sc hp hst hsp
    obtain ⟨hmask, h0, hne⟩ := hi.mask p po sc hp (.inr hst)
    have hmeets := Scan.interest_meets h0 hne hw
    have hmem := (hpend m e hm he).resolve_right hmeets
    obtain ⟨sys', hx, -⟩ := hi.good.step (l := .wakeupPoll e.interest) rfl rfl
    refine ⟨hmem, { s with sys := sys', pending := s.pending.erase m }, ?_,
      exec_wakeupPoll hi.good hx hsp hch (hmask ▸ hmeets)⟩
    rw [exec, if_pos hmem, he]
    show (s.does _).bind _ = _
    rw [does, hx]
    rfl

/-- A process polls a set of one file, is not ready, and goes to sleep; then the file is ready. -/
def oneFile (f : File) : List PLabel := [.sys (.pick 0), .sys (.claim 0), .sys (.publish 0), .sys (.yield 0),
    .readSeq 0, .reset 0, .scan 0 (.epoll 7 [⟨f, true, false, 1, 0, 0⟩]), .lock 0, .bump (.ready f)]

theorem no_lost_poll_wakeup_oneSocket : ∃ s po, undisturbedRuns.Reachable s ∧ s.poller 1 = some po ∧
    (s.sys.procs 1).state = .sleeping ∧ po.since = 0 ∧
    ∃ t, s.exec (.deliver 0) = some t ∧ (t.sys.procs 1).state = .ready := by
  have h : (((oneFile (.socket 64)).foldlM (fun (s : PSys) l => if s.undisturbed l then s.exec l else none)
      init).map fun s => (s.poller 1, (s.sys.procs 1).state, s.log)) =
      some (some ⟨0, 0, .slept (.epoll 7 [⟨.socket 64, true, false, 1, 0, 0⟩])⟩, .sleeping, [.ready (.socket 64)]) := by
    decide
  obtain ⟨s, hrun, he⟩ := map_eq_some_iff.1 h
  simp only [Prod.mk.injEq] at he
  have hr : undisturbedRuns.Reachable s := ⟨_, _, rfl, LTS.run_restrict_ofOption hrun⟩
  refine ⟨s, _, hr, he.1, he.2.1, rfl, ?_⟩
  exact ((no_lost_poll_wakeup hr he.1).2 _ rfl he.2.1 0 (.ready (.socket 64)) le_rfl
    (by rw [he.2.2]; rfl) ⟨_, mem_singleton.2 rfl, rfl, .inl rfl⟩).2

/-- A process that waits for an epoll set of one pipe sleeps on after the whole call that notifies
of the pipe. -/
theorem pipe_wakeup_lost : ∃ s po, system.Reachable s ∧ s.poller 1 = some po ∧
    po.stage = .slept (.epoll 7 [⟨.other, true, false, 1, 0, 0⟩]) ∧ (s.sys.procs 1).state = .sleeping ∧
    po.since = 0 ∧ s.log = [.ready .other] ∧ s.pending = [] := by
  have h : (((oneFile .other ++ [PLabel.deliver 0]).foldlM exec init).map fun s =>
      (s.poller 1, (s.sys.procs 1).state, s.log, s.pending)) =
      some (some ⟨0, 0, .slept (.epoll 7 [⟨.other, true, false, 1, 0, 0⟩])⟩, .sleeping, [.ready .other], []) := by
    decide
  obtain ⟨s, hrun, he⟩ := map_eq_some_iff.1 h
  simp only [Prod.mk.injEq] at he
  exact ⟨s, _, ⟨_, _, rfl, LTS.run_ofOption hrun⟩, he.1, rfl, he.2.1, rfl, he.2.2.1, he.2.2.2⟩

end PSys

end Hermes.L5
