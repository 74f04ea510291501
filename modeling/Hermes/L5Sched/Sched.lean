import Hermes.Core.RbTree

/-!
# The scheduler

The process table, the ready and killed lists and the tree of sleeping
processes of `drivers/scheduler/process.c`, and the sections that run under
`sched_lock`. A process is its slot in the table. The lists and the tree are
intrusive: a process has one link for the two lists and one node for the tree, so
linking a process that is linked, or unlinking one that is not, would
corrupt them; here such an operation is `none`, as is a null pointer.

The interprocessor interrupts that wake idle CPUs (`kick_idle_cpus`) change none of
this and are left out.
-/
namespace Hermes.L5

open Function

/-- `process_state_t` -/
inductive PState
  | unused
  | init
  | ready
  | running
  | sleeping
  | killed
deriving DecidableEq, Repr

/-- The fields of a process that are written outside `sched_lock`. -/
structure Flags where
  interruptible : Bool
  timedOut : Bool
  detached : Bool
  sigPending : UInt64
  sigBlocked : UInt64
  sigWaiting : UInt64
  pollInterest : UInt64
deriving DecidableEq, Repr

/-- `process_t`, the part the scheduler reads. -/
structure Proc where
  state : PState
  pid : UInt32
  waitId : Int
  flags : Flags
deriving DecidableEq, Repr

def Flags.zero : Flags := ⟨false, false, false, 0, 0, 0, 0⟩

/-- A slot after `memset(proc, 0, sizeof(process_t))`. -/
def Proc.zero : Proc := ⟨.unused, 0, 0, Flags.zero⟩

/-- `MAXIMUM_NUMBER_OF_PROCESSES` -/
abbrev maxProcs : Nat := 128

/-- `IDLE_PROC_PID` -/
abbrev idlePid : UInt32 := 0

/-- `WAIT_CHANNEL_POLL` -/
abbrev waitChannelPoll : Int := 0x38000000

/-- `signal_wakes` -/
def Proc.signalWakes (p : Proc) : Bool := p.flags.sigPending &&& (~~~p.flags.sigBlocked ||| p.flags.sigWaiting) != 0

structure Sched where
  procs : Nat → Proc
  ready : List Nat
  waiting : RbTree Nat
  killed : List Nat
  /-- `per_cpu[i].current` -/
  cur : Nat → Option Nat
  /-- `per_cpu[i].idle` -/
  idle : Nat → Option Nat
  /-- `poll_wake_seq` -/
  pollWakeSeq : UInt64

namespace Sched

variable (s : Sched)

def setProc (p : Nat) (x : Proc) : Sched := { s with procs := update s.procs p x }

def setState (p : Nat) (x : PState) : Sched := s.setProc p { s.procs p with state := x }

/-- `dlist_insert_tail(&scheduler.ready, &proc->link)` -/
def insertReady (p : Nat) : Option Sched :=
  if p ∈ s.ready ∨ p ∈ s.killed then none else some { s with ready := s.ready ++ [p] }

/-- `dlist_insert_tail(&scheduler.killed, &proc->link)` -/
def insertKilled (p : Nat) : Option Sched :=
  if p ∈ s.ready ∨ p ∈ s.killed then none else some { s with killed := s.killed ++ [p] }

/-- `dlist_remove(&scheduler.killed, &proc->link)` -/
def removeKilled (p : Nat) : Option Sched :=
  if p ∈ s.killed then some { s with killed := s.killed.erase p } else none

/-- `waiting_insert` -/
def waitingInsert (p : Nat) : Option Sched :=
  if p ∈ s.waiting.inorder then none
  else do
    let t ← RbTree.insertWhere (fun o => decide ((s.procs o).waitId ≤ (s.procs p).waitId)) p s.waiting
    some { s with waiting := t }

/-- `rb_remove(&scheduler.waiting, &proc->wait_node)` -/
def removeWaiting (p : Nat) : Option Sched := do
  let t ← RbTree.removeNode p s.waiting
  some { s with waiting := t }

/-- The loop of `waiting_first`. -/
def waitingFirstLoop (key : Nat → Int) (id : Int) : RbTree Nat → Option Nat → Option Nat
  | .nil, found => found
  | .node _ l p r, found =>
    if key p < id then waitingFirstLoop key id r found
    else waitingFirstLoop key id l (if key p = id then some p else found)

/-- `waiting_first` -/
def waitingFirst (id : Int) : Option Nat := waitingFirstLoop (fun p => (s.procs p).waitId) id s.waiting none

/-- `schedule`, on CPU `c` -/
def schedule (c : Nat) : Option Sched :=
  match s.ready with
  | [] => do
    let next ← s.idle c
    some { s.setState next .running with cur := update s.cur c (some next) }
  | next :: rest =>
    some { s.setState next .running with ready := rest, cur := update s.cur c (some next) }

/-- `process_yield` -/
def yield (c : Nat) : Option Sched :=
  if s.ready = [] then some s
  else do
    let p ← s.cur c
    let s₁ := s.setState p .ready
    let s₂ ← if (s.procs p).pid ≠ idlePid then s₁.insertReady p else some s₁
    s₂.schedule c

/-- The part that `process_sleep` and `sleep_interruptible` share. -/
def sleepOn (c p : Nat) (id : Int) : Option Sched := do
  let s₁ := s.setProc p { s.procs p with state := .sleeping, waitId := id }
  let s₂ ← s₁.waitingInsert p
  s₂.schedule c

/-- `process_sleep` -/
def sleep (c : Nat) (id : Int) : Option Sched := do
  let p ← s.cur c
  s.sleepOn c p id

/-- The test of `sleep_interruptible`: a signal, or a poll notification since
the sequence number was read. -/
def staysAwake (p : Nat) (seq : Option UInt64) : Bool := (s.procs p).signalWakes || (match seq with
    | none => false
    | some n => n != s.pollWakeSeq)

/-- The locked section of `sleep_interruptible`. -/
def sleepInterruptible (c : Nat) (id : Int) (seq : Option UInt64) : Option Sched := do
  let p ← s.cur c
  if s.staysAwake p seq then some s else s.sleepOn c p id

/-- `proc->state = PROC_SLOT_READY` and onto the ready list -/
def makeReady (p : Nat) : Option Sched := (s.setState p .ready).insertReady p

/-- Out of the tree and onto the ready list. -/
def wakeOne (p : Nat) : Option Sched := do
  let s₁ ← s.removeWaiting p
  s₁.makeReady p

/-- The loop of `process_wakeup_n`. The fuel bounds the turns, of which there
are at most as many as sleepers, and one more. -/
def wakeupLoop (id count : Int) : Nat → Sched → Nat → Option (Sched × Nat)
  | 0, _, _ => none
  | fuel + 1, s, woken =>
    if count < 0 ∨ (woken : Int) < count then
      match s.waitingFirst id with
      | none => some (s, woken)
      | some p => do
        let s₁ ← s.wakeOne p
        wakeupLoop id count fuel s₁ (woken + 1)
    else some (s, woken)

/-- `process_wakeup_n` -/
def wakeupN (id count : Int) : Option (Sched × Nat) := wakeupLoop id count (s.waiting.inorder.length + 1) s 0

/-- `process_wake` -/
def wake (p : Nat) : Option Sched :=
  if (s.procs p).state = .sleeping then s.wakeOne p else some s

/-- `process_interrupt` -/
def interrupt (p : Nat) : Option Sched :=
  if (s.procs p).state = .sleeping ∧ (s.procs p).flags.interruptible = true then s.wakeOne p else some s

/-- The loop of `process_wakeup_poll`, at process `at?`. -/
def wakeupPollLoop (interest : UInt64) : Nat → Sched → Option Nat → Nat → Option (Sched × Nat)
  | 0, _, _, _ => none
  | _ + 1, s, none, woken => some (s, woken)
  | fuel + 1, s, some p, woken =>
    if (s.procs p).waitId = waitChannelPoll then
      let next := RbTree.nextNode p s.waiting
      if (s.procs p).flags.pollInterest &&& interest ≠ 0 then do
        let s₁ ← s.wakeOne p
        wakeupPollLoop interest fuel s₁ next (woken + 1)
      else wakeupPollLoop interest fuel s next woken
    else some (s, woken)

/-- The locked section of `process_wakeup_poll`. -/
def wakeupPoll (interest : UInt64) : Option (Sched × Nat) :=
  wakeupPollLoop interest (s.waiting.inorder.length + 1) s (s.waitingFirst waitChannelPoll) 0

/-- The locked section of `process_exit`. -/
def exit (c : Nat) : Option Sched := do
  let p ← s.cur c
  let s₁ ← (s.setState p .killed).insertKilled p
  s₁.schedule c

/-- `find_free_process_slot` -/
def findFreeProcessSlot : Option Nat := (List.range maxProcs).find? fun p => (s.procs p).state = .unused

end Sched

end Hermes.L5
