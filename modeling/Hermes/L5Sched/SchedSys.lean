import Hermes.Core.LTS
import Hermes.L5Sched.SchedOps

/-!
# Processes over their lifetime

The system around the scheduler: processes are created, run, sleep, exit and are
freed, on any number of CPUs. Each step is a section under `sched_lock`, or a
write outside it that another CPU may see.

A creation is in three steps. `create_process` looks for a free slot
(`pick`), clears it and marks it (`claim`), and its caller puts it on the ready list
(`publish`) or gives up (`abort`). Nothing under `sched_lock` ties the first
two together: system calls hold the kernel lock there, the thread that starts
shells (`tty_spawner`) does not.
-/
namespace Hermes.L5

open Function

/-- How far a process has come in creating another one. -/
inductive Creation
  | none
  | picked (p : Nat)
  | made (p : Nat)
deriving DecidableEq, Repr

structure Sys extends Sched where
  nextPid : UInt32
  /-- by the creating process -/
  creation : Nat → Creation
  /-- taken off the killed list by `reap_detached`, and not yet freed -/
  reaping : List Nat
  /-- taken off it by `process_wait4`, which holds the kernel lock until it has freed it -/
  waited : Option Nat

inductive Label
  | yield (c : Nat)
  | sleep (c : Nat) (id : Int)
  | sleepInterruptible (c : Nat) (id : Int) (seq : Option UInt64)
  | wakeupN (id count : Int)
  | wake (p : Nat)
  | interrupt (p : Nat)
  /-- the first statement of `process_wakeup_poll` -/
  | bumpSeq
  | wakeupPoll (interest : UInt64)
  | exit (c : Nat)
  /-- any write to the fields that `sched_lock` does not protect -/
  | assign (p : Nat) (f : Flags)
  | reapDetached
  | wait4 (p : Nat)
  /-- `process_free` -/
  | free (p : Nat)
  | pick (c : Nat)
  | claim (c : Nat)
  /-- the claim in `process_create_idle`, for CPU `d` -/
  | claimIdle (c d : Nat)
  | publish (c : Nat)
  | abort (c : Nat)
deriving DecidableEq, Repr

/-- The CPU on which a step is a statement of its process. -/
def Label.actor : Label → Option Nat
  | .sleep c _ | .sleepInterruptible c _ _ | .exit c | .pick c | .claim c | .claimIdle c _ | .publish c
  | .abort c => some c
  | _ => none

namespace Sys

variable (s : Sys)

/-- A slot with the state and pid given, everything else cleared. -/
def fresh (x : PState) (pid : UInt32) : Proc := { Proc.zero with state := x, pid := pid }

/-- The process on a CPU, if it is not an idle one. -/
def caller (c : Nat) : Option Nat := (s.cur c).filter fun p => (s.procs p).pid ≠ idlePid

def setCreation (p : Nat) (x : Creation) : Sys := { s with creation := update s.creation p x }

def creationOf (c : Nat) : Creation :=
  match s.cur c with
  | some p => s.creation p
  | none => .none

/-- When a step can be taken. Idle processes neither sleep nor exit, a parent's
wait sees a killed process that is not detached, and `detached` is never taken
back. -/
def enabled : Label → Bool
  | .yield c => (s.cur c).isSome
  | .sleep c _ | .sleepInterruptible c _ _ => (s.caller c).isSome
  | .exit c => (s.caller c).isSome && s.creationOf c == .none
  | .assign p f => !(s.procs p).flags.detached || f.detached
  | .wait4 p => (s.procs p).state == .killed && !(s.procs p).flags.detached && s.waited == none
  | .free p => s.reaping.contains p || s.waited == some p
  | .pick c => (s.cur c).isSome && s.creationOf c == .none
  | .claim c => match s.creationOf c with
    | .picked _ => true
    | _ => false
  | .claimIdle c d => (match s.creationOf c with
    | .picked _ => true
    | _ => false) && (s.cur d).isNone
  | .publish c | .abort c => match s.creationOf c with
    | .made _ => true
    | _ => false
  | .wakeupN _ _ | .wake _ | .interrupt _ | .bumpSeq | .wakeupPoll _ | .reapDetached => true

/-- One step; `none` where a list or the tree would be corrupted. -/
def exec : Label → Option Sys
  | .yield c => (s.toSched.yield c).map fun t => { s with toSched := t }
  | .sleep c id => (s.toSched.sleep c id).map fun t => { s with toSched := t }
  | .sleepInterruptible c id seq =>
    (s.toSched.sleepInterruptible c id seq).map fun t => { s with toSched := t }
  | .wakeupN id count => (s.toSched.wakeupN id count).map fun t => { s with toSched := t.1 }
  | .wake p => (s.toSched.wake p).map fun t => { s with toSched := t }
  | .interrupt p => (s.toSched.interrupt p).map fun t => { s with toSched := t }
  | .bumpSeq => some { s with pollWakeSeq := s.pollWakeSeq + 1 }
  | .wakeupPoll i => (s.toSched.wakeupPoll i).map fun t => { s with toSched := t.1 }
  | .exit c => (s.toSched.exit c).map fun t => { s with toSched := t }
  | .assign p f => some { s with toSched := s.setProc p { s.procs p with flags := f } }
  | .reapDetached =>
    match s.killed.find? fun p => (s.procs p).flags.detached with
    | none => some s
    | some v => (s.removeKilled v).map fun t => { s with toSched := t, reaping := v :: s.reaping }
  | .wait4 p => (s.removeKilled p).map fun t => { s with toSched := t, waited := some p }
  | .free p =>
    some { s with
      toSched := s.setProc p Proc.zero
      reaping := s.reaping.erase p
      waited := if s.waited = some p then none else s.waited }
  | .pick c => do
    let p ← s.cur c
    match s.findFreeProcessSlot with
    | none => some s
    | some q => some (s.setCreation p (.picked q))
  | .claim c => do
    let p ← s.cur c
    match s.creation p with
    | .picked q =>
      let s' := s.setCreation p (.made q)
      some { s' with toSched := s.setProc q (fresh .init s.nextPid), nextPid := s.nextPid + 1 }
    | _ => none
  | .claimIdle c d => do
    let p ← s.cur c
    match s.creation p with
    | .picked q =>
      let s' := s.setCreation p .none
      some { s' with toSched := { s.setProc q (fresh .running idlePid) with
        cur := update s.cur d (some q)
        idle := update s.idle d (some q) } }
    | _ => none
  | .publish c => do
    let p ← s.cur c
    match s.creation p with
    | .made q => (s.makeReady q).map fun t => { s.setCreation p .none with toSched := t }
    | _ => none
  | .abort c => do
    let p ← s.cur c
    match s.creation p with
    | .made q => some { s.setCreation p .none with toSched := s.setProc q Proc.zero }
    | _ => none

/-- A creation takes its slot while it is still free, and with a pid that has not
wrapped around to that of the idle processes. -/
def undisturbed : Label → Bool
  | .claim c => match s.creationOf c with
    | .picked q => (s.procs q).state == .unused && s.nextPid != idlePid
    | _ => true
  | .claimIdle c _ => match s.creationOf c with
    | .picked q => (s.procs q).state == .unused
    | _ => true
  | _ => true

/-- After `init_idle_process`. -/
def boot : Sys where
  procs := update (fun _ => Proc.zero) 0 (fresh .running idlePid)
  ready := []
  waiting := .nil
  killed := []
  cur := update (fun _ => none) 0 (some 0)
  idle := update (fun _ => none) 0 (some 0)
  pollWakeSeq := 0
  nextPid := 1
  creation := fun _ => .none
  reaping := []
  waited := none

/-- The sleepers, in the order in which they went to sleep: those of before that
still sleep, and the caller of a step that sleeps. -/
def note (s' : Sys) (l : Label) (asleep : List Nat) : List Nat :=
  let sleeps := fun p => decide ((s'.procs p).state = .sleeping)
  asleep.filter sleeps ++ match l with
    | .sleep c _ | .sleepInterruptible c _ _ => (s.cur c).toList.filter sleeps
    | _ => []

/-- One step with the order of the sleepers. -/
def track (a : Sys × List Nat) (l : Label) : Option (Sys × List Nat) :=
  if a.1.enabled l then (a.1.exec l).map fun s' => (s', a.1.note s' l a.2) else none

def tracked : LTS (Sys × List Nat) Label := LTS.ofOption (fun a => a = (boot, [])) track

end Sys

end Hermes.L5
