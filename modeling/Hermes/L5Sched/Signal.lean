import Mathlib

/-!
# Signal frames

`signal_deliver` and `sys_rt_sigreturn` of `drivers/scheduler/signal.c`, with the calls that change the signal mask for
the time they wait. On its way back to user code a process with a deliverable signal gets a frame on its stack, with all
that was interrupted, and runs the handler; `sys_rt_sigreturn` takes it back from there.

User memory is its 64-bit words: frames start at a multiple of eight. The state of the FPU is left out.
-/
namespace Hermes.L5

abbrev userCs : UInt64 := 0x23
abbrev userSs : UInt64 := 0x1B
abbrev rflagsIf : UInt64 := 0x200
abbrev rflagsTf : UInt64 := 0x100
abbrev rflagsDf : UInt64 := 0x400
abbrev rflagsUser : UInt64 := 0x50DD5
abbrev userAddrLimit : UInt64 := 0x0000800000000000
abbrev redZone : UInt64 := 128
abbrev int80Len : UInt64 := 2
abbrev syscallVector : UInt64 := 0x80
abbrev minsigstksz : UInt64 := 2048
/-- `sizeof(struct signal_frame)` -/
abbrev frameLen : UInt64 := 448

abbrev saRestorer : UInt64 := 0x04000000
abbrev saOnstack : UInt64 := 0x08000000
abbrev saRestart : UInt64 := 0x10000000
abbrev saNodefer : UInt64 := 0x40000000
abbrev saResethand : UInt64 := 0x80000000

abbrev ssOnstack : UInt32 := 1
abbrev ssDisable : UInt32 := 2
abbrev ssAutodisarm : UInt32 := 0x80000000

abbrev sigDfl : UInt64 := 0
abbrev sigIgn : UInt64 := 1

/-- `(uint64_t)-EINTR` and the like -/
def errnoRet (e : UInt64) : UInt64 := 0 - e

abbrev eintr : UInt64 := 4
abbrev enosys : UInt64 := 38
abbrev erestartsys : UInt64 := 512

/-! ## State -/

/-- What `struct sigcontext_s` keeps of the registers. -/
structure Regs where
  (r8 r9 r10 r11 r12 r13 r14 r15 rdi rsi rbp rbx rdx rax rcx rsp rip rflags : UInt64)
deriving DecidableEq

/-- `interrupt_context` -/
structure Context extends Regs where
  (cs ss errorCode interruptNumber : UInt64)
deriving DecidableEq

/-- SIGKILL and SIGSTOP -/
abbrev unblockable : UInt64 := ((1 : UInt64) <<< 8) ||| ((1 : UInt64) <<< 18)

/-- A signal mask: SIGKILL and SIGSTOP are never blocked. -/
structure SigMask where
  bits : UInt64
  ok : bits &&& unblockable = 0
deriving DecidableEq

/-- `m & ~unblockable` -/
def SigMask.of (m : UInt64) : SigMask where
  bits := m &&& ~~~unblockable
  ok := by
    rw [UInt64.and_assoc]
    have : ~~~unblockable &&& unblockable = 0 := by decide
    rw [this, UInt64.and_zero]

/-- `struct k_sigaction` -/
structure SigAction where
  (handler flags restorer mask : UInt64)
deriving DecidableEq

/-- `struct signal_info` -/
structure SigInfo where
  code : UInt32
  pid : UInt32
  addr : UInt64
deriving DecidableEq

/-- `struct sigaltstack_s` -/
structure SigAltStack where
  sp : UInt64
  flags : UInt32
  size : UInt64
deriving DecidableEq

/-- There is no alternate stack, or it is one that `signal_altstack_set` has taken. -/
def AltOk (sp size : UInt64) (flags : UInt32) : Prop := (sp = 0 ∧ size = 0 ∧ flags = 0) ∨
    (minsigstksz ≤ size ∧ sp ≤ sp + size ∧ sp + size ≤ userAddrLimit ∧ (flags = 0 ∨ flags = ssAutodisarm))

instance (sp size : UInt64) (flags : UInt32) : Decidable (AltOk sp size flags) := inferInstanceAs (Decidable (_ ∨ _))

/-- The alternate stack of a process. -/
@[ext]
structure AltStack where
  sp : UInt64
  size : UInt64
  flags : UInt32
  ok : AltOk sp size flags
deriving DecidableEq

def AltStack.none : AltStack := ⟨0, 0, 0, .inl ⟨rfl, rfl, rfl⟩⟩

/-- The fields of `process_t` that signals use; signals are counted from 0. -/
structure SigProc where
  pending : UInt64
  blocked : SigMask
  savedBlocked : SigMask
  restoreMask : Bool
  actions : Fin 64 → SigAction
  info : Fin 64 → SigInfo
  syscallNr : Int64
  alt : AltStack
  groupExit : Bool

/-- The words of the user memory, and what of it `vm_populate` takes. -/
structure UserMem where
  word : UInt64 → UInt64
  readable : UInt64 → Nat → Bool
  writable : UInt64 → Nat → Bool
  /-- `user_range` -/
  user : ∀ a n, writable a n = true → a.toNat + n ≤ userAddrLimit.toNat

/-- `memcpy` to user memory -/
def UserMem.store (u : UserMem) (a : UInt64) (ws : List UInt64) : UserMem :=
  { u with word := fun b =>
      if (b - a) % 8 = 0 ∧ ((b - a) / 8).toNat < ws.length then ws.getD ((b - a) / 8).toNat 0 else u.word b }

/-! ## The alternate stack -/

/-- `signal_on_altstack` -/
def AltStack.on (a : AltStack) (sp : UInt64) : Bool := a.size ≠ 0 && a.sp < sp && sp - a.sp ≤ a.size

/-- `signal_altstack_get` -/
def AltStack.get (a : AltStack) (sp : UInt64) : SigAltStack where
  sp := a.sp
  size := a.size
  flags := if a.size = 0 then ssDisable else (if a.on sp then ssOnstack else 0) ||| a.flags

inductive AltErr
  | perm
  | inval
  | nomem
deriving DecidableEq

lemma and_autodisarm (x : UInt32) : x &&& ssAutodisarm = 0 ∨ x &&& ssAutodisarm = ssAutodisarm := by
  have h : (x &&& ssAutodisarm).toNat = (x.toNat.testBit 31).toNat * 2 ^ 31 := by exact Nat.and_two_pow x.toNat 31
  cases hb : x.toNat.testBit 31 with
  | false =>
    rw [hb] at h
    exact .inl (UInt32.toNat_inj.1 h)
  | true =>
    rw [hb] at h
    exact .inr (UInt32.toNat_inj.1 h)

/-- `signal_altstack_set` -/
def AltStack.set (a : AltStack) (ss : SigAltStack) (sp : UInt64) : Except AltErr AltStack :=
  if a.on sp then .error .perm
  else if ss.flags &&& ~~~ssAutodisarm ≠ 0 ∧ ss.flags &&& ~~~ssAutodisarm ≠ ssOnstack ∧
      ss.flags &&& ~~~ssAutodisarm ≠ ssDisable then .error .inval
  else if ss.flags &&& ~~~ssAutodisarm = ssDisable then .ok .none
  else if hs : ss.size < minsigstksz then .error .nomem
  else if he : ss.sp + ss.size < ss.sp ∨ userAddrLimit < ss.sp + ss.size then .error .inval
  else .ok ⟨ss.sp, ss.size, ss.flags &&& ssAutodisarm,
    .inr ⟨UInt64.not_lt.1 hs, UInt64.not_lt.1 (not_or.1 he).1, UInt64.not_lt.1 (not_or.1 he).2, and_autodisarm _⟩⟩

/-! ## The frame -/

/-- `struct ucontext_s` with what `signal_setup_frame` puts there: the stack, the registers, and the mask. -/
def ucontextWords (c : Context) (stack : SigAltStack) (mask : SigMask) : List UInt64 :=
  [0, 0, stack.sp, stack.flags.toUInt64, stack.size,
    c.r8, c.r9, c.r10, c.r11, c.r12, c.r13, c.r14, c.r15, c.rdi, c.rsi, c.rbp, c.rbx, c.rdx, c.rax, c.rcx, c.rsp, c.rip,
    c.rflags, (c.cs &&& (0xFFFF : UInt64)) ||| (c.ss <<< (48 : UInt64)), c.errorCode, c.interruptNumber, mask.bits, 0, 0,
    0, 0, 0, 0, 0, 0, 0, 0, mask.bits]

/-- `struct siginfo_s`; `SI_USER` is 0 and `SI_KERNEL` 0x80. -/
def siginfoWords (sig : Fin 64) (info : SigInfo) : List UInt64 := [UInt64.ofNat (sig + 1), info.code.toUInt64,
    if info.code = 0 ∨ info.code = 0x80 then info.pid.toUInt64 else info.addr] ++ List.replicate 13 0

/-- mov $15, %eax; int $0x80; nop -/
abbrev trampoline : UInt64 := 0x9080CD0000000FB8

/-- `struct signal_frame` at `sp` -/
def frameWords (c : Context) (p : SigProc) (sig : Fin 64) (sp : UInt64) (mask : SigMask) : List UInt64 :=
  (if (p.actions sig).flags &&& saRestorer ≠ 0 then (p.actions sig).restorer else sp + 440) ::
    ucontextWords c (p.alt.get c.rsp) mask ++ siginfoWords sig (p.info sig) ++ [trampoline]

/-- What `sys_rt_sigreturn` uses of a `struct ucontext_s`. -/
structure UContext where
  stack : SigAltStack
  regs : Regs
  sigmask : UInt64
deriving DecidableEq

/-- The structure whose words are `w`. -/
def UContext.ofWords (w : Nat → UInt64) : UContext where
  stack := ⟨w 2, (w 3).toUInt32, w 4⟩
  regs := ⟨w 5, w 6, w 7, w 8, w 9, w 10, w 11, w 12, w 13, w 14, w 15, w 16, w 17, w 18, w 19, w 20, w 21, w 22⟩
  sigmask := w 37

/-! ## Delivery -/

/-- `signal_bit` -/
def signalBit (sig : Fin 64) : UInt64 := (1 : UInt64) <<< UInt64.ofNat sig

/-- SIGCHLD, SIGCONT, SIGSTOP, SIGTSTP, SIGTTIN, SIGTTOU, SIGURG and SIGWINCH -/
def signalDefaultIgnored (sig : Fin 64) : Bool := sig.val ∈ [16, 17, 18, 19, 20, 21, 22, 27]

/-- `signal_ignored` -/
def SigProc.ignores (p : SigProc) (sig : Fin 64) : Bool :=
  (p.actions sig).handler = sigIgn || ((p.actions sig).handler = sigDfl && signalDefaultIgnored sig)

/-- `return_mask` -/
def SigProc.returnMask (p : SigProc) : SigMask := if p.restoreMask then p.savedBlocked else p.blocked

/-- The frame goes to the alternate stack. -/
def SigProc.toAlt (p : SigProc) (sig : Fin 64) (rsp : UInt64) : Bool :=
  (p.actions sig).flags &&& saOnstack ≠ 0 && p.alt.size ≠ 0 && !p.alt.on rsp

/-- Where the frame goes. -/
def SigProc.frameSp (p : SigProc) (sig : Fin 64) (rsp : UInt64) : UInt64 :=
  let sp := if p.toAlt sig rsp then p.alt.sp + p.alt.size else rsp - redZone
  ((sp - frameLen) &&& ~~~15) - 8

/-- The mask while the handler runs. -/
def SigProc.handlerMask (p : SigProc) (sig : Fin 64) : SigMask :=
  .of (p.blocked.bits ||| ((p.actions sig).mask &&& ~~~unblockable) |||
    if (p.actions sig).flags &&& saNodefer = 0 then signalBit sig else 0)

/-- `signal_setup_frame`; it fails without an effect on what it returns to. -/
def signalSetupFrame (u : UserMem) (c : Context) (p : SigProc) (sig : Fin 64) : Option (UserMem × Context × SigProc) :=
  let act := p.actions sig
  let sp := p.frameSp sig c.rsp
  if userAddrLimit ≤ act.handler then none
  else if (p.toAlt sig c.rsp ∨ p.alt.on c.rsp) ∧ sp < p.alt.sp then none
  else if u.writable sp frameLen.toNat = false then none
  else some (u.store sp (frameWords c p sig sp p.returnMask),
    { c with
      rip := act.handler, rsp := sp, rdi := UInt64.ofNat (sig + 1), rsi := sp + 312, rdx := sp + 8, rax := 0,
      rflags := c.rflags &&& ~~~(rflagsDf ||| rflagsTf) },
    { p with
      restoreMask := false
      blocked := p.handlerMask sig
      actions := if act.flags &&& saResethand ≠ 0 then Function.update p.actions sig ⟨0, 0, 0, 0⟩ else p.actions
      alt := if p.toAlt sig c.rsp ∧ p.alt.flags &&& ssAutodisarm ≠ 0 then .none else p.alt })

/-- What comes of a way back to user code. -/
inductive SigOutcome
  /-- back to where it was interrupted -/
  | user (c : Context) (p : SigProc)
  /-- to the handler of a signal -/
  | handler (sig : Fin 64) (u : UserMem) (c : Context) (p : SigProc)
  | exit (status : Nat)

/-- `signal_restart` -/
def signalRestart (c : Context) (nr : Int64) : Context := { c with rax := nr.toUInt64, rip := c.rip - int80Len }

/-- The signals that are pending and not blocked. -/
def SigProc.deliverable (p : SigProc) : UInt64 := p.pending &&& ~~~p.blocked.bits

/-- `__builtin_ctzll`, where there is a bit -/
def lowestBit (x : UInt64) : Option (Fin 64) := (List.finRange 64).find? fun i => x.toNat.testBit i

/-- What the interrupted program goes on with after the handler: the system call again, or its failure. -/
def interrupted (restartable : Bool) (nr : Int64) (act : SigAction) (c : Context) : Context :=
  if restartable then
    if act.flags &&& saRestart ≠ 0 then signalRestart c nr else { c with rax := errnoRet eintr }
  else c

/-- The loop of `signal_deliver`; each turn takes one signal that is pending. -/
def signalLoop (u : UserMem) (restartable : Bool) (nr : Int64) (c : Context) : Nat → SigProc → SigOutcome
  | 0, p => .user c p
  | n + 1, p =>
    match lowestBit p.deliverable with
    | none =>
      .user (if restartable then signalRestart c nr else c)
        (if p.restoreMask then { p with blocked := p.savedBlocked, restoreMask := false } else p)
    | some sig =>
      let p := { p with pending := p.pending &&& ~~~signalBit sig }
      if p.ignores sig then signalLoop u restartable nr c n p
      else if (p.actions sig).handler = sigDfl then .exit (if p.groupExit then 0 else sig + 1)
      else
        match signalSetupFrame u (interrupted restartable nr (p.actions sig) c) p sig with
        | none => .exit 11
        | some (u', c', p') => .handler sig u' c' p'

/-- A system call has to be made again if it can be. -/
def restartable (c : Context) (p : SigProc) : Bool :=
  c.interruptNumber = syscallVector && (0 : Int64) ≤ p.syscallNr && c.rax = errnoRet erestartsys

/-- `signal_deliver` of a process other than the idle one. No more than 64 signals are pending. -/
def signalDeliver (u : UserMem) (c : Context) (p : SigProc) : SigOutcome :=
  if c.cs &&& 3 ≠ 3 then .user c p
  else signalLoop u (restartable c p) p.syscallNr c 65 { p with syscallNr := -1 }

/-- `deliver_syscall_signals` -/
def deliverSyscallSignals (u : UserMem) (c : Context) (p : SigProc) : SigOutcome :=
  if c.cs &&& 3 ≠ 3 then .user c p
  else if c.rax ≠ errnoRet erestartsys ∧ p.deliverable = 0 ∧ p.restoreMask = false then .user c { p with syscallNr := -1 }
  else signalDeliver u c p

/-- `syscall_dispatch`, where the system call leaves the process as `p` and returns `ret`. No system call has a negative
number. -/
def syscallDispatch (u : UserMem) (c : Context) (p : SigProc) (ret : UInt64) : SigOutcome :=
  deliverSyscallSignals u { c with rax := if c.rax.toInt64 < 0 then errnoRet enosys else ret }
    { p with syscallNr := c.rax.toInt64 }

/-! ## Return -/

/-- `sys_rt_sigreturn` -/
def sysRtSigreturn (u : UserMem) (c : Context) (p : SigProc) : SigOutcome :=
  if u.readable c.rsp 304 = false then .exit 11
  else
    let uc := UContext.ofWords fun i => u.word (c.rsp + UInt64.ofNat (8 * i))
    if userAddrLimit ≤ uc.regs.rip ∨ userAddrLimit ≤ uc.regs.rsp then .exit 11
    else .user
      { c with
        toRegs := { uc.regs with
          rflags := (c.rflags &&& ~~~rflagsUser) ||| (uc.regs.rflags &&& rflagsUser) ||| rflagsIf }
        cs := userCs, ss := userSs }
      { p with
        blocked := .of uc.sigmask
        syscallNr := -1
        alt := match p.alt.set uc.stack uc.regs.rsp with
          | .ok a => a
          | .error _ => p.alt }

/-! ## The calls that wait with another mask -/

/-- `sys_rt_sigsuspend` until it sleeps; it returns `-EINTR`. -/
def SigProc.sigsuspend (p : SigProc) (mask : UInt64) : SigProc :=
  { p with savedBlocked := p.blocked, restoreMask := true, blocked := .of mask }

/-- `poll_wait_sigmask` with a mask, until it waits. -/
def SigProc.pollMask (p : SigProc) (mask : UInt64) : SigProc := { p with blocked := .of mask }

/-- The end of `poll_wait_sigmask`, where `saved` is the mask it started with. -/
def SigProc.pollEnd (p : SigProc) (saved : SigMask) (r : UInt64) : SigProc :=
  if r = errnoRet eintr then { p with savedBlocked := saved, restoreMask := true } else { p with blocked := saved }

end Hermes.L5
