import Hermes.L3Net.Tcp.Usrreq
import Hermes.L3Net.Tcp.Scoreboard

/-!
# What the sender's invariants look at

Most of the control block is irrelevant to the send side: `View` keeps the
sequence variables, the scoreboard, the send buffer, the state and the two
send timers. The lemmas below say, once for each function of the model, what
it does to the view; every function that only touches the receive side, the
round-trip estimate or the congestion window leaves it alone.
-/
namespace Hermes.L3.Tcp

open Hermes.Seq32

structure View where
  state : TcpState
  iss : UInt32
  una : UInt32
  nxt : UInt32
  max : UInt32
  recover : UInt32
  rxmit : UInt32
  sentfin : Bool
  fastrec : Bool
  blocks : List SackBlock
  snd : List UInt8
  hiwat : Nat
  rexmt : Bool
  persist : Bool
  forcedata : Bool
  gone : Bool
  passes : List Pass
  stream : List UInt8
  unaPos : Nat
  changes : List Change

def Conn.view (c : Conn) : View where
  state := c.tp.state
  iss := c.tp.iss
  una := c.tp.sndUna
  nxt := c.tp.sndNxt
  max := c.tp.sndMax
  recover := c.tp.sndRecover
  rxmit := c.tp.sackRxmit
  sentfin := c.tp.sentfin
  fastrec := c.tp.fastrecovery
  blocks := c.tp.sackBlocks
  snd := c.so.snd
  hiwat := c.so.sndHiwat
  rexmt := c.tp.tRexmt.isSome
  persist := c.tp.tPersist.isSome
  forcedata := c.tp.forcedata
  gone := c.gone
  passes := c.passes
  stream := c.stream
  unaPos := c.unaPos
  changes := c.changes

/-- The view after `tcp_state_change`. -/
def View.change (v : View) (s : TcpState) : View :=
  { v with state := s, changes := ⟨v.state, s, false, v.unaPos, v.passes⟩ :: v.changes }

/-- What the round-trip estimate and the end of a connection are about. -/
structure Ctl where
  gone : Bool
  error : Nat
  detached : Bool
  srtt : Int
  rttvar : Int
  rto : Nat
  rttStart : Nat

def Conn.ctl (c : Conn) : Ctl :=
  ⟨c.gone, c.so.error, c.so.detached, c.tp.srtt, c.tp.rttvar, c.tp.rto, c.tp.rttStart⟩

/-- What the receive side leaves alone. -/
def Conn.kept (c : Conn) : View × Ctl := (c.view, c.ctl)

variable (c : Conn) {v : View}

lemma view_ite {α : Type} {f : Conn → α} {x : α} {p : Prop} [Decidable p] {a b : Conn} (ha : f a = x) (hb : f b = x) :
    f (if p then a else b) = x := by split <;> assumption

/-! ## Timers -/

@[simp] lemma view_activate_rexmt (ms : Nat) :
    (tcpTimerActivate c .rexmt ms).view = { c.view with rexmt := true } := rfl

@[simp] lemma view_stop_rexmt : (tcpTimerStop c .rexmt).view = { c.view with rexmt := false } := rfl

@[simp] lemma view_setpersist : (tcpSetpersist c).view = { c.view with persist := true } := by
  unfold tcpSetpersist
  dsimp only
  split <;> rfl

/-! ## Congestion control, round-trip time, MSS -/

@[simp] lemma view_newrenoAckReceived (acked : UInt32) : (newrenoAckReceived c acked).view = c.view := by
  exact view_ite rfl rfl

@[simp] lemma view_newrenoCongSignalRto : (newrenoCongSignalRto c).view = c.view := rfl

@[simp] lemma view_tcpOutputIdle (env : Env) (c : Conn) : (tcpOutputIdle env c).view = c.view := by
  unfold tcpOutputIdle newrenoAfterIdle
  split
  · split <;> rfl
  · rfl

@[simp] lemma view_tcpXmitTimer (env : Env) (c : Conn) (rtt : Int) : (tcpXmitTimer env c rtt).view = c.view := rfl

@[simp] lemma view_tcpRttMeasure (env : Env) (c : Conn) (seg : TcpSeg) : (tcpRttMeasure env c seg).view = c.view := by
  unfold tcpRttMeasure
  split
  · exact view_tcpXmitTimer ..
  split
  · exact view_tcpXmitTimer ..
  · rfl

@[simp] lemma view_tcpRttSample (env : Env) (c : Conn) (seg : TcpSeg) : (tcpRttSample env c seg).view = c.view := by
  rw [← view_tcpRttMeasure env c seg]
  unfold tcpRttSample
  split <;> rfl

@[simp] lemma view_tcpMssUpdate (env : Env) (c : Conn) (offer : Nat) : (tcpMssUpdate env c offer).view = c.view := by
  have h : ∀ m, ({ c with tp.mss := m, tp.peerMss := offer } : Conn).view = c.view := fun _ => rfl
  exact h _

@[simp] lemma view_tcpApplySynOpts (env : Env) (c : Conn) (o : TcpOpts) :
    (tcpApplySynOpts env c o).view = c.view := by
  unfold tcpApplySynOpts
  rw [view_tcpMssUpdate]
  split
  · rfl
  · split <;> split <;> split <;> rfl

@[simp] lemma view_tcpInitRcv (irs : UInt32) : (tcpInitRcv c irs).view = c.view := rfl

/-! ## The receive side -/

lemma kept_tcpRespond (env : Env) (c : Conn) (t : Bool) (ack seq : UInt32) (f : ThFlags) :
    (tcpRespond env c t ack seq f).kept = c.kept := view_ite rfl rfl

@[simp] lemma view_tcpRespond (env : Env) (c : Conn) (t : Bool) (ack seq : UInt32) (f : ThFlags) :
    (tcpRespond env c t ack seq f).view = c.view := congrArg Prod.fst (kept_tcpRespond ..)

lemma kept_tcpReplyReset (env : Env) (c : Conn) (seg : TcpSeg) : (tcpReplyReset env c seg).kept = c.kept := by
  unfold tcpReplyReset
  split
  · rfl
  · split <;> exact kept_tcpRespond ..

lemma kept_tcpSendChallengeAck (env : Env) (c : Conn) : (tcpSendChallengeAck env c).kept = c.kept :=
  kept_tcpRespond ..

lemma kept_tcpPawsOk (env : Env) (c : Conn) (seg : TcpSeg) : (tcpPawsOk env c seg).1.kept = c.kept ∧
    (tcpPawsOk env c seg).1.tp.rcvNxt = c.tp.rcvNxt := by
  unfold tcpPawsOk
  split
  · exact ⟨rfl, rfl⟩
  split
  · exact ⟨rfl, rfl⟩
  split
  · exact ⟨rfl, rfl⟩
  split <;> exact ⟨rfl, rfl⟩

lemma kept_tcpTrimSegment (seg : TcpSeg) : (tcpTrimSegment c seg).1.kept = c.kept := by
  have hl : (tcpTrimLeft c seg).1.kept = c.kept := by
    unfold tcpTrimLeft
    dsimp only
    split
    · exact view_ite rfl rfl
    · rfl
  unfold tcpTrimSegment
  rw [← hl]
  unfold tcpTrimRight
  dsimp only
  split
  · split
    · rfl
    · exact view_ite rfl rfl
  · rfl

lemma kept_tcpUpdateTsRecent (env : Env) (c : Conn) (seg : TcpSeg) : (tcpUpdateTsRecent env c seg).kept = c.kept := by
  unfold tcpUpdateTsRecent
  split
  · rfl
  · exact view_ite rfl rfl

lemma kept_tcpUpdateWindow (seg : TcpSeg) : (tcpUpdateWindow c seg).kept = c.kept := view_ite rfl rfl

@[simp] lemma view_tcpUpdateWindow (seg : TcpSeg) : (tcpUpdateWindow c seg).view = c.view :=
  congrArg Prod.fst (kept_tcpUpdateWindow c seg)

lemma kept_tcpScheduleAck (delay : Bool) : (tcpScheduleAck c delay).kept = c.kept := view_ite rfl rfl

lemma kept_tcpReassemble (env : Env) (c : Conn) (seq len : UInt32) (fin : Bool) (data : List UInt8) :
    (tcpReassemble env c seq len fin data).1.kept = c.kept := by
  have hl : ∀ pre post seq len fin data, (tcpReassembleLink env c pre post seq len fin data).kept = c.kept :=
    fun _ _ _ _ _ _ => view_ite rfl rfl
  have hi : (tcpReassembleInsert env c seq len fin data).kept = c.kept := by
    unfold tcpReassembleInsert
    dsimp only
    split
    · rfl
    split
    · exact hl ..
    split
    · split <;> rfl
    split <;> exact hl ..
  exact hi

/-! ## Closing -/

@[simp] lemma view_tcpClose : (tcpClose c).view = { c.view with rexmt := false, persist := false, gone := true } := by
  unfold tcpClose
  dsimp only
  split
  · rfl
  · split <;> rfl

@[simp] lemma view_tcpEnterTimewait : (tcpEnterTimewait c).view =
      { c.view.change .timeWait with rexmt := false, persist := false } := by
  unfold tcpEnterTimewait; dsimp only; split <;> rfl

/-- The changes `tcp_established` makes: to ESTABLISHED, and on to FIN-WAIT-1
when the user has already closed. `u` is what was acknowledged then. -/
inductive OpenChanges (v : View) : TcpState → List Change → Prop
  | established (u : Nat) : OpenChanges v .established (⟨v.state, .established, false, u, v.passes⟩ :: v.changes)
  | finWait1 (u : Nat) : OpenChanges v .finWait1 (⟨.established, .finWait1, false, u, v.passes⟩ ::
        ⟨v.state, .established, false, u, v.passes⟩ :: v.changes)

variable {t : TcpState} {cs : List Change}

lemma OpenChanges.state (h : OpenChanges v t cs) : t = .established ∨ t = .finWait1 := by
  cases h with
  | established u => exact .inl rfl
  | finWait1 u => exact .inr rfl

lemma OpenChanges.est (h : OpenChanges v t cs) : t.haveEstablished = true := by
  cases h with
  | established u => rfl
  | finWait1 u => rfl

lemma view_tcpEstablished : ∃ t cs, OpenChanges c.view t cs ∧
    (tcpEstablished c).view = { c.view with state := t, changes := cs } := by
  unfold tcpEstablished
  dsimp only
  generalize hd : tcpTimerActivate (newrenoConnInit (tcpStateChange c .established)) .keep tcpKeepidleMs = d
  have hv : d.view = c.view.change .established := by rw [← hd]; rfl
  generalize he : (if !d.so.detached then { d with so := sockIsConnected d.so } else d) = e
  have hev : e.view = c.view.change .established := by rw [← hv, ← he]; exact view_ite rfl rfl
  split
  · have hf : (tcpStateChange { e with tp.needfin := false } .finWait1).view = e.view.change .finWait1 := rfl
    refine ⟨.finWait1, _, .finWait1 c.view.unaPos, ?_⟩
    rw [hf, hev]
    rfl
  · refine ⟨.established, _, .established c.view.unaPos, ?_⟩
    rw [hev]
    rfl

@[simp] lemma view_tcpStateChange (s : TcpState) : (tcpStateChange c s).view = c.view.change s := rfl

@[simp] lemma view_tcpSackUpdate (blocks : List SackBlock) :
    (tcpSackUpdate c blocks).view = { c.view with
      blocks := blocks.foldl (tcpSackUpdateOne c.view.una c.view.max) c.view.blocks } := rfl

end Hermes.L3.Tcp
