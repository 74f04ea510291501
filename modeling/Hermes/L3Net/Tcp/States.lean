import Hermes.L3Net.Tcp.SendSeq

/-!
# The TCP state diagram

Every assignment to `tp->state` goes through `tcp_state_change`, and
`c.changes` records each one with the passes sent and the sequence numbers
acknowledged by then. `state_machine`: in every reachable state the record
is a walk from CLOSED to the current state along arrows of the TCP state
diagram, resets and the first step of a listener's child, and the arrows
labelled "ACK of FIN" were only taken after a segment with FIN had been sent
and acknowledged. `child_skips_listen`: that first step is not an arrow.

* `Edge` is the diagram, `Change.ok` what one record promises.
* A FIN is "acknowledged" in unwrapped numbers (`unaPos`), since `snd_una`,
  `snd_max` and `TF_SENTFIN` alone do not say where the FIN was: the step
  invariant `FinSent` places the last FIN at or before `snd_max`.
* `tcp_drop` resets from any synchronized state; those records carry `reset`.
* A SYN for a listener makes a new block, which `tcp_attach_pcb` leaves in
  CLOSED (tcp_subr.c:57) and `tcp_input_listen` puts into SYN-RECEIVED
  (tcp_input.c:316): the diagram has this arrow from LISTEN only.
-/
namespace Hermes.L3.Tcp

open Hermes.Seq32 List

/-- The arrows of the TCP state diagram. -/
inductive Edge : TcpState → TcpState → Prop
  | passiveOpen : Edge .closed .listen
  | activeOpen : Edge .closed .synSent
  | rcvSyn : Edge .listen .synReceived
  | sendSyn : Edge .listen .synSent
  | simultaneousOpen : Edge .synSent .synReceived
  | rcvSynAck : Edge .synSent .established
  | rcvAckOfSyn : Edge .synReceived .established
  | closeSynReceived : Edge .synReceived .finWait1
  | close : Edge .established .finWait1
  | rcvFin : Edge .established .closeWait
  | rcvAckOfFin : Edge .finWait1 .finWait2
  | rcvFinEarly : Edge .finWait1 .closing
  | rcvFinLate : Edge .finWait2 .timeWait
  | rcvAckOfFinClosing : Edge .closing .timeWait
  | closePassive : Edge .closeWait .lastAck
  | rcvAckOfFinLast : Edge .lastAck .closed
  | timeout2msl : Edge .timeWait .closed
  | closeListen : Edge .listen .closed
  | closeSynSent : Edge .synSent .closed
  | rcvRst : Edge .synReceived .listen

/-- The arrows labelled "ACK of FIN". -/
def ackOfFin : TcpState → TcpState → Bool
  | .finWait1, .finWait2 | .closing, .timeWait | .lastAck, .closed => true
  | _, _ => false

/-- The end of the FIN a pass sent, counted from `iss`. -/
def Pass.finEnd (p : Pass) (g : Segment) : Nat := p.unaPos + dist p.tp.sndUna (g.seq + UInt32.ofNat g.data.length + 1)

/-- One of the passes sent a FIN that ends at or before `pos`. -/
def FinBy (ps : List Pass) (pos : Nat) : Prop := ∃ p ∈ ps, ∃ g, p.seg = some g ∧ g.flags.fin = true ∧ p.finEnd g ≤ pos

/-- The first step of a listener's child. -/
def Change.spawned (ch : Change) : Prop := ch.old = .closed ∧ ch.new = .synReceived

/-- A reset from a synchronized state, the first step of a child, or an arrow
of the diagram; "ACK of FIN" needs a FIN that was sent and is covered by the
acknowledgements. -/
def Change.ok (ch : Change) : Prop := (ch.reset = true ∧ ch.old.haveRcvdSyn = true ∧ ch.new = .closed) ∨
  (ch.reset = false ∧ (ch.old = ch.new ∨ Edge ch.old ch.new ∨ ch.spawned) ∧
    (ackOfFin ch.old ch.new = true → FinBy ch.passes ch.unaPos))

/-- The record is a walk from CLOSED to the state, and a child's step is the
first of it. -/
def Walk : List Change → TcpState → Prop
  | [], s => s = .closed
  | ch :: rest, s => ch.new = s ∧ Walk rest ch.old ∧ (ch.spawned → rest = [])

/-- No arrow of the diagram is the first step of a child. -/
lemma Change.not_spawned {ch : Change} (h : ch.old = ch.new ∨ Edge ch.old ch.new) : ¬ ch.spawned := by
  rintro ⟨hold, hnew⟩
  rw [hold, hnew] at h
  rcases h with h | h <;> cases h

lemma FinBy.mono {ps : List Pass} {m n : Nat} (h : FinBy ps m) (hmn : m ≤ n) : FinBy ps n := by
  obtain ⟨p, hp, g, hg, hf, hle⟩ := h
  exact ⟨p, hp, g, hg, hf, hle.trans hmn⟩

lemma FinBy.cons {ps : List Pass} {n : Nat} (h : FinBy ps n) (q : Pass) : FinBy (q :: ps) n := by
  obtain ⟨p, hp, rest⟩ := h
  exact ⟨p, mem_cons_of_mem q hp, rest⟩

/-! ## Where the FIN is -/

/-- A sent FIN lies at or before `snd_max`. -/
def FinSent (v : View) : Prop := v.sentfin = true → FinBy v.passes (v.unaPos + dist v.una v.max)

variable {s : Nat} {v : View} {t : TcpState}

variable {c : Conn} {cs : List Change}

/-- The pass that plans a FIN sends it where `TxPlan.stop` says. -/
lemma pass_finEnd (h : SendInv s c.view) (env : Env) (hf : (tcpPlan env c.tp c.so).flags.fin = true) :
    (c.pass (some (tcpPassSegment env c.tp c.so))).finEnd (tcpPassSegment env c.tp c.so) =
      c.unaPos + dist c.tp.sndUna (tcpPlan env c.tp c.so).stop := by
  have hp := planOk h env
  have hsyn : (tcpPlan env c.tp c.so).flags.syn = false := by
    by_contra hc
    have hst := (hp.syn (by simpa using hc)).2.2
    have hest := outflags_fin_est (hp.fin hf).2
    rcases hst with hst | hst <;> rw [hst] at hest <;> exact absurd hest (by decide)
  have hlen := passSegment_length env c.tp c.so
  show c.unaPos + dist c.tp.sndUna ((tcpPlan env c.tp c.so).seq +
    UInt32.ofNat (tcpPassSegment env c.tp c.so).data.length + 1) = _
  rw [hlen]
  unfold TxPlan.stop
  rw [hf, hsyn]
  simp

lemma once_finSent (h : SendInv s c.view) (hs : FinSent c.view) (env : Env) :
    FinSent (tcpOutputOnce env c).1.view := by
  have hkeep : ∀ q, c.view.sentfin = true →
      FinBy (q :: c.passes) (c.unaPos + dist c.tp.sndUna c.tp.sndMax) := fun q hf => (hs hf).cons q
  obtain ⟨-, -, p, hv, -⟩ | ⟨-, -, he⟩ | ⟨-, -, -, hv⟩ | ⟨-, -, -, hv⟩ := once_cases env c
  · rw [hv]; exact hkeep _
  · rw [he]; exact hkeep _
  · rw [hv]; exact hkeep _
  rw [hv]
  have hmax := afterSend_max (v := c.passView (some (tcpPassSegment env c.tp c.so)))
    (h.of_view rfl) ((planOk h env).passView _) (tcpProbing c.tp)
  intro hf
  have hmax' : dist c.tp.sndUna ((c.passView (some (tcpPassSegment env c.tp c.so))).afterSend
      (tcpPlan env c.tp c.so) (tcpProbing c.tp)).max =
    max (dist c.tp.sndUna (tcpPlan env c.tp c.so).stop) (dist c.tp.sndUna c.tp.sndMax) := hmax
  show FinBy (c.pass (some (tcpPassSegment env c.tp c.so)) :: c.passes) (c.unaPos + dist c.tp.sndUna
    ((c.passView (some (tcpPassSegment env c.tp c.so))).afterSend (tcpPlan env c.tp c.so) (tcpProbing c.tp)).max)
  rw [hmax']
  rcases Bool.or_eq_true_iff.1 hf with hf | hf
  · exact (hkeep _ hf).mono (Nat.add_le_add_left (le_max_right _ _) _)
  refine ⟨_, mem_cons_self, _, rfl, hf, ?_⟩
  rw [pass_finEnd h env hf]
  exact Nat.add_le_add_left (le_max_left _ _) _

/-! ## Every step keeps the record -/

structure StateInv (v : View) : Prop where
  fin : FinSent v
  changes : ∀ ch ∈ v.changes, ch.ok
  walk : v.gone = false → Walk v.changes v.state

/-- A recorded change along an arrow. -/
lemma StateInv.change (h : StateInv v) (he : v.state = t ∨ Edge v.state t)
    (hack : ackOfFin v.state t = true → FinBy v.passes v.unaPos) : StateInv (v.change t) where
  fin := h.fin
  changes := forall_mem_cons.2 ⟨.inr ⟨rfl, he.imp_right .inl, hack⟩, h.changes⟩
  walk hg := ⟨rfl, h.walk hg, fun hc => absurd hc (Change.not_spawned he)⟩

lemma Advance.edge (h : Advance v t) : Edge v.state t := by
  cases h with
  | userClose hst => rw [hst]; exact .close
  | userCloseWait hst => rw [hst]; exact .closePassive
  | peerFin hst => rw [hst]; exact .rcvFin
  | peerFin1 hst => rw [hst]; exact .rcvFinEarly
  | peerFin2 hst => rw [hst]; exact .rcvFinLate
  | finAcked hst _ _ => rw [hst]; exact .rcvAckOfFin
  | finAckedClosing hst _ _ => rw [hst]; exact .rcvAckOfFinClosing

/-- **ACK of FIN.** The code takes these arrows only with `TF_SENTFIN` set
and nothing in flight, and then the FIN is acknowledged. -/
lemma Advance.ackOfFin (h : Advance v t) (hs : FinSent v) (ha : ackOfFin v.state t = true) :
    FinBy v.passes v.unaPos := by
  have hall : v.sentfin = true → v.una = v.max → FinBy v.passes v.unaPos := by
    intro hf hm
    have := hs hf
    rwa [hm, Seq32.dist_self] at this
  cases h with
  | userClose hst | userCloseWait hst | peerFin hst | peerFin1 hst | peerFin2 hst =>
    rw [hst] at ha; exact absurd ha (by decide)
  | finAcked _ hf hm | finAckedClosing _ hf hm => exact hall hf hm

/-- `tcp_established` walks to ESTABLISHED and, for a closed socket, on. -/
lemma OpenChanges.ok (h : OpenChanges v t cs) (hst : v.state = .synSent ∨ v.state = .synReceived)
    (hc : ∀ ch ∈ v.changes, ch.ok) : ∀ ch ∈ cs, ch.ok := by
  have hopen : ∀ u, Change.ok ⟨v.state, .established, false, u, v.passes⟩ := by
    intro u
    refine .inr ⟨rfl, .inr (.inl ?_), fun ha => ?_⟩
    · rcases hst with hst | hst <;> rw [hst]
      · exact .rcvSynAck
      · exact .rcvAckOfSyn
    · rcases hst with hst | hst <;> rw [hst] at ha <;> exact absurd ha Bool.false_ne_true
  cases h with
  | established u => exact forall_mem_cons.2 ⟨hopen u, hc⟩
  | finWait1 u =>
    have hclose : Change.ok ⟨.established, .finWait1, false, u, v.passes⟩ :=
      .inr ⟨rfl, .inr (.inl .close), fun ha => absurd ha Bool.false_ne_true⟩
    exact forall_mem_cons.2 ⟨hclose, forall_mem_cons.2 ⟨hopen u, hc⟩⟩

lemma OpenChanges.walk (h : OpenChanges v t cs) (hw : Walk v.changes v.state) : Walk cs t := by
  cases h with
  | established u => exact ⟨rfl, hw, nofun⟩
  | finWait1 u => exact ⟨rfl, ⟨rfl, hw, nofun⟩, nofun⟩

lemma micro_stateInv {ok : UInt32 → UInt32 → Prop} (a b : Nat × View)
    (h : SendInv a.1 a.2 ∧ StateInv a.2) (hm : Micro ok a b) : SendInv b.1 b.2 ∧ StateInv b.2 := by
  refine ⟨micro_sendInv h.1 hm, ?_⟩
  obtain ⟨hi, hs⟩ := h
  cases hm with
  | pass env c =>
    have ho := once_outRel hi env
    refine ⟨once_finSent hi hs.fin env, by rw [ho.changes]; exact hs.changes, fun hg => ?_⟩
    rw [ho.changes, ho.state]
    exact hs.walk (ho.gone.symm.trans hg)
  | timers _ _ | setNxt _ _ | recover | enter _ _ _ _ | leave | clear | sack _ _ | hiwat _ _ | send _ _ _ | force _ =>
    exact ⟨hs.fin, hs.changes, hs.walk⟩
  | gone => exact ⟨hs.fin, hs.changes, fun hg => absurd hg (by simp)⟩
  | newAck ack he h0 h1 hr hok =>
    refine ⟨fun hf => ?_, hs.changes, hs.walk⟩
    rename_i v
    show FinBy v.passes (v.unaPos + dist v.una ack + dist ack v.max)
    rw [dist_rebase h1]
    exact (hs.fin hf).mono (by dsimp only at h1 ⊢; omega)
  | handshake t cs ht hst hm =>
    refine ⟨fun hf => ?_, ht.ok hst hs.changes, fun hg => ht.walk (hs.walk hg)⟩
    have hno := (hi.syn (hi.synState hst)).2.2.2.1
    exact absurd (hno.symm.trans hf) (by decide)
  | simultaneous hst =>
    have hc := hs.change (.inr (by rw [hst]; exact .simultaneousOpen))
      (fun ha => by rw [hst] at ha; exact absurd ha (by decide))
    exact ⟨hc.fin, hc.changes, hc.walk⟩
  | advance t ha => exact hs.change (.inr ha.edge) (ha.ackOfFin hs.fin)
  | dropping hst =>
    exact ⟨hs.fin, forall_mem_cons.2 ⟨.inl ⟨rfl, hst, rfl⟩, hs.changes⟩, fun hg => ⟨rfl, hs.walk hg, nofun⟩⟩
  | lastAcked hst hf hm =>
    refine ⟨hs.fin, forall_mem_cons.2 ⟨?_, hs.changes⟩, fun hg => absurd hg (by simp)⟩
    refine .inr ⟨rfl, .inr (.inl .rcvAckOfFinLast), fun _ => ?_⟩
    have := hs.fin hf
    rwa [hm, Seq32.dist_self] at this
  | listen hst hf =>
    refine hs.change ?_ (fun ha => ?_)
    · rcases hst with hst | hst <;> rw [hst]
      · exact .inr .passiveOpen
      · exact .inl rfl
    · rcases hst with hst | hst <;> rw [hst] at ha <;> exact absurd ha (by decide)
  | connect isn hst hf =>
    refine ⟨fun hfin => absurd (hf.sentfin.symm.trans hfin) (by decide),
      forall_mem_cons.2 ⟨.inr ⟨rfl, .inr (.inl ?_), fun ha => ?_⟩, hs.changes⟩, fun hg => ⟨rfl, hs.walk hg, nofun⟩⟩
    · rw [hst]; exact .activeOpen
    · rw [hst] at ha; exact absurd ha Bool.false_ne_true

lemma Base.stateInv (h : Base s v) : StateInv v := by
  refine ⟨fun hf => absurd (h.fresh.sentfin.symm.trans hf) (by decide), ?_, fun _ => ?_⟩
  · rcases h.changes with ⟨-, hc⟩ | ⟨-, hc⟩ <;> rw [hc]
    · intro ch hch; cases hch
    refine forall_mem_cons.2 ⟨.inr ⟨rfl, .inr (.inr ⟨rfl, rfl⟩), fun ha => ?_⟩, fun ch hch => by cases hch⟩
    exact absurd ha Bool.false_ne_true
  · rcases h.changes with ⟨hst, hc⟩ | ⟨hst, hc⟩ <;> rw [hst, hc]
    · rfl
    · exact ⟨rfl, rfl, fun _ => rfl⟩

/-- **The TCP state machine.** In every reachable state every change of
`tp->state` so far was a reset, the first step of a listener's child or an
arrow of the diagram, the arrows that mean "our FIN was acknowledged" were taken after a FIN had been sent and was
covered by the acknowledgements, and the changes lead to the current state. -/
theorem state_machine {c : Conn} (h : system.Reachable c) :
    (∀ ch ∈ c.changes, ch.ok) ∧ (c.gone = false → Walk c.changes c.tp.state) := by
  have hall : (system.restrict (AckOk fun _ _ => True)).Reachable c := h.restrict fun _ _ _ _ _ _ _ _ => trivial
  obtain ⟨s, ⟨-, hs⟩, -, -⟩ := reachable_keeps (fun s v hb => ⟨hb.sendInv, hb.stateInv⟩) micro_stateInv hall
  exact ⟨hs.changes, hs.walk⟩

/-- Connect, be accepted, shut down, have the FIN acknowledged: the record of
a client that reaches FIN-WAIT-2. -/
def Conn.finWait2 : Conn := [(Env.ether 1000, Ev.connect 7 true),
   (Env.ether 1000, Ev.input ⟨100, 8, { ThFlags.none with syn := true, ack := true }, 1000, [], []⟩),
   (Env.ether 1000, Ev.shutdown false true),
   (Env.ether 1000, Ev.input ⟨101, 9, { ThFlags.none with ack := true }, 1000, [], []⟩)].foldl step .attached

theorem state_machine_finWait2 : Conn.finWait2.changes.map (fun ch => (ch.old, ch.new)) =
      [(.finWait1, .finWait2), (.established, .finWait1), (.synSent, .established), (.closed, .synSent)] ∧
    (∀ ch ∈ Conn.finWait2.changes, ch.ok) ∧ Walk Conn.finWait2.changes Conn.finWait2.tp.state := by
  have hr := state_machine (c := Conn.finWait2)
    (LTS.Reachable.run (.of_init (.attach _ _ _)) (LTS.run_ofFn Init step _ .attached))
  exact ⟨by decide, hr.1, hr.2 (by decide)⟩

/-- The connection that a SYN to a listener makes, accepted and then aborted. -/
def Conn.childAborted : Conn := [(Env.ether 1000, Ev.input ⟨101, 8, { ThFlags.none with ack := true }, 1000, [], []⟩),
   (Env.ether 1000, Ev.abort)].foldl step
  (tcpOutput (Env.ether 1000) (tcpListenChild (Env.ether 1000) { Conn.attached with tp.state := .listen }
    ⟨100, 0, { ThFlags.none with syn := true }, .empty, [], 1, 1000⟩ true 7))

/-- A listener's child goes from CLOSED to SYN-RECEIVED and not through
LISTEN, and `tcp_drop` takes it from ESTABLISHED to CLOSED. -/
theorem child_skips_listen : system.Reachable Conn.childAborted ∧
    Conn.childAborted.changes.map (fun ch => (ch.old, ch.new)) =
      [(.established, .closed), (.synReceived, .established), (.closed, .synReceived)] ∧
    ¬ Edge .closed .synReceived ∧ ¬ Edge .established .closed :=
  ⟨LTS.Reachable.run (.of_init (.syn (Env.ether 1000) { Conn.attached with tp.state := .listen } _
      ⟨100, 0, { ThFlags.none with syn := true }, .empty, [], 1, 1000⟩ true 7 rfl (by decide) (by decide) rfl))
      (LTS.run_ofFn Init step _ _),
    by decide, nofun, nofun⟩

end Hermes.L3.Tcp
