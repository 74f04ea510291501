import Hermes.L3Net.Tcp.SendMachine

/-!
# Every handler is a path of sender steps

The refinement from the model of the code to the sender machine: for each
function of the model that touches the send side, a path from the view
before to the view after. `OutRel` is what `tcp_output` leaves alone, so
that a caller can go on after it.
-/
namespace Hermes.L3.Tcp

open Hermes.Seq32

/-! ## `tcp_output` -/

/-- What any number of output passes may have changed. -/
structure OutRel (v v' : View) : Prop where
  state : v'.state = v.state
  iss : v'.iss = v.iss
  una : v'.una = v.una
  recover : v'.recover = v.recover
  fastrec : v'.fastrec = v.fastrec
  blocks : v'.blocks = v.blocks
  snd : v'.snd = v.snd
  hiwat : v'.hiwat = v.hiwat
  gone : v'.gone = v.gone
  stream : v'.stream = v.stream
  unaPos : v'.unaPos = v.unaPos
  changes : v'.changes = v.changes
  max_le : dist v.una v.max ≤ dist v.una v'.max
  sentfin : v.sentfin = true → v'.sentfin = true
  newFin : v'.sentfin = true → v.sentfin = true ∨ (tcpOutflags v.state).fin = true

lemma OutRel.refl (v : View) : OutRel v v :=
  ⟨rfl, rfl, rfl, rfl, rfl, rfl, rfl, rfl, rfl, rfl, rfl, rfl, le_rfl, id, .inl⟩

lemma OutRel.record (v : View) (ps : List Pass) : OutRel v { v with passes := ps } :=
  ⟨rfl, rfl, rfl, rfl, rfl, rfl, rfl, rfl, rfl, rfl, rfl, rfl, le_rfl, id, .inl⟩

lemma OutRel.trans {a b d : View} (h : OutRel a b) (h' : OutRel b d) : OutRel a d where
  state := h'.state.trans h.state
  iss := h'.iss.trans h.iss
  una := h'.una.trans h.una
  recover := h'.recover.trans h.recover
  fastrec := h'.fastrec.trans h.fastrec
  blocks := h'.blocks.trans h.blocks
  snd := h'.snd.trans h.snd
  hiwat := h'.hiwat.trans h.hiwat
  gone := h'.gone.trans h.gone
  stream := h'.stream.trans h.stream
  unaPos := h'.unaPos.trans h.unaPos
  changes := h'.changes.trans h.changes
  max_le := by have := h'.max_le; rw [h.una] at this; exact h.max_le.trans this
  sentfin := h'.sentfin ∘ h.sentfin
  newFin := fun hf => by
    rcases h'.newFin hf with h1 | h1
    · exact h.newFin h1
    · rw [h.state] at h1; exact .inr h1

variable {s : Nat} {c : Conn}

lemma once_outRel (h : SendInv s c.view) (env : Env) : OutRel c.view (tcpOutputOnce env c).1.view := by
  obtain ⟨-, -, p, hv, -⟩ | ⟨-, -, he⟩ | ⟨-, -, -, hv⟩ | ⟨-, -, -, hv⟩ := once_cases env c
  · rw [hv]
    exact ⟨rfl, rfl, rfl, rfl, rfl, rfl, rfl, rfl, rfl, rfl, rfl, rfl, le_rfl, id, .inl⟩
  · rw [he]; exact OutRel.record c.view _
  · rw [hv]; exact OutRel.record c.view _
  · rw [hv]
    have hp := planOk h env
    have hmax := afterSend_max (v := c.passView (some (tcpPassSegment env c.tp c.so)))
      (h.of_view rfl) (hp.passView _) (tcpProbing c.tp)
    refine ⟨rfl, rfl, rfl, rfl, rfl, rfl, rfl, rfl, rfl, rfl, rfl, rfl, ?_, fun hf => ?_, fun hf => ?_⟩
    · have hmax' : dist c.tp.sndUna _ = max _ (dist c.tp.sndUna c.tp.sndMax) := hmax
      show dist c.tp.sndUna c.tp.sndMax ≤ dist c.tp.sndUna _
      rw [hmax']; exact le_max_right _ _
    · exact Bool.or_eq_true_iff.2 (.inl hf)
    · exact (Bool.or_eq_true_iff.1 hf).imp id fun hf => (hp.fin hf).2

lemma outputLoop_spec (ok : UInt32 → UInt32 → Prop) (env : Env) :
    ∀ (fuel : Nat) (c : Conn), SendInv s c.view → Path ok (s, c.view) (s, (tcpOutputLoop env fuel c).view) ∧
      OutRel c.view (tcpOutputLoop env fuel c).view
  | 0, c, _ => ⟨.refl _, .refl _⟩
  | fuel + 1, c, h => by
    have h1 := once_sendInv h env
    have hp : Path ok (s, c.view) (s, (tcpOutputOnce env c).1.view) := (Micro.pass env c).path
    have ho := once_outRel h env
    unfold tcpOutputLoop
    dsimp only
    split
    · obtain ⟨hp', ho'⟩ := outputLoop_spec ok env fuel _ h1
      exact ⟨hp.trans hp', ho.trans ho'⟩
    · exact ⟨hp, ho⟩

/-- The loop goes on from its first pass. -/
lemma outputLoop_succ (env : Env) (fuel : Nat) (h : SendInv s c.view) :
    OutRel (tcpOutputOnce env c).1.view (tcpOutputLoop env (fuel + 1) c).view := by
  have h1 := once_sendInv h env
  unfold tcpOutputLoop
  dsimp only
  generalize tcpOutputOnce env c = o at h1 ⊢
  split
  · exact (outputLoop_spec (fun _ _ => True) env fuel o.1 h1).2
  · exact .refl _

section Output

variable (ok : UInt32 → UInt32 → Prop) (env : Env) {s : Nat} {c : Conn} (h : SendInv s c.view)
include h

lemma output_path : Path ok (s, c.view) (s, (tcpOutput env c).view) := by
  have := (outputLoop_spec ok env (tcpOutputFuel c) (tcpOutputIdle env c) (by rw [view_tcpOutputIdle]; exact h)).1
  rwa [view_tcpOutputIdle] at this

lemma output_outRel : OutRel c.view (tcpOutput env c).view := by
  have := (outputLoop_spec (fun _ _ => True) env (tcpOutputFuel c) (tcpOutputIdle env c)
    (by rw [view_tcpOutputIdle]; exact h)).2
  rwa [view_tcpOutputIdle] at this

lemma output_sendInv : SendInv s (tcpOutput env c).view := (output_path (fun _ _ => True) env h).sendInv h

/-! ## Closing and dropping -/

omit h in
lemma close_path : Path ok (s, c.view) (s, (tcpClose c).view) := by
  rw [view_tcpClose]
  exact (Micro.timers false false).path.trans Micro.gone.path

lemma drop_path (error : Nat) : Path ok (s, c.view) (s, (tcpDrop env c error).view) ∧
    (tcpDrop env c error).gone = true := by
  have hgone : ∀ d : Conn, (tcpClose d).gone = true := fun d => by
    have : (tcpClose d).view.gone = true := by rw [view_tcpClose]
    exact this
  refine ⟨?_, hgone _⟩
  unfold tcpDrop
  -- the reset goes out from the CLOSED state
  have h1 : Path ok (s, c.view)
      (s, (if c.tp.state.haveRcvdSyn then tcpOutput env (tcpStateReset c) else c).view) := by
    split
    · rename_i hst
      have hd : Path ok (s, c.view) (s, (tcpStateReset c).view) := (Micro.dropping hst).path
      exact hd.trans (output_path ok env (hd.sendInv h))
    · exact .refl _
  refine h1.trans ?_
  generalize (if c.tp.state.haveRcvdSyn then tcpOutput env (tcpStateReset c) else c) = d
  have hd : (if !d.so.detached then { d with so.error := error } else d).view = d.view :=
    view_ite rfl rfl
  have := close_path (s := s) (c := if !d.so.detached then { d with so.error := error } else d) ok
  rwa [hd] at this

end Output

/-! ## Retransmission and recovery -/

section Recovery

variable (ok : UInt32 → UInt32 → Prop) (env : Env) {s : Nat} {c : Conn} (h : SendInv s c.view)
include h

/-- `snd_nxt` goes back to `start`, something is sent, and `snd_nxt` is
where it was or further. -/
lemma retransmitFrom_spec (start cwnd : UInt32) (hs : dist c.tp.sndUna start ≤ dist c.tp.sndUna c.tp.sndMax) :
    Path ok (s, c.view) (s, (tcpRetransmitFrom env c start cwnd).1.view) ∧
    OutRel c.view (tcpRetransmitFrom env c start cwnd).1.view ∧
    dist c.tp.sndUna (tcpRetransmitFrom env c start cwnd).2 ≤
      dist c.tp.sndUna (tcpRetransmitFrom env c start cwnd).1.tp.sndMax := by
  have h0 : Path ok (s, c.view) (s, ({ c with tp.sndNxt := start, tp.sndCwnd := cwnd } : Conn).view) :=
    (Micro.setNxt start hs).path
  have h1 := h0.sendInv h
  have hp := h0.trans (output_path ok env h1)
  have ho := output_outRel env h1
  have hnx := (output_sendInv env h1).nxt_le
  unfold tcpRetransmitFrom
  dsimp only
  generalize tcpOutput env _ = d at hp ho hnx ⊢
  have hrel : OutRel c.view d.view :=
    ⟨ho.state, ho.iss, ho.una, ho.recover, ho.fastrec, ho.blocks, ho.snd, ho.hiwat, ho.gone,
      ho.stream, ho.unaPos, ho.changes, ho.max_le, ho.sentfin, ho.newFin⟩
  have hun : d.view.una = c.tp.sndUna := ho.una
  rw [hun] at hnx
  split
  · refine ⟨hp.trans (Micro.setNxt c.tp.sndNxt ?_).path, ?_, hnx⟩
    · rw [hun]; exact h.nxt_le.trans hrel.max_le
    exact ⟨hrel.state, hrel.iss, hrel.una, hrel.recover, hrel.fastrec, hrel.blocks, hrel.snd,
      hrel.hiwat, hrel.gone, hrel.stream, hrel.unaPos, hrel.changes, hrel.max_le, hrel.sentfin,
      hrel.newFin⟩
  · exact ⟨hp, hrel, hnx⟩

/-- Congestion control and recovery ahead of a new acknowledgement: the
acknowledgement stays inside the flight and, in recovery, below
`snd_recover`. What a partial acknowledgement sends leaves more in flight. -/
lemma newAckRecovery_spec (seg : TcpSeg) (acked : UInt32)
    (h1 : dist c.tp.sndUna seg.ack ≤ dist c.tp.sndUna c.tp.sndMax) :
    Path ok (s, c.view) (s, (tcpNewAckRecovery env c seg acked).view) ∧
    (tcpNewAckRecovery env c seg acked).view.state = c.tp.state ∧
    (tcpNewAckRecovery env c seg acked).view.iss = c.tp.iss ∧
    (tcpNewAckRecovery env c seg acked).view.una = c.tp.sndUna ∧
    dist c.tp.sndUna seg.ack ≤ dist c.tp.sndUna (tcpNewAckRecovery env c seg acked).view.max ∧
    ((tcpNewAckRecovery env c seg acked).view.fastrec = true →
      dist c.tp.sndUna seg.ack ≤ dist c.tp.sndUna (tcpNewAckRecovery env c seg acked).view.recover) ∧
    ((tcpNewAckRecovery env c seg acked).view.max = c.tp.sndMax ∧
        (tcpNewAckRecovery env c seg acked).view.sentfin = c.tp.sentfin ∨
      dist c.tp.sndUna seg.ack < dist c.tp.sndUna (tcpNewAckRecovery env c seg acked).view.max) := by
  unfold tcpNewAckRecovery
  have hv := view_tcpRttSample env c seg
  generalize tcpRttSample env c seg = d at hv ⊢
  have hd : SendInv s d.view := by rw [hv]; exact h
  have hun : d.tp.sndUna = c.tp.sndUna := congrArg View.una hv
  have hmx : d.tp.sndMax = c.tp.sndMax := congrArg View.max hv
  have hst : d.tp.state = c.tp.state := congrArg View.state hv
  have his : d.tp.iss = c.tp.iss := congrArg View.iss hv
  have hsf : d.tp.sentfin = c.tp.sentfin := congrArg View.sentfin hv
  rw [← hv]
  rw [← hun, ← hmx] at h1
  rw [← hun, ← hst, ← his, ← hmx, ← hsf]
  dsimp only
  split <;> rename_i hf
  · rw [view_newrenoAckReceived]
    exact ⟨.refl _, rfl, rfl, rfl, h1, fun hf' => by simp [show d.tp.fastrecovery = true from hf'] at hf,
      .inl ⟨rfl, rfl⟩⟩
  have hfr : d.tp.fastrecovery = true := by simpa using hf
  have hrec : dist d.tp.sndUna d.tp.sndRecover ≤ dist d.tp.sndUna d.tp.sndMax := hd.recover_le hfr
  have hw : dist d.tp.sndUna d.tp.sndMax < 2 ^ 31 := hd.window
  split
  swap
  · exact ⟨Micro.leave.path, rfl, rfl, rfl, h1, fun hf' => absurd hf' Bool.false_ne_true, .inl ⟨rfl, rfl⟩⟩
  rename_i hlt
  rw [lt_iff (u := d.tp.sndUna) (by omega) (by omega)] at hlt
  unfold tcpPartialAck
  split
  · exact ⟨.refl _, rfl, rfl, rfl, h1, fun _ => le_of_lt hlt, .inl ⟨rfl, rfl⟩⟩
  have h0 : Path ok (s, d.view) (s, ({ tcpTimerStop d .rexmt with tp.rttStart := 0 } : Conn).view) :=
    (Micro.timers false d.view.persist).path
  obtain ⟨hp, ho, -⟩ := retransmitFrom_spec ok env (h0.sendInv hd) seg.ack
    (UInt32.ofNat d.tp.mss + (seg.ack - d.tp.sndUna)) h1
  dsimp only
  generalize tcpRetransmitFrom env _ seg.ack _ = r at hp ho ⊢
  exact ⟨h0.trans hp, ho.state, ho.iss, ho.una, h1.trans ho.max_le, fun _ => by
      show _ ≤ dist d.tp.sndUna r.1.view.recover
      rw [ho.recover]
      exact le_of_lt hlt, .inr ((lt_of_lt_of_le hlt hrec).trans_le ho.max_le)⟩

end Recovery

/-! ## A new acknowledgement -/

lemma view_tcpDropAckedData (c : Conn) (ack : UInt32) : (tcpDropAckedData c ack (ack - c.tp.sndUna)).view =
      { c.view with snd := c.view.snd.drop (min (c.view.ackedBytes ack).toNat c.view.snd.length) } := by
  have hb : tcpAckedBytes c.tp ack (ack - c.tp.sndUna) = c.view.ackedBytes ack := rfl
  unfold tcpDropAckedData
  rw [hb]
  dsimp only
  split
  · rename_i h0
    rw [h0]
    simp
  · rfl

lemma view_tcpNewAckTimer (c : Conn) (ack : UInt32) :
    (tcpNewAckTimer c ack).view = { c.view with
      rexmt := if ack = c.view.max then false else c.view.rexmt || !c.view.persist } := by
  unfold tcpNewAckTimer
  split <;> rename_i h
  · rw [view_stop_rexmt, if_pos (show ack = c.view.max from h)]
  rw [if_neg (show ¬ ack = c.view.max from h)]
  unfold tcpTimerActive Tcpcb.timer
  dsimp only
  rw [show c.tp.tPersist.isSome = c.view.persist from rfl]
  cases hp : c.view.persist
  · simp [hp]
  simp only [Bool.not_true, Bool.false_eq_true, if_false, Bool.or_false]
  rw [← hp]

lemma view_tcpNewAckAdvance (c : Conn) (ack : UInt32) : (tcpNewAckAdvance c ack (ack - c.tp.sndUna)).view =
      { c.view.newAck ack with
        rexmt := if ack = c.view.max then false else c.view.rexmt || !c.view.persist } := by
  unfold tcpNewAckAdvance
  have hv := view_tcpDropAckedData c ack
  generalize tcpDropAckedData c ack (ack - c.tp.sndUna) = d at hv ⊢
  have hd : (tcpAdvanceUna d ack).view =
      { d.view with una := ack, nxt := if lt d.view.nxt ack then ack else d.view.nxt,
                    blocks := tcpSackTrim ack d.view.blocks,
                    rxmit := if lt d.view.rxmit ack then ack else d.view.rxmit,
                    unaPos := d.view.unaPos + dist d.view.una ack } := rfl
  rw [view_tcpNewAckTimer, hd, hv]
  rfl

/-- Outside recovery only the congestion window moves besides. -/
lemma view_tcpNewAckRecovery (env : Env) (c : Conn) (seg : TcpSeg) (acked : UInt32)
    (hf : c.tp.fastrecovery = false) : (tcpNewAckRecovery env c seg acked).view = c.view := by
  have hr := view_tcpRttSample env c seg
  unfold tcpNewAckRecovery
  generalize tcpRttSample env c seg = d at hr ⊢
  have hd : d.tp.fastrecovery = false := (congrArg View.fastrec hr).trans hf
  rw [if_pos (by rw [hd]; rfl), view_newrenoAckReceived, ← hr]
  rfl

lemma view_tcpNewAck (env : Env) (c : Conn) (seg : TcpSeg) (hf : c.tp.fastrecovery = false) :
    (tcpNewAck env c seg).view = { c.view.newAck seg.ack with
      rexmt := if seg.ack = c.view.max then false else c.view.rexmt || !c.view.persist } := by
  have hr := view_tcpNewAckRecovery env c seg (seg.ack - c.tp.sndUna) hf
  unfold tcpNewAck
  dsimp only
  generalize tcpNewAckRecovery env c seg (seg.ack - c.tp.sndUna) = d at hr ⊢
  rw [show c.tp.sndUna = d.tp.sndUna from (congrArg View.una hr).symm, view_tcpNewAckAdvance, hr]

/-! ## The handshake -/

lemma not_leq_gt {a b : UInt32} (h : leq a b = false) : gt a b = true := by
  simp only [gt, leq, decide_eq_false_iff_not, decide_eq_true_eq] at h ⊢; omega

variable {v : View} {u m : UInt32} {bs : List SackBlock}

/-- An acceptable ACK of the SYN acknowledges exactly the SYN. -/
lemma syn_ack {ack : UInt32} (h : SendInv s v) (hst : v.state = .synSent ∨ v.state = .synReceived)
    (h1 : leq ack v.una = false) (h2 : gt ack v.max = false) : ack = v.max ∧ v.max ≠ v.una ∧ dist v.una v.max = 1 := by
  obtain ⟨h3, h4⟩ := dist_of_gt_leq h.window (not_leq_gt h1) h2
  have h5 := (h.syn (h.synState hst)).2.1
  have h6 : ack = v.max := dist_inj (u := v.una) (by omega)
  refine ⟨h6, fun hc => ?_, by omega⟩
  rw [hc, Seq32.dist_self] at h4; omega

/-- Moving a number of a one-byte flight up to its end. -/
lemma forward_one {x : UInt32} (hm : dist u m = 1) (hx : dist u x ≤ dist u m) : (if lt x m then m else x) = m := by
  by_cases hc : lt x m = true
  · rw [if_pos hc]
  rw [if_neg hc]
  rw [lt_iff (u := u) (by omega) (by omega)] at hc
  exact dist_inj (u := u) (by omega)

lemma trim_all (hm : dist u m < 2 ^ 31) (h : Scoreboard u m bs) : tcpSackTrim m bs = [] := by
  induction bs with
  | nil => rfl
  | cons b rest ih =>
    have hb := (h.ok b List.mem_cons_self).2
    unfold tcpSackTrim
    rw [if_pos ((leq_iff (by omega) hm).2 hb)]
    exact ih (h.sublist (List.sublist_cons_self b rest))

/-- A new acknowledgement of a lone SYN removes no data. -/
lemma newAck_syn (t : TcpState) (cs : List Change) (h : SendInv s v)
    (hst : v.state = .synSent ∨ v.state = .synReceived) (hm : dist v.una v.max = 1) (hb : Scoreboard v.una v.max bs) :
    ({ v with state := t, changes := cs, blocks := bs } : View).newAck v.max = v.synced t cs := by
  obtain ⟨hiss, -, -, hsf, -⟩ := h.syn (h.synState hst)
  have hd : v.max - v.una = 1 := UInt32.toNat_inj.1 hm
  have hz : ({ v with state := t, changes := cs, blocks := bs } : View).ackedBytes v.max = 0 := by
    unfold View.ackedBytes
    have : leq v.iss v.iss = true := by simp [leq, int32]
    rw [hd, hsf, hiss, this]
    rfl
  unfold View.newAck View.synced
  rw [hz]
  rw [forward_one hm h.nxt_le, forward_one hm h.rxmit_le, trim_all h.window hb]
  simp

end Hermes.L3.Tcp
