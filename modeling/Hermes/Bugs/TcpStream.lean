import Hermes.L3Net.Tcp.Resend

/-!
# The send stream shifts by one byte after 2 GiB

`tcp_drop_acked_data` takes the SYN off the acknowledged count with
`if (SEQ_LEQ(tp->snd_una, tp->iss)) acked--;`. The comparison is modular, so
it is true again once `snd_una` has moved `2^31` bytes away from `iss`. From
then on every new acknowledgement leaves one acknowledged byte in the send
buffer: the byte is sent again under a new sequence number and everything
behind it is shifted.

The run: a client connects with `iss = 0`, then writes one byte at a time
and has each one acknowledged (`oneByte`). After `2^31 - 1` rounds
`snd_una = 2^31`; in the next round the byte stays in the buffer.
-/
namespace Hermes.L3.Tcp.Bugs

open Hermes.Seq32

/-! ## What `tcp_output` does not touch -/

/-- The part of a connection the peer and the socket layer decide. -/
structure Aux where
  so : Sock
  cwnd : UInt32
  wnd : UInt32
  scale : Nat
  mss : Nat

def aux (c : Conn) : Aux := ⟨{ c.so with snd := [] }, c.tp.sndCwnd, c.tp.sndWnd, c.tp.sndScale, c.tp.mss⟩

variable (env : Env) {c : Conn} {r : Nat}

lemma aux_tcpOutputOnce (c : Conn) : aux (tcpOutputOnce env c).1 = aux c := by
  have hp : ∀ d : Conn, aux (tcpSetpersist d) = aux d := fun _ => view_ite rfl rfl
  have ht : ∀ d : Conn, aux (tcpAfterSendTimer d) = aux d := fun d => by
    unfold tcpAfterSendTimer tcpPersistEnds
    split
    · split <;> rfl
    · rfl
  unfold tcpOutputOnce
  dsimp only
  split
  · exact view_ite rfl (view_ite rfl (hp _))
  split
  · rfl
  unfold tcpAfterSend
  split
  · rfl
  rw [ht]
  rfl

lemma aux_tcpOutputLoop (fuel : Nat) (c : Conn) : aux (tcpOutputLoop env fuel c) = aux c := by
  induction fuel generalizing c with
  | zero => rfl
  | succ n ih =>
    unfold tcpOutputLoop
    dsimp only
    split
    · rw [ih, aux_tcpOutputOnce]
    · exact aux_tcpOutputOnce env c

/-- After an idle period the congestion window is cut to the initial one. -/
lemma aux_tcpOutput (c : Conn) : aux (tcpOutput env c) = aux c ∨
    aux (tcpOutput env c) = { aux c with cwnd := newrenoInitialWindow c.tp } := by
  unfold tcpOutput
  rw [aux_tcpOutputLoop]
  unfold tcpOutputIdle newrenoAfterIdle
  split
  · split
    · exact .inr rfl
    · exact .inl rfl
  · exact .inl rfl

/-! ## One round -/

/-- The socket and the windows during the run. -/
structure Calm (a : Aux) : Prop where
  connected : a.so.isConnected = true
  cantSendMore : a.so.cantSendMore = false
  error : a.so.error = 0
  hiwat : 0 < a.so.sndHiwat
  rcvHiwat : a.so.rcvHiwat ≤ socketMaxBuffer
  cwnd_pos : 0 < a.cwnd.toNat
  cwnd_le : a.cwnd.toNat ≤ tcpCwndMax.toNat
  wnd : a.wnd = 1000
  scale : a.scale = 0
  mss : a.mss = 536

/-- Everything written so far is acknowledged. -/
structure Ready (r : Nat) (c : Conn) : Prop where
  inv : SendInv 0 c.view
  gone : c.gone = false
  est : c.tp.state = .established
  empty : c.so.snd = []
  written : c.stream.length = r
  iss : c.tp.iss = 0
  una : c.tp.sndUna = 1 + UInt32.ofNat r
  fastrec : c.tp.fastrecovery = false
  calm : Calm (aux c)

lemma Calm.output (h : Calm (aux c)) (env : Env) : Calm (aux (tcpOutput env c)) := by
  rcases aux_tcpOutput env c with he | he
  · rw [he]; exact h
  rw [he]
  have hm : c.tp.mss = 536 := h.mss
  have hw : newrenoInitialWindow c.tp = 2144 := by unfold newrenoInitialWindow; rw [hm]; rfl
  exact { h with cwnd_pos := by rw [hw]; exact (by decide : 0 < (2144 : UInt32).toNat),
                 cwnd_le := by rw [hw]; exact (by decide : (2144 : UInt32).toNat ≤ tcpCwndMax.toNat) }

variable {s : Nat} {sg : TcpSeg} {g : Conn}

lemma plan_established (h : SendInv s c.view) (hest : c.tp.state = .established) :
    (tcpPlan env c.tp c.so).flags.fin = false ∧ (tcpPlan env c.tp c.so).flags.syn = false ∧
    (tcpPlan env c.tp c.so).flags.rst = false := by
  have hpl := planOk h env
  have hs : c.view.state = .established := hest
  refine ⟨eq_false_of_ne_true fun hc => ?_, eq_false_of_ne_true fun hc => ?_, by rw [hpl.rst, hs]; rfl⟩
  · have := (hpl.fin hc).2
    rw [hs] at this
    cases this
  have := (hpl.syn hc).2.2
  rw [hs] at this
  simp at this

/-- One byte buffered, nothing in flight: the pass sends it and `snd_max` moves. -/
lemma once_oneByte (now : Nat) (h : SendInv 0 c.view) (hest : c.tp.state = .established)
    (hfast : c.tp.fastrecovery = false) (hcc : c.so.snd.length = 1) (hmax : c.tp.sndMax = c.tp.sndUna)
    (hw : c.tp.sndWnd ≠ 0) (hcw : c.tp.sndCwnd ≠ 0) :
    dist c.tp.sndUna (tcpOutputOnce (.ether now) c).1.tp.sndMax = 1 := by
  have hnxt : c.tp.sndNxt = c.tp.sndUna := by
    have hd : dist c.tp.sndUna c.tp.sndNxt ≤ dist c.tp.sndUna c.tp.sndMax := h.nxt_le
    rw [hmax, Seq32.dist_self] at hd
    exact (Seq32.dist_eq_zero.1 (by omega)).symm
  have hpl := planOk h (.ether now)
  obtain ⟨-, hseq, hne⟩ := plan_from_una h (.ether now) (by rw [hest]; rfl) hfast hnxt hw hcw
  have hne := hne fun h0 => by rw [h0] at hcc; cases hcc
  have hst := (stop_dist h hpl).1
  obtain ⟨hd, -⟩ := hpl.data hne
  rw [show c.view.snd.length = 1 from hcc] at hd
  have hlen : (tcpPlan (.ether now) c.tp c.so).len.toNat = 1 := by
    have : (tcpPlan (.ether now) c.tp c.so).len.toNat ≠ 0 := fun h0 => hne (UInt32.toNat_inj.1 h0)
    omega
  have hflags := plan_established (.ether now) h hest
  rw [hseq, hlen, hflags.1, hflags.2.1, show dist c.view.una c.tp.sndUna = 0 from Seq32.dist_self _] at hst
  have hsend : tcpPlanSends (.ether now) c.tp c.so = true := by
    unfold tcpPlanSends tcpShouldSend
    rw [if_pos]
    refine ⟨hne, .inr (.inr (.inr (.inr ?_)))⟩
    unfold tcpNagleAllows sbCc
    rw [hmax, hcc, decide_eq_true rfl, Bool.true_or, Bool.true_and, decide_eq_true_eq, ge_iff_le, UInt32.le_iff_toNat_le,
      UInt32.toNat_add]
    change 1 ≤ _
    omega
  obtain ⟨h1, -⟩ | ⟨-, h1, -⟩ | ⟨-, h1, -⟩ | ⟨-, -, -, hv⟩ := once_cases (.ether now) c
  · exact absurd (h1.symm.trans hsend) (by decide)
  · exact absurd h1 (by simp [Env.ether])
  · exact absurd (h1.symm.trans hflags.2.2) (by decide)
  have hd := afterSend_max (v := c.passView (some (tcpPassSegment (.ether now) c.tp c.so)))
    (h.of_view rfl) (hpl.passView _) (tcpProbing c.tp)
  rw [show (tcpOutputOnce (.ether now) c).1.tp.sndMax = _ from congrArg View.max hv]
  refine hd.trans ?_
  rw [show dist (c.passView _).una (c.passView _).max = dist c.tp.sndUna c.tp.sndMax from rfl, hmax, Seq32.dist_self]
  exact (Nat.max_zero _).trans hst

/-- The byte is written and in flight. -/
structure Sent (r : Nat) (c : Conn) : Prop where
  inv : SendInv 0 c.view
  gone : c.gone = false
  est : c.tp.state = .established
  one : c.so.snd = [0x2a]
  written : c.stream.length = r + 1
  iss : c.tp.iss = 0
  una : c.tp.sndUna = 1 + UInt32.ofNat r
  max : c.tp.sndMax = c.tp.sndUna + 1
  fastrec : c.tp.fastrecovery = false
  calm : Calm (aux c)

lemma no_fin_established (h : SendInv s c.view) (he : c.tp.state = .established) : c.tp.sentfin = false := by
  cases hf : c.tp.sentfin with
  | false => rfl
  | true =>
    have := h.fin hf
    rw [show c.view.state = .established from he] at this
    exact absurd this (by decide)

lemma Ready.max (h : Ready r c) : c.tp.sndMax = c.tp.sndUna := by
  have hno : c.view.sentfin = false := no_fin_established h.inv h.est
  have hm := h.inv.max_le
  rw [hno, show c.view.snd = [] from h.empty] at hm
  change dist c.tp.sndUna c.tp.sndMax ≤ 0 at hm
  exact (Seq32.dist_eq_zero.1 (by omega)).symm

lemma sendByte_eq (h : Ready r c) : sendByte c = tcpOutput (.ether 1000) (sockAppend c [0x2a]) := by
  have hc := h.calm
  have h1 : c.so.isConnected = true := hc.connected
  have h2 : c.so.cantSendMore = false := hc.cantSendMore
  have h3 : c.so.error = 0 := hc.error
  have h4 : 0 < c.so.sndHiwat := hc.hiwat
  have hsp : sockbufSpace c.so.snd c.so.sndHiwat = c.so.sndHiwat := by
    unfold sockbufSpace; rw [h.empty, if_pos (by simpa using h4)]; simp
  have hstep : sendByte c = sockSend (.ether 1000) c [0x2a] := by
    unfold sendByte step; rw [if_neg (by rw [h.gone]; decide)]
  rw [hstep]
  unfold sockSend
  rw [if_neg (by rw [h2]; decide), if_neg (by rw [h3]; decide), if_neg (by rw [h1]; decide)]
  rw [if_neg (by omega), List.take_of_length_le (by simp; omega)]
  unfold tcpSend
  rw [if_neg (by rw [h.est]; decide)]

/-- The first pass of the loop sends the byte. -/
lemma output_oneByte (now : Nat) (h : SendInv 0 c.view) (hest : c.tp.state = .established)
    (hfast : c.tp.fastrecovery = false) (hcc : c.so.snd.length = 1) (hmax : c.tp.sndMax = c.tp.sndUna)
    (hcalm : Calm (aux c)) : 1 ≤ dist c.tp.sndUna (tcpOutput (.ether now) c).tp.sndMax := by
  have hv := view_tcpOutputIdle (.ether now) c
  have ha : Calm (aux (tcpOutputIdle (.ether now) c)) := by
    have h1 := hcalm.output (.ether now)
    unfold tcpOutput at h1
    rwa [aux_tcpOutputLoop] at h1
  unfold tcpOutput tcpOutputFuel
  generalize tcpOutputIdle (.ether now) c = e at hv ha ⊢
  have hu : e.tp.sndUna = c.tp.sndUna := congrArg View.una hv
  have hm : e.tp.sndMax = c.tp.sndMax := congrArg View.max hv
  have hie : SendInv 0 e.view := by rw [hv]; exact h
  have hw : e.tp.sndWnd = 1000 := ha.wnd
  have hee := (Conn.state_of_view hv).trans hest
  have hef := (congrArg View.fastrec hv).trans hfast
  have hes : e.so.snd.length = 1 := by rw [show e.so.snd = c.so.snd from congrArg View.snd hv]; exact hcc
  have h1 := once_oneByte now hie hee hef hes
    (by rw [hm, hu]; exact hmax) (by rw [hw]; decide) (fun h0 => by
      have := ha.cwnd_pos
      rw [show (aux e).cwnd = 0 from h0] at this
      cases this)
  have h2 := outputLoop_succ (.ether now) (c.so.snd.length + dist c.tp.sndUna c.tp.sndMax + 1) hie
  have h3 : (tcpOutputOnce (.ether now) e).1.tp.sndUna = e.tp.sndUna := (once_outRel hie (.ether now)).una
  generalize tcpOutputOnce (.ether now) e = o at h1 h2 h3
  generalize tcpOutputLoop (.ether now) _ e = f at h2 ⊢
  have h4 : dist o.1.tp.sndUna o.1.tp.sndMax ≤ dist o.1.tp.sndUna f.tp.sndMax := h2.max_le
  rw [h3, h1, hu] at h4
  exact h4

/-- The byte in the buffer. -/
lemma Ready.append (h : Ready r c) : SendInv 0 (sockAppend c [0x2a]).view := by
  have hlen : c.view.snd.length + [(0x2a : UInt8)].length ≤ c.view.hiwat := by
    have h4 : 0 < c.so.sndHiwat := h.calm.hiwat
    rw [show c.view.snd = [] from h.empty]
    show 0 + 1 ≤ c.so.sndHiwat
    omega
  exact @micro_sendInv (fun _ _ => True) (0, c.view) _ h.inv
    (Micro.send [0x2a] (by rw [show c.view.state = .established from h.est]; decide) hlen)

lemma ready_sent (h : Ready r c) : Sent r (sendByte c) := by
  rw [sendByte_eq h]
  have hmx := h.max
  have hc := h.calm
  have hi := h.append
  have hcalm : Calm (aux (sockAppend c [0x2a])) := hc
  have hsnd : (sockAppend c [0x2a]).so.snd = [0x2a] := by
    show c.so.snd ++ [0x2a] = [0x2a]
    rw [h.empty]; rfl
  have hwr : (sockAppend c [0x2a]).stream.length = r + 1 := by
    show (c.stream ++ [0x2a]).length = r + 1
    rw [List.length_append, h.written]; rfl
  generalize hd : sockAppend c [0x2a] = d at hi hcalm hsnd hwr ⊢
  have hde : d.tp = c.tp := by rw [← hd]; rfl
  have hdg : d.gone = false := by rw [← hd]; exact h.gone
  have ho := output_outRel (.ether 1000) hi
  have hoi := output_sendInv (.ether 1000) hi
  have hcal := hcalm.output (.ether 1000)
  have hge := output_oneByte 1000 hi (by rw [hde]; exact h.est) (by rw [hde]; exact h.fastrec)
    (by rw [hsnd]; rfl) (by rw [hde]; exact hmx) hcalm
  generalize tcpOutput (.ether 1000) d = f at ho hoi hcal hge ⊢
  have hfu : f.tp.sndUna = c.tp.sndUna := by rw [show f.tp.sndUna = d.tp.sndUna from ho.una, hde]
  have hfe : f.tp.state = .established := by rw [show f.tp.state = d.tp.state from ho.state, hde]; exact h.est
  have hfs : f.so.snd = [0x2a] := by rw [show f.so.snd = d.so.snd from ho.snd]; exact hsnd
  have hno : f.view.sentfin = false := no_fin_established hoi hfe
  have hle : dist f.tp.sndUna f.tp.sndMax ≤ 1 := by
    have hm := hoi.max_le
    rw [hno, show f.view.snd = [0x2a] from hfs] at hm
    exact hm
  refine ⟨hoi, (show f.gone = d.gone from ho.gone).trans hdg, hfe, hfs, ?_, ?_, ?_, ?_, ?_, hcal⟩
  · rw [show f.stream = d.stream from ho.stream]; exact hwr
  · rw [show f.tp.iss = d.tp.iss from ho.iss, hde]; exact h.iss
  · rw [hfu]; exact h.una
  · rw [hde, ← hfu] at hge
    refine dist_inj (u := f.tp.sndUna) ?_
    have := dist_add_self f.tp.sndUna 1
    rw [UInt32.toNat_one] at this
    omega
  · rw [show f.tp.fastrecovery = d.tp.fastrecovery from ho.fastrec, hde]; exact h.fastrec

lemma rcvSpace_lt (c : Conn) (hrcv : c.so.rcvHiwat ≤ socketMaxBuffer) : (tcpRcvSpace c).toNat < 2 ^ 31 := by
  have hadv : (tcpAdvertised c.tp).toNat < 2 ^ 31 := by
    unfold tcpAdvertised
    split
    · rename_i hg
      have hg : int32 (c.tp.rcvAdv - c.tp.rcvNxt) > 0 := of_decide_eq_true hg
      unfold int32 at hg
      have := (c.tp.rcvAdv - c.tp.rcvNxt).toNat_lt
      omega
    · decide
  have hsb : sockbufSpace c.so.rcv c.so.rcvHiwat ≤ socketMaxBuffer := by unfold sockbufSpace; split <;> omega
  unfold socketMaxBuffer at hsb
  unfold tcpRcvSpace
  dsimp only
  split
  · rw [UInt32.toNat_ofNat']; omega
  · exact hadv

/-- An empty segment at `rcv_nxt` is not trimmed. -/
lemma trim_pureAck (hseq : sg.seq = c.tp.rcvNxt) (hlen : sg.len = 0) (hw : c.tp.rcvWnd.toNat < 2 ^ 31) :
    tcpTrimSegment c sg = (c, sg, true) := by
  have hleft : tcpTrimLeft c sg = (c, sg) := by
    unfold tcpTrimLeft
    rw [hseq, UInt32.sub_self, if_neg (by decide)]
  unfold tcpTrimSegment
  rw [hleft]
  unfold tcpTrimRight
  dsimp only
  rw [hseq, hlen, if_neg]
  have : (c.tp.rcvNxt + 0 - (c.tp.rcvNxt + c.tp.rcvWnd)).toNat = (2 ^ 32 - c.tp.rcvWnd.toNat) % 2 ^ 32 := by
    rw [UInt32.add_zero, UInt32.toNat_sub, UInt32.toNat_add]
    omega
  unfold int32
  split <;> omega

/-- A pure ACK at `rcv_nxt` passes every check. -/
lemma syncCheck_pureAck (hseq : sg.seq = c.tp.rcvNxt) (hlen : sg.len = 0)
    (hfl : sg.flags = { ThFlags.none with ack := true }) (hts : sg.opts.ts = none)
    (hrcv : c.so.rcvHiwat ≤ socketMaxBuffer) : tcpInputSyncCheck env c sg = .ack (tcpOpenWindow c) sg := by
  have htrim : tcpTrimSegment (tcpOpenWindow c) sg = (tcpOpenWindow c, sg, true) :=
    trim_pureAck hseq hlen (rcvSpace_lt c hrcv)
  unfold tcpInputSyncCheck
  generalize tcpOpenWindow c = d at htrim ⊢
  have hpaws : tcpPawsOk env d sg = (d, true) := by unfold tcpPawsOk; rw [hts]
  have hup : tcpUpdateTsRecent env d sg = d := by unfold tcpUpdateTsRecent; rw [hts]
  dsimp only
  rw [hpaws]
  rw [htrim]
  rw [hup, hfl]
  rfl

/-- A pure ACK of an established connection goes to ACK processing. -/
lemma check_pureAck {a : UInt32} (hsc : c.tp.sndScale = 0) (hrcv : c.so.rcvHiwat ≤ socketMaxBuffer) :
    ∃ g sg, tcpInputSyncCheck (.ether 1000) (tcpHeard (.ether 1000) c) (tcpReadSegment c.tp (pureAck c a)) = .ack g sg ∧
      g.kept = c.kept ∧ aux g = aux c ∧ sg.ack = a ∧ sg.wnd = 1000 ∧ sg.len = 0 ∧ sg.flags.fin = false ∧
      sg.opts = TcpOpts.empty := by
  generalize hsg : tcpReadSegment c.tp (pureAck c a) = sg
  have hsgw : sg.wnd = 1000 := by rw [← hsg]; unfold tcpReadSegment; rw [hsc]; rfl
  have hsgf : sg.flags = { ThFlags.none with ack := true } := by rw [← hsg]; rfl
  exact ⟨_, sg, syncCheck_pureAck _ (by rw [← hsg]; rfl) (by rw [← hsg]; rfl) hsgf (by rw [← hsg]; rfl) hrcv, rfl, rfl,
    by rw [← hsg]; rfl, hsgw, by rw [← hsg]; rfl, by rw [hsgf]; rfl, by rw [← hsg]; rfl⟩

/-- A new acknowledgement without a FIN in flight. -/
lemma processAck_new (hfast : c.tp.fastrecovery = false) (hno : c.tp.sentfin = false) (ho : sg.opts = TcpOpts.empty)
    (h1 : gt sg.ack c.tp.sndMax = false) (h2 : leq sg.ack c.tp.sndUna = false) :
    tcpProcessAckSync env c sg = (tcpNewAck env c sg, .cont) := by
  have hns : (tcpNewAck env c sg).tp.sentfin = false := (congrArg View.sentfin (view_tcpNewAck env c sg hfast)).trans hno
  have htk : tcpTakeSacks c sg = c := by unfold tcpTakeSacks; rw [ho]; rfl
  unfold tcpProcessAckSync
  rw [h1, htk]
  dsimp only
  rw [h2]
  unfold tcpOurFinAcked
  rw [hns]
  rfl

/-! ## The acknowledgement -/

/-- Outside recovery a new acknowledgement grows the window. -/
lemma newAck_aux (env : Env) (sg : TcpSeg) (hf : g.tp.fastrecovery = false) :
    ∃ e, aux e = aux g ∧ aux (tcpNewAck env g sg) = aux (newrenoAckReceived e (sg.ack - g.tp.sndUna)) := by
  have hadv : ∀ d ack acked, aux (tcpNewAckAdvance d ack acked) = aux d := by
    intro d ack acked
    unfold tcpNewAckAdvance
    have h1 : aux (tcpDropAckedData d ack acked) = aux d := by unfold tcpDropAckedData; dsimp only; split <;> rfl
    generalize tcpDropAckedData d ack acked = e at h1 ⊢
    rw [← h1]
    unfold tcpNewAckTimer
    split
    · rfl
    · split <;> rfl
  have hr : aux (tcpRttSample env g sg) = aux g ∧ (tcpRttSample env g sg).tp.fastrecovery = false := by
    refine ⟨?_, (congrArg View.fastrec (view_tcpRttSample env g sg)).trans hf⟩
    have hm : aux (tcpRttMeasure env g sg) = aux g := by
      unfold tcpRttMeasure
      split
      · rfl
      · split <;> rfl
    unfold tcpRttSample
    split <;> exact hm
  unfold tcpNewAck
  dsimp only
  rw [hadv]
  unfold tcpNewAckRecovery
  generalize tcpRttSample env g sg = d at hr ⊢
  obtain ⟨hr, hdf⟩ := hr
  dsimp only
  rw [if_pos (by rw [hdf]; rfl)]
  exact ⟨{ d with tp.dupacks := 0 }, hr, rfl⟩

lemma Calm.newAck (h : Calm (aux g)) (env : Env) (sg : TcpSeg) (hf : g.tp.fastrecovery = false) (hw : sg.wnd = 1000) :
    Calm (aux (tcpUpdateWindow (tcpNewAck env g sg) sg)) := by
  have hnew : Calm (aux (tcpNewAck env g sg)) := by
    obtain ⟨e, he, ha⟩ := newAck_aux env sg hf
    rw [← he] at h
    obtain ⟨w, hg, h1, h2⟩ := ackReceived_cwnd (sg.ack - g.tp.sndUna)
      (by rw [show e.tp.mss = 536 from h.mss]; decide) h.cwnd_le
    rw [ha, hg]
    exact { h with cwnd_pos := h.cwnd_pos.trans_le h1, cwnd_le := h2 }
  -- a window update can only write the window it already had
  unfold tcpUpdateWindow
  split
  · exact { hnew with wnd := hw }
  · exact hnew

/-- The view once the acknowledgement of the byte is processed. -/
lemma Sent.acked (h : Sent r c) :
    ∃ f, step c (.ether 1000, .input (pureAck c (c.tp.sndUna + 1))) = tcpOutput (.ether 1000) f ∧
      f.view = { c.view.newAck c.tp.sndMax with rexmt := false } ∧ Calm (aux f) ∧ SendInv 0 f.view := by
  have hno := no_fin_established h.inv h.est
  have hd1 : dist c.tp.sndUna (c.tp.sndUna + 1) = 1 := dist_add_self _ 1
  have hgt : gt (c.tp.sndUna + 1) c.tp.sndMax = false := by rw [h.max]; simp [gt, int32]
  have hle : leq (c.tp.sndUna + 1) c.tp.sndUna = false := by
    have := leq_iff (u := c.tp.sndUna) (a := c.tp.sndUna + 1) (b := c.tp.sndUna) (by omega)
      (by rw [Seq32.dist_self]; omega)
    rw [Seq32.dist_self] at this
    by_contra hc
    exact absurd (this.1 (by simpa using hc)) (by omega)
  obtain ⟨g, sg, hck, hk, ha, hsa, hsw, hsl, hsf, hso⟩ := check_pureAck h.calm.scale h.calm.rcvHiwat
  have hv := Conn.view_of_kept hk
  have hgu : g.tp.sndUna = c.tp.sndUna := congrArg View.una hv
  have hgf : g.tp.fastrecovery = false := (congrArg View.fastrec hv).trans h.fastrec
  have heq := input_of_ack hck (by rw [h.est]; rfl) hsl hsf (processAck_new _ hgf ((congrArg View.sentfin hv).trans hno) hso
    (by rw [hsa, show g.tp.sndMax = c.tp.sndMax from congrArg View.max hv]; exact hgt) (by rw [hsa, hgu]; exact hle))
  refine ⟨tcpUpdateWindow (tcpNewAck (.ether 1000) g sg) sg, ?_, ?_, ?_, ?_⟩
  · rw [← heq]
    unfold step
    rw [if_neg (by rw [h.gone]; decide)]
  · rw [view_tcpUpdateWindow, view_tcpNewAck _ _ _ hgf, hv, hsa, ← h.max,
      if_pos (show c.tp.sndMax = c.view.max from rfl)]
  · exact Calm.newAck (by rw [ha]; exact h.calm) _ sg hgf hsw
  rw [view_tcpUpdateWindow, view_tcpNewAck _ _ _ hgf, hv, hsa, ← h.max]
  have hmx : dist c.view.una c.view.max = 1 := by
    show dist c.tp.sndUna c.tp.sndMax = 1
    rw [h.max]; exact hd1
  have hnew : SendInv 0 (c.view.newAck c.tp.sndMax) := newAck_sendInv h.inv
    (by rw [show c.view.state = .established from h.est]; rfl)
    (by show 0 < dist c.view.una c.view.max; omega) le_rfl
    (fun hf => absurd (h.fastrec.symm.trans hf) (by decide))
  exact hnew.of_view rfl

/-- A round is the new acknowledgement and what `tcp_output` does after it: the byte goes unless `snd_una`
seems to be at the SYN still. -/
lemma oneByte_spec (h : Ready r c) : SendInv 0 (oneByte c).view ∧ Calm (aux (oneByte c)) ∧
    (oneByte c).gone = false ∧ (oneByte c).tp.state = .established ∧
    (oneByte c).so.snd = (if leq (1 + UInt32.ofNat r) 0 then [0x2a] else []) ∧ (oneByte c).stream.length = r + 1 ∧
    (oneByte c).tp.iss = 0 ∧ (oneByte c).tp.sndUna = 1 + UInt32.ofNat (r + 1) ∧ (oneByte c).tp.fastrecovery = false := by
  have hs := ready_sent h
  obtain ⟨f, he, hv, hcal, hi⟩ := hs.acked
  have hr : oneByte c = tcpOutput (.ether 1000) f := by
    unfold oneByte
    rw [← hs.una.trans h.una.symm, he]
  have ho := output_outRel (.ether 1000) hi
  rw [hr, ← hs.una]
  refine ⟨output_sendInv _ hi, hcal.output _, ?_⟩
  rw [hv] at ho
  have hb : (sendByte c).view.ackedBytes (sendByte c).tp.sndMax = if leq (sendByte c).tp.sndUna 0 then 0 else 1 := by
    show (if (sendByte c).tp.sentfin && _ then _ else if leq (sendByte c).tp.sndUna (sendByte c).tp.iss then
      (sendByte c).tp.sndMax - (sendByte c).tp.sndUna - 1 else (sendByte c).tp.sndMax - (sendByte c).tp.sndUna) = _
    rw [no_fin_established hs.inv hs.est, hs.iss, hs.max, UInt32.add_comm, UInt32.add_sub_cancel]
    rfl
  generalize tcpOutput (.ether 1000) f = e at ho ⊢
  generalize sendByte c = d at hs hb ho ⊢
  refine ⟨ho.gone.trans hs.gone, ho.state.trans hs.est, ho.snd.trans ?_, ?_, ho.iss.trans hs.iss, ho.una.trans ?_,
    ho.fastrec.trans hs.fastrec⟩
  · show d.so.snd.drop (min (d.view.ackedBytes d.tp.sndMax).toNat d.so.snd.length) = _
    rw [hb, hs.one]
    split <;> rfl
  · rw [show e.stream = d.stream from ho.stream]; exact hs.written
  · rw [hs.max, hs.una, UInt32.ofNat_add, ← UInt32.add_assoc]; rfl

lemma una_toNat (hr : r + 1 < 2 ^ 32) : (1 + UInt32.ofNat r).toNat = r + 1 := by
  rw [UInt32.toNat_add, UInt32.toNat_ofNat', UInt32.toNat_one]; omega

/-- A round in the first half of the sequence space. -/
lemma ready_oneByte (h : Ready r c) (hr : r + 1 < 2 ^ 31) : Ready (r + 1) (oneByte c) := by
  obtain ⟨hi, hcalm, hg, he, hsnd, hw, hiss, hu, hf⟩ := oneByte_spec h
  have hle : leq (1 + UInt32.ofNat r) 0 = false := by
    have := una_toNat (r := r) (by omega)
    unfold leq int32
    rw [UInt32.sub_zero, this, if_pos (by omega)]
    simp
  rw [hle] at hsnd
  exact ⟨hi, hg, he, hsnd, hw, hiss, hu, hf, hcalm⟩

/-! ## The run -/

/-- `r` one-byte rounds. -/
def rounds : Nat → Conn
  | 0 => connected
  | r + 1 => oneByte (rounds r)

lemma rounds_reachable (r : Nat) : system.Reachable (rounds r) := by
  induction r with
  | zero => exact connected_reachable
  | succ r ih =>
    unfold rounds
    exact reachable_step (reachable_step ih _) _

lemma connected_sendInv : SendInv 0 connected.view := by
  have hall : (system.restrict (AckOk fun _ _ => True)).Reachable connected :=
    connected_reachable.restrict fun _ _ _ _ _ _ _ _ => trivial
  obtain ⟨s, -, hi, -⟩ := reachable_keeps (fun _ _ _ => trivial) (fun _ _ _ _ => trivial) hall
  have hs0 : s = 0 := hi.est (by decide)
  rwa [hs0] at hi

lemma connected_ready : Ready 0 connected :=
  ⟨connected_sendInv, by decide, by decide, by decide, by decide, by decide, by decide, by decide,
    ⟨by decide, by decide, by decide, by decide, by decide, by decide, by decide, by decide, by decide, by decide⟩⟩

lemma rounds_ready (r : Nat) (hr : r < 2 ^ 31) : Ready r (rounds r) := by
  induction r with
  | zero => exact connected_ready
  | succ r ih => exact ready_oneByte (ih (by omega)) hr

/-- **Counterexample.** After `2^31` one-byte writes, each acknowledged, the
last byte is still in the buffer although `snd_una` is past it: the stream
and the sequence numbers no longer agree. -/
theorem stream_shifts : system.Reachable (rounds (2 ^ 31)) ∧ ¬ StreamIntact (rounds (2 ^ 31)) := by
  refine ⟨rounds_reachable _, fun hi => ?_⟩
  have hr : rounds (2 ^ 31) = oneByte (rounds (2 ^ 31 - 1)) := rfl
  obtain ⟨-, -, -, h3, h1, h2, h4, h5, -⟩ := oneByte_spec (rounds_ready (2 ^ 31 - 1) (by omega))
  -- at `snd_una = iss + 2^31` the acknowledged byte stays in the buffer
  have hle : leq (1 + UInt32.ofNat (2 ^ 31 - 1)) 0 = true := by decide
  rw [hle, if_pos rfl] at h1
  rw [← hr] at h1 h2 h3 h4 h5
  have hh := hi.head (by rw [h3]; rfl) (.inr (by rw [h1]; simp))
  rw [h1, h2, h4, h5] at hh
  exact absurd hh (by decide)

end Hermes.L3.Tcp.Bugs
