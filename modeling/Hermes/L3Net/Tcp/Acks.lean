import Hermes.L3Net.Tcp.Control

/-!
# ACK processing

From duplicate acknowledgements and recovery up to `tcp_process_ack`: each
function is a `Acts`, or ends the connection.

* `enterRecovery_acts`, `dupack_acts`: duplicate acknowledgements (tcp_input.c:491-530).
* `newAck_acts`, `ourFinAcked_acked`: a new one, and one that covers our FIN.
* `processAck_acked`: `tcp_process_ack` (tcp_input.c:612) in every state that has seen a SYN.
-/
namespace Hermes.L3.Tcp

open Hermes.Seq32

/-! ## Recovery -/

section Recovery

variable (G : Guard) (env : Env) {s : Nat} {c : Conn} (h : SendInv s c.view)
include h

lemma enterRecovery_acts (he : c.tp.state.haveEstablished = true) :
    Acts G s c s (tcpEnterRecovery env c) ∧ (tcpEnterRecovery env c).tp.state = c.tp.state := by
  -- `snd_recover := snd_max`, the retransmission timer off
  have hv : (tcpRecoveryStart c).view = { c.view with recover := c.view.max, rexmt := false } := rfl
  obtain ⟨_, hc⟩ : ∃ r, (tcpRecoveryStart c).ctl = { c.ctl with rttStart := r } := ⟨_, rfl⟩
  have h0 : Path G.ok (s, c.view) (s, (tcpRecoveryStart c).view) :=
    Micro.recover.path.trans (Micro.timers false c.view.persist).path
  unfold tcpEnterRecovery
  dsimp only
  generalize tcpRecoveryStart c = c1 at hv hc h0 ⊢
  have h1 := h0.sendInv h
  obtain ⟨hp, ho, hn⟩ := retransmitFrom_spec G.ok env h1 c1.tp.sndUna (UInt32.ofNat c1.tp.mss)
    (by rw [Seq32.dist_self]; omega)
  obtain ⟨st, hr⟩ := ctl_retransmitFrom env c1 c1.tp.sndUna (UInt32.ofNat c1.tp.mss)
  generalize tcpRetransmitFrom env c1 c1.tp.sndUna (UInt32.ofNat c1.tp.mss) = r at hp ho hn hr ⊢
  have hstate : r.1.view.state = c.tp.state := by rw [ho.state, hv]; rfl
  have hrec : dist r.1.view.una r.1.view.recover ≤ dist r.1.view.una r.1.view.max := by
    have := ho.max_le
    rw [ho.recover, ho.una]
    rw [hv] at this ⊢
    exact this
  have hp' := h0.trans hp
  have hmark : ∃ x, dist r.1.view.una x ≤ dist r.1.view.una r.1.view.max ∧
      (tcpRecoveryMark r.1 r.2).view = { r.1.view with fastrec := true, rxmit := x } := by
    unfold tcpRecoveryMark
    split
    · exact ⟨r.2, by rw [ho.una]; exact hn, rfl⟩
    · exact ⟨r.1.tp.sackRxmit, (hp'.sendInv h).rxmit_le, rfl⟩
  have hctl : (tcpRecoveryMark r.1 r.2).ctl = r.1.ctl := view_ite rfl rfl
  obtain ⟨x, hx, hmv⟩ := hmark
  refine ⟨⟨?_, fun P hP hc' => ?_⟩, (congrArg View.state hmv).trans hstate⟩
  · rw [hmv]
    exact hp'.trans (Micro.enter x (by rw [hstate]; exact he) hx hrec).path
  · rw [hctl, hr, hc]
    exact hP.timed c.ctl st hc'

lemma dupack_acts (seg : TcpSeg) (he : c.tp.state.haveEstablished = true) :
    Acts G s c s (tcpDupack env c seg) ∧ (tcpDupack env c seg).tp.state = c.tp.state := by
  unfold tcpDupack
  dsimp only
  split
  · exact ⟨.of_kept rfl, rfl⟩
  split
  · split <;> exact ⟨.of_kept rfl, rfl⟩
  split
  · obtain ⟨hw, hs⟩ := enterRecovery_acts (c := { c with tp.dupacks := c.tp.dupacks + 1 }) G env h he
    exact ⟨.trans (d := { c with tp.dupacks := c.tp.dupacks + 1 }) (.of_kept rfl) hw, hs⟩
  · exact ⟨.of_kept rfl, rfl⟩

end Recovery

/-! ## A new acknowledgement -/

section NewAck

variable (G : Guard) (env : Env) {s : Nat} {c : Conn} (seg : TcpSeg)

lemma rttSample_keeps (hs : ∀ rtt, Sampled env c.ctl seg.opts rtt → G.fine rtt) :
    Keeps G c (tcpRttSample env c seg) := by
  intro P hP h
  have hm : P (tcpRttMeasure env c seg).ctl := by
    unfold tcpRttMeasure
    split
    · rename_i ht
      simp only [Bool.and_eq_true, decide_eq_true_eq] at ht
      exact hP.sample env c _ h (hs _ (.inl ⟨ht.2, rfl⟩))
    split
    · rename_i ht
      simp only [tcpRttTimed, Bool.and_eq_true, decide_eq_true_eq] at ht
      exact hP.sample env c _ h (hs _ (.inr ⟨ht.1, rfl⟩))
    · exact h
  unfold tcpRttSample
  split
  · exact hP.timed _ 0 hm
  · exact hm

variable (hs : ∀ rtt, Sampled env c.ctl seg.opts rtt → G.fine rtt)
include hs

lemma newAck_keeps : Keeps G c (tcpNewAck env c seg) := by
  intro P hP h
  have hadv : ∀ (d : Conn) acked, (tcpNewAckAdvance d seg.ack acked).ctl = d.ctl := fun d acked => by
    have ht : ∀ e : Conn, (tcpNewAckTimer e seg.ack).ctl = e.ctl := fun e => view_ite rfl (view_ite rfl rfl)
    have hdrop : (tcpDropAckedData d seg.ack acked).ctl = d.ctl := view_ite rfl rfl
    rw [tcpNewAckAdvance, ht, ← hdrop]
    rfl
  have hd := rttSample_keeps G env seg hs P hP h
  rw [tcpNewAck, hadv]
  unfold tcpNewAckRecovery
  dsimp only
  generalize tcpRttSample env c seg = d at hd
  split
  · rwa [show (newrenoAckReceived { d with tp.dupacks := 0 } _).ctl = d.ctl from view_ite rfl rfl]
  split
  swap
  · exact hd
  unfold tcpPartialAck
  split
  · exact hd
  obtain ⟨r, hw⟩ := ctl_retransmitFrom env { tcpTimerStop d .rexmt with tp.rttStart := 0 } seg.ack
    (UInt32.ofNat d.tp.mss + (seg.ack - d.tp.sndUna))
  have hset : ∀ (e : Conn) w, ({ e with tp.sndCwnd := w } : Conn).ctl = e.ctl := fun _ _ => rfl
  rw [hset, hw]
  exact hP.timed d.ctl r hd

variable (h : SendInv s c.view)
include h

/-- What empties the flight found the FIN in it. -/
lemma newAck_acts (he : c.tp.state.haveEstablished = true) (h0 : 0 < dist c.tp.sndUna seg.ack)
    (h1 : dist c.tp.sndUna seg.ack ≤ dist c.tp.sndUna c.tp.sndMax) (hok : G.ok c.tp.sndUna c.tp.iss) :
    Acts G s c s (tcpNewAck env c seg) ∧ (tcpNewAck env c seg).tp.state = c.tp.state ∧
    ((tcpNewAck env c seg).tp.sndUna = (tcpNewAck env c seg).tp.sndMax →
      seg.ack = c.tp.sndMax ∧ (tcpNewAck env c seg).tp.sentfin = c.tp.sentfin) := by
  have hk := newAck_keeps G env seg hs
  obtain ⟨hp, hst, his, hun, hle, hrec, hlast⟩ := newAckRecovery_spec G.ok env h seg (seg.ack - c.tp.sndUna) h1
  unfold tcpNewAck at hk ⊢
  dsimp only at hk ⊢
  generalize tcpNewAckRecovery env c seg (seg.ack - c.tp.sndUna) = d at hp hst his hun hle hrec hlast hk ⊢
  rw [show seg.ack - c.tp.sndUna = seg.ack - d.tp.sndUna by rw [show d.tp.sndUna = _ from hun]] at hk ⊢
  have hv := view_tcpNewAckAdvance d seg.ack
  refine ⟨⟨?_, hk⟩, (congrArg View.state hv).trans hst, fun hm => ?_⟩
  · rw [hv]
    refine hp.trans (.trans (Micro.newAck seg.ack ?_ ?_ ?_ ?_ ?_).path (Micro.timers _ _).path)
    · rw [hst]; exact he
    · rw [hun]; exact h0
    · rw [hun]; exact hle
    · rw [hun]; exact hrec
    · rw [hun, his]; exact hok
  · have hack : seg.ack = d.view.max := (congrArg View.una hv).symm.trans (hm.trans (congrArg View.max hv))
    rcases hlast with ⟨h2, h3⟩ | hlt
    · exact ⟨hack.trans h2, (congrArg View.sentfin hv).trans h3⟩
    rw [hack] at hlt
    exact absurd hlt (lt_irrefl _)

end NewAck

/-! ## `tcp_process_ack` -/

/-- What a segment with an acknowledgement finds. -/
structure Guard.Meets (G : Guard) (env : Env) (c : Conn) (seg : TcpSeg) : Prop where
  ack : c.tp.state.haveEstablished = true → leq seg.ack c.tp.sndUna = false → gt seg.ack c.tp.sndMax = false →
    G.ok c.tp.sndUna c.tp.iss
  last : c.tp.state = .lastAck → c.tp.sentfin = true → seg.ack = c.tp.sndMax → G.tear
  fine : ∀ rtt, Sampled env c.ctl seg.opts rtt → G.fine rtt

/-- What ACK processing leaves: a connection that is gone, or one that goes
on, in a synchronized state unless the segment is dropped. -/
def Acked (G : Guard) (s : Nat) (c : Conn) (r : Conn × TcpAckResult) : Prop :=
  ∃ s', (r.2 = .gone ∧ r.1.gone = true ∧ Path G.ok (s, c.view) (s', r.1.view) ∧ Keeps G c r.1) ∨
    (r.2 ≠ .gone ∧ r.1.tp.state.haveRcvdSyn = true ∧ (r.1.tp.state.haveEstablished = decide (r.2 ≠ .drop)) ∧
      Acts G s c s' r.1)

lemma TcpState.haveEstablished_rcvdSyn {t : TcpState} (h : t.haveEstablished = true) : t.haveRcvdSyn = true := by
  revert h; cases t <;> decide

section Ack

variable {G : Guard} {env : Env} {s : Nat} {c : Conn} {seg : TcpSeg}

lemma Acked.goesOn {n : Nat} {d : Conn} (hw : Acts G s c n d) (he : d.tp.state.haveEstablished = true)
    {r : TcpAckResult} (h1 : r ≠ .gone) (h2 : r ≠ .drop) : Acked G s c (d, r) :=
  ⟨n, .inr ⟨h1, TcpState.haveEstablished_rcvdSyn he, by simp [he, h2], hw⟩⟩

lemma Acked.after {s' : Nat} {d : Conn} {r : Conn × TcpAckResult} (hw : Acts G s c s' d) (h : Acked G s' d r) :
    Acked G s c r := by
  obtain ⟨s'', ⟨h1, h2, h3, h4⟩ | ⟨h1, h2, h3, h4⟩⟩ := h
  · exact ⟨s'', .inl ⟨h1, h2, hw.path.trans h3, hw.keeps.trans h4⟩⟩
  · exact ⟨s'', .inr ⟨h1, h2, h3, hw.trans h4⟩⟩

lemma ourFinAcked_acked (he : c.tp.state.haveEstablished = true)
    (ht : c.tp.state = .lastAck → c.tp.sentfin = true → c.tp.sndUna = c.tp.sndMax → G.tear) :
    Acked G s c (tcpOurFinAcked c) := by
  have hsame : Acked G s c (c, .cont) := .goesOn (.of_kept rfl) he (by simp) (by simp)
  unfold tcpOurFinAcked
  split
  · exact hsame
  rename_i hn
  simp only [Bool.or_eq_true, not_or, decide_eq_true_eq, not_not, Bool.not_eq_true', Bool.not_eq_false] at hn
  split
  · rename_i hst
    have hw : Acts G s c s (tcpStateChange c .finWait2) :=
      ⟨(Micro.advance _ (.finAcked hst hn.1 hn.2)).path, .of_ctl rfl⟩
    dsimp only
    split
    · exact .goesOn (d := tcpTimerActivate _ .msl2 _) (hw.trans (.of_kept rfl)) rfl (by simp) (by simp)
    · exact .goesOn hw rfl (by simp) (by simp)
  · rename_i hst
    have hv := view_tcpEnterTimewait c
    refine .goesOn (n := s) ⟨?_, .of_ctl (ctl_enterTimewait c)⟩ ?_ (by simp) (by simp)
    · rw [hv]
      exact (Micro.advance _ (.finAckedClosing hst hn.1 hn.2)).path.trans (Micro.timers false false).path
    · rw [show (tcpEnterTimewait c).tp.state = .timeWait from congrArg View.state hv]
      rfl
  · rename_i hst
    refine ⟨s, .inl ⟨rfl, gone_tcpClose _, ?_, .torn (.inl (ht hst hn.1 hn.2)) (gone_tcpClose _)⟩⟩
    have hv : (c.note .closed false).view = { c.view with
        changes := ⟨.lastAck, .closed, false, c.view.unaPos, c.view.passes⟩ :: c.view.changes } := by
      unfold Conn.note; rw [hst]; rfl
    rw [view_tcpClose, hv]
    exact (Micro.lastAcked hst hn.1 hn.2).path.trans (Micro.timers false false).path
  · exact hsame

lemma ctl_takeSacks (c : Conn) (seg : TcpSeg) : (tcpTakeSacks c seg).ctl = c.ctl ∧
    ∃ bs, (tcpTakeSacks c seg).view = { c.view with blocks := bs } := by
  unfold tcpTakeSacks
  split
  · split <;> exact ⟨rfl, _, rfl⟩
  · exact ⟨rfl, _, rfl⟩

lemma takeSacks_acts (seg : TcpSeg) (he : c.tp.state.haveEstablished = true) :
    Acts G s c s (tcpTakeSacks c seg) := by
  unfold tcpTakeSacks
  split
  · split
    · exact ⟨(Micro.sack _ he).path, .of_ctl rfl⟩
    · exact .of_kept rfl
  · exact .of_kept rfl

lemma processAckSync_acked (h : SendInv s c.view) (he : c.tp.state.haveEstablished = true) (hm : G.Meets env c seg) :
    Acked G s c (tcpProcessAckSync env c seg) := by
  unfold tcpProcessAckSync
  split
  · exact .goesOn (.of_kept rfl) he (by simp) (by simp)
  rename_i hgt
  have hgt' : gt seg.ack c.tp.sndMax = false := by simpa using hgt
  dsimp only
  have hw : Acts G s c s (tcpTakeSacks c seg) := takeSacks_acts seg he
  obtain ⟨hk, bs, hv⟩ := ctl_takeSacks c seg
  generalize tcpTakeSacks c seg = d at hw hk hv ⊢
  have hun : d.tp.sndUna = c.tp.sndUna := congrArg View.una hv
  have hmx : d.tp.sndMax = c.tp.sndMax := congrArg View.max hv
  have hst : d.tp.state = c.tp.state := congrArg View.state hv
  have hdi := hw.path.sendInv h
  have hde : d.tp.state.haveEstablished = true := by rw [hst]; exact he
  split
  · obtain ⟨hdup, hds⟩ := dupack_acts G env hdi seg hde
    exact .goesOn (hw.trans hdup) (by rw [hds]; exact hde) (by simp) (by simp)
  rename_i hle
  have hle' : leq seg.ack c.tp.sndUna = false := by rw [hun] at hle; simpa using hle
  obtain ⟨h0, h1⟩ := dist_of_gt_leq h.window (not_leq_gt hle') hgt'
  obtain ⟨hn, hns, hlast⟩ := newAck_acts G env seg (by rw [hk]; exact hm.fine) hdi hde (by rw [hun]; exact h0)
    (by rw [hun, hmx]; exact h1) (by rw [hun, show d.tp.iss = c.tp.iss from congrArg View.iss hv]; exact hm.ack he hle' hgt')
  refine .after (hw.trans hn) (ourFinAcked_acked (by rw [hns]; exact hde) fun k1 k2 k3 => ?_)
  obtain ⟨ha, hf⟩ := hlast k3
  exact hm.last (hst.symm.trans (hns.symm.trans k1))
    ((congrArg View.sentfin hv).symm.trans (hf.symm.trans k2)) (ha.trans hmx)

/-- The third segment of the handshake in SYN-RECEIVED. -/
lemma synReceived_view (h : SendInv s c.view) (hst : c.tp.state = .synReceived) (h1 : leq seg.ack c.tp.sndUna = false)
    (h2 : gt seg.ack c.tp.sndMax = false) (hs : ∀ rtt, Sampled env c.ctl seg.opts rtt → G.fine rtt) :
    ∃ t cs, OpenChanges c.view t cs ∧ (tcpProcessAckSync env (tcpEstablished c) seg).2 = .cont ∧
      (tcpProcessAckSync env (tcpEstablished c) seg).1.view = { c.view.synced t cs with rexmt := false } ∧
      Keeps G c (tcpProcessAckSync env (tcpEstablished c) seg).1 := by
  obtain ⟨hack, -, hd⟩ := syn_ack h (.inr hst) h1 h2
  obtain ⟨-, -, hbl, hsf, hfr⟩ := h.syn (h.synState (.inr hst))
  obtain ⟨t, cs, hoc, hv⟩ := view_tcpEstablished c
  have hc := ctl_established c
  refine ⟨t, cs, hoc, ?_⟩
  generalize tcpEstablished c = d at hv hc ⊢
  have hdm : d.tp.sndMax = c.tp.sndMax := congrArg View.max hv
  -- the blocks of the same segment cannot survive
  have hsk : ∃ bs, (tcpTakeSacks d seg).view = { c.view with state := t, changes := cs, blocks := bs } ∧
      Scoreboard c.view.una c.view.max bs := by
    have h0 : Scoreboard c.view.una c.view.max [] := .nil _ _
    unfold tcpTakeSacks
    split
    · split
      · refine ⟨_, by rw [view_tcpSackUpdate, hv], ?_⟩
        rw [hbl]
        exact h0.update _ h.window
      · exact ⟨c.view.blocks, hv, by rw [hbl]; exact h0⟩
    · exact ⟨c.view.blocks, hv, by rw [hbl]; exact h0⟩
  obtain ⟨bs, he, hbs⟩ := hsk
  have hk := (ctl_takeSacks d seg).1.trans hc
  unfold tcpProcessAckSync
  rw [hdm, if_neg (by rw [h2]; simp)]
  dsimp only
  generalize tcpTakeSacks d seg = e at he hk ⊢
  have heu : e.tp.sndUna = c.tp.sndUna := congrArg View.una he
  have hef : e.tp.fastrecovery = false := (congrArg View.fastrec he).trans hfr
  rw [heu, if_neg (by rw [h1]; simp)]
  have hkn : Keeps G c (tcpNewAck env e seg) := .trans (.of_ctl hk) (newAck_keeps G env seg (by rw [hk]; exact hs))
  have hnew : (tcpNewAck env e seg).view = { c.view.synced t cs with rexmt := false } := by
    rw [view_tcpNewAck env e seg hef, he, hack]
    rw [show ({ c.view with state := t, changes := cs, blocks := bs } : View).newAck c.view.max =
      c.view.synced t cs from newAck_syn t cs h (.inr hst) hd hbs]
    simp
  generalize tcpNewAck env e seg = g at hnew hkn ⊢
  have hgf : g.tp.sentfin = false := by
    have : g.view.sentfin = false := by rw [hnew]; exact hsf
    exact this
  unfold tcpOurFinAcked
  rw [hgf]
  exact ⟨rfl, hnew, hkn⟩

lemma processAck_acked (h : SendInv s c.view) (he : c.tp.state.haveRcvdSyn = true) (hm : G.Meets env c seg) :
    Acked G s c (tcpProcessAck env c seg) := by
  unfold tcpProcessAck
  split <;> rename_i hst
  · split
    · have hk := kept_tcpRespond env c true 0 seg.ack { ThFlags.none with rst := true }
      refine ⟨s, .inr ⟨by simp, ?_, ?_, .of_kept hk⟩⟩
      · rw [Conn.state_of_view (view_tcpRespond ..)]
        exact he
      rw [Conn.state_of_view (view_tcpRespond ..), hst]
      rfl
    rename_i hn
    simp only [not_or, Bool.not_eq_true] at hn
    obtain ⟨-, hm', -⟩ := syn_ack h (.inr hst) hn.1 hn.2
    obtain ⟨t, cs, hoc, r1, r2, r3⟩ := synReceived_view h hst hn.1 hn.2 hm.fine
    generalize tcpProcessAckSync env (tcpEstablished c) seg = r at r1 r2 r3 ⊢
    obtain ⟨d, r⟩ := r
    obtain rfl : r = .cont := r1
    have hs : d.tp.state = t := congrArg View.state r2
    refine .goesOn (n := 0) ⟨?_, r3⟩ (by rw [hs]; exact hoc.est) (by simp) (by simp)
    rw [r2]
    exact (Micro.handshake t cs hoc (.inr hst) hm').path.trans (Micro.timers false c.view.persist).path
  · have hes : c.tp.state.haveEstablished = true := by
      revert he hst
      cases c.tp.state <;> decide
    exact processAckSync_acked h hes hm

end Ack

end Hermes.L3.Tcp
