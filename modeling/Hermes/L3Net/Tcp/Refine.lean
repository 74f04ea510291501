import Hermes.L3Net.Tcp.Acks

/-!
# The connection refines the sender machine

The event handlers: the synchronized input path, SYN-SENT, the timers and
the user requests. `step_handled` is the simulation: from a state whose view
satisfies `SendInv`, one event of `system` is a path of sender steps. The
same walk over the handlers shows that every stable property is kept.

CLOSED and LISTEN blocks need one more fact, since `tcp_connect` starts a
connection on them: nothing was ever sent from there (`FreshOk`). A block
that is dropped passes through CLOSED too, but is gone when the handler
returns.
-/
namespace Hermes.L3.Tcp

open Hermes.Seq32

/-- No connection yet. -/
def TcpState.idle : TcpState → Bool
  | .closed | .listen => true
  | _ => false

def FreshOk (s : Nat) (c : Conn) : Prop := c.tp.state.idle = true → s = 0 ∧ Fresh c.view

/-- `c'` is reached from `c` by sender steps, and is gone or may go on. -/
def Ran (ok : UInt32 → UInt32 → Prop) (s : Nat) (c c' : Conn) : Prop :=
  ∃ s', Path ok (s, c.view) (s', c'.view) ∧ (c'.gone = true ∨ FreshOk s' c')

lemma TcpState.haveRcvdSyn_not_idle {t : TcpState} (h : t.haveRcvdSyn = true) : t.idle = false := by
  revert h; cases t <;> decide

variable {s : Nat} {c d : Conn}

lemma FreshOk.of_rcvdSyn (h : c.tp.state.haveRcvdSyn = true) : FreshOk s c :=
  fun hi => absurd (hi.symm.trans (TcpState.haveRcvdSyn_not_idle h)) (by decide)

lemma FreshOk.of_view (h : FreshOk s c) (hv : d.view = c.view) : FreshOk s d := by
  intro hi
  rw [Conn.state_of_view hv] at hi
  rw [hv]
  exact h hi

lemma FreshOk.congr (hf : FreshOk s c) (hs : d.view.state = c.view.state)
    (hd : Fresh c.view → Fresh d.view) : FreshOk s d := by
  intro hi
  rw [show d.tp.state = c.tp.state from hs] at hi
  exact (hf hi).imp id hd

/-- `tcp_output` on a CLOSED or LISTEN block moves nothing. -/
lemma FreshOk.output (h : SendInv s c.view) (hf : FreshOk s c) (env : Env) : FreshOk s (tcpOutput env c) := by
  have ho := output_outRel env h
  have hi := output_sendInv env h
  intro hidle
  rw [show (tcpOutput env c).tp.state = c.tp.state from ho.state] at hidle
  obtain ⟨hs, f⟩ := hf hidle
  have hfin : (tcpOutput env c).view.sentfin = false := by
    by_contra hc
    rcases ho.newFin (by simpa using hc) with h1 | h1
    · exact absurd (f.sentfin.symm.trans h1) (by decide)
    have hne := TcpState.haveEstablished_rcvdSyn (outflags_fin_est h1)
    exact absurd (hidle.symm.trans (TcpState.haveRcvdSyn_not_idle hne)) (by decide)
  refine ⟨hs, ?_, ho.blocks.trans f.blocks, hfin, ho.fastrec.trans f.fastrec, ho.snd.trans f.snd,
    ho.stream.trans f.stream⟩
  have hm := hi.max_le
  rw [hs, hfin, ho.snd, f.snd] at hm
  exact (Seq32.dist_eq_zero.1 (by simpa using hm)).symm

/-- What a handler does: sender steps, with every stable property kept. -/
structure Handled (G : Guard) (s : Nat) (c d : Conn) : Prop where
  ran : Ran G.ok s c d
  keeps : Keeps G c d

section Combinators

variable {G : Guard} {env : Env} {s s' : Nat} {c d e : Conn}

lemma Conn.view_of_kept (h : d.kept = c.kept) : d.view = c.view := congrArg Prod.fst h

lemma Keeps.of_kept (h : d.kept = c.kept) : Keeps G c d := .of_ctl (congrArg Prod.snd h)

lemma Handled.of_kept (hf : FreshOk s c) (hk : d.kept = c.kept) :
    Handled G s c d := by
  have hv := Conn.view_of_kept hk
  exact ⟨⟨s, by rw [hv]; exact .refl _, .inr (hf.of_view hv)⟩, .of_kept hk⟩

lemma Handled.of_gone (hp : Path G.ok (s, c.view) (s', d.view)) (hk : Keeps G c d) (hg : d.gone = true) :
    Handled G s c d :=
  ⟨⟨s', hp, .inl hg⟩, hk⟩

/-- A handler that ends with `tcp_output`. -/
lemma Handled.output (h : SendInv s c.view) (hp : Path G.ok (s, c.view) (s', d.view)) (hk : Keeps G c d)
    (hf : FreshOk s' d) : Handled G s c (tcpOutput env d) := by
  have h' := hp.sendInv h
  exact ⟨⟨s', hp.trans (output_path G.ok env h'), .inr (hf.output h' env)⟩, hk.trans (.output env)⟩

lemma Handled.output_of_kept (h : SendInv s c.view) (hf : FreshOk s c) (hk : d.kept = c.kept) :
    Handled G s c (tcpOutput env d) := by
  have hv := Conn.view_of_kept hk
  exact .output h (by rw [hv]; exact .refl _) (.of_kept hk) (hf.of_view hv)

lemma Handled.close (hv : d.view = c.view) (ht : G.tear ∨ c.so.detached = true) : Handled G s c (tcpClose d) := by
  have hp : Path G.ok (s, d.view) (s, (tcpClose d).view) := close_path G.ok
  rw [hv] at hp
  exact .of_gone hp (.torn ht (gone_tcpClose d)) (gone_tcpClose d)

lemma Handled.drop (h : SendInv s c.view) (error : Nat) (hv : d.view = c.view) (ht : G.tear ∨ c.so.detached = true) :
    Handled G s c (tcpDrop env d error) := by
  obtain ⟨hp, hg⟩ := drop_path G.ok env (by rw [hv]; exact h) error
  rw [hv] at hp
  exact .of_gone hp (.torn ht hg) hg

/-- The rest of a handler, after some sender steps. -/
lemma Handled.after (hp : Path G.ok (s, c.view) (s', d.view)) (hk : Keeps G c d) (hd : Handled G s' d e) :
    Handled G s c e := by
  obtain ⟨⟨s'', hp', hr⟩, hk'⟩ := hd
  exact ⟨⟨s'', hp.trans hp', hr⟩, hk.trans hk'⟩

end Combinators

/-! ## Data and FIN -/

section Input

variable (G : Guard) (env : Env) {s : Nat} {c : Conn}

lemma processFin_acts (he : c.tp.state.haveEstablished = true) :
    Acts G s c s (tcpProcessFin c) ∧ (tcpProcessFin c).tp.state.haveEstablished = true := by
  unfold tcpProcessFin
  dsimp only
  generalize hd : (if !c.so.detached then { c with so := sockCantRecvMore c.so } else c) = d
  have hdk : d.kept = c.kept := by rw [← hd]; exact view_ite rfl rfl
  generalize he' : ({ d with tp.rcvNxt := d.tp.rcvNxt + 1, tp.acknow := true } : Conn) = e
  have hek : e.kept = c.kept := by rw [← hdk, ← he']; rfl
  have hev := Conn.view_of_kept hek
  have hst : d.tp.state = c.tp.state := Conn.state_of_view (Conn.view_of_kept hdk)
  have hec : e.ctl = c.ctl := congrArg Prod.snd hek
  have hee : e.tp.state.haveEstablished = true := by rw [Conn.state_of_view hev]; exact he
  have hw : ∀ t, Advance c.view t → Acts G s c s (tcpStateChange e t) := by
    intro t ht
    refine ⟨?_, .of_ctl hec⟩
    rw [view_tcpStateChange, hev]
    exact (Micro.advance t ht).path
  split
  · rename_i hs; rw [← hst, hs] at he; exact absurd he (by decide)
  · rename_i hs
    exact ⟨hw _ (.peerFin (hst.symm.trans hs)), rfl⟩
  · rename_i hs
    exact ⟨hw _ (.peerFin1 (hst.symm.trans hs)), rfl⟩
  · rename_i hs
    obtain ⟨hp, -⟩ := hw .timeWait (.peerFin2 (hst.symm.trans hs))
    have hv := view_tcpEnterTimewait e
    refine ⟨⟨?_, .of_ctl ((ctl_enterTimewait e).trans hec)⟩, ?_⟩
    · rw [hv]
      exact hp.trans (Micro.timers false false).path
    · rw [show (tcpEnterTimewait e).tp.state = .timeWait from congrArg View.state hv]
      rfl
  · exact ⟨.of_kept hek, hee⟩

/-- Data is not looked at, ends a connection nobody reads from, or is queued, with the FIN it may bring. -/
lemma processData_cases (c : Conn) (seg : TcpSeg) : tcpProcessData env c seg = (c, true) ∨
    (c.so.detached = true ∧ tcpProcessData env c seg = (tcpDrop env c 0, false)) ∨
    ∃ d : Conn, d.kept = c.kept ∧ (tcpProcessData env c seg = (tcpProcessFin d, true) ∨
      tcpProcessData env c seg = (d, true)) := by
  unfold tcpProcessData
  split
  · exact .inl rfl
  split
  · rename_i hd
    exact .inr (.inl ⟨(Bool.and_eq_true_iff.1 hd).2, rfl⟩)
  dsimp only
  have hv := kept_tcpReassemble env c seg.seq seg.len seg.flags.fin seg.data
  generalize tcpReassemble env c seg.seq seg.len seg.flags.fin seg.data = r at hv ⊢
  generalize hd : (if seg.len ≠ 0 then tcpScheduleAck r.1 _ else r.1) = d
  have hk : d.kept = c.kept := by rw [← hd]; exact view_ite ((kept_tcpScheduleAck _ _).trans hv) hv
  refine .inr (.inr ⟨d, hk, ?_⟩)
  split
  · exact .inl rfl
  · exact .inr rfl

end Input

/-! ## The synchronized path -/

lemma inputRst_cases (env : Env) (c : Conn) (seg : TcpSeg) : (tcpInputRst env c seg).kept = c.kept ∨
    ∃ d : Conn, d.view = c.view ∧ tcpInputRst env c seg = tcpClose d ∧ seg.seq = c.tp.rcvNxt := by
  unfold tcpInputRst
  split
  · left
    exact view_ite (kept_tcpSendChallengeAck env c) rfl
  rename_i hs
  right
  exact ⟨_, view_ite (by rfl) (by rfl), rfl, not_not.1 hs⟩

/-- Trimming keeps the acknowledgement and the options. -/
lemma trimSegment_ack (c : Conn) (seg : TcpSeg) : (tcpTrimSegment c seg).2.1.ack = seg.ack ∧
    (tcpTrimSegment c seg).2.1.opts = seg.opts ∧ (tcpTrimSegment c seg).2.1.flags.ack = seg.flags.ack := by
  have hl : (tcpTrimLeft c seg).2.ack = seg.ack ∧ (tcpTrimLeft c seg).2.opts = seg.opts ∧
      (tcpTrimLeft c seg).2.flags.ack = seg.flags.ack := by
    unfold tcpTrimLeft
    dsimp only
    split <;> exact ⟨rfl, rfl, rfl⟩
  rw [← hl.1, ← hl.2.1, ← hl.2.2]
  unfold tcpTrimSegment
  unfold tcpTrimRight
  dsimp only
  split
  · split <;> exact ⟨rfl, rfl, rfl⟩
  · exact ⟨rfl, rfl, rfl⟩

/-- Before ACK processing a segment changes nothing of the sender, except
that a reset at `rcv_nxt` closes the connection. -/
lemma syncCheck_cases (env : Env) (c : Conn) (seg : TcpSeg) :
    match tcpInputSyncCheck env c seg with
    | .drop d => d.kept = c.kept ∨ ∃ e : Conn, e.view = c.view ∧ d = tcpClose e ∧ seg.flags.rst = true ∧ seg.seq = c.tp.rcvNxt
    | .dropAfterAck d => d.kept = c.kept
    | .ack d seg' => d.kept = c.kept ∧ seg'.ack = seg.ack ∧ seg'.opts = seg.opts ∧ seg.flags.ack = true := by
  unfold tcpInputSyncCheck
  dsimp only
  have h0 : (tcpOpenWindow c).kept = c.kept := rfl
  have hn0 : (tcpOpenWindow c).tp.rcvNxt = c.tp.rcvNxt := rfl
  generalize tcpOpenWindow c = c0 at h0 hn0 ⊢
  obtain ⟨hp, hn⟩ := kept_tcpPawsOk env c0 seg
  generalize tcpPawsOk env c0 seg = p at hp hn ⊢
  have hv : c.view = p.1.view := congrArg Prod.fst (hp.trans h0).symm
  rw [← h0, ← hp, hv, ← hn0, ← hn]
  by_cases h1 : (!p.2) = true
  · rw [if_pos h1]
  rw [if_neg h1]
  by_cases h2 : seg.flags.rst = true
  · rw [if_pos h2]
    exact (inputRst_cases env p.1 seg).imp id fun ⟨e, he, hc, hs⟩ => ⟨e, he, hc, h2, hs⟩
  rw [if_neg h2]
  have ht := kept_tcpTrimSegment p.1 seg
  obtain ⟨ha, ho, hf⟩ := trimSegment_ack p.1 seg
  generalize tcpTrimSegment p.1 seg = t at ht ha ho hf ⊢
  by_cases h3 : (!t.2.2) = true
  · rw [if_pos h3]; exact ht
  rw [if_neg h3]
  by_cases h4 : t.2.1.flags.syn = true
  · rw [if_pos h4]; exact .inl ((kept_tcpSendChallengeAck _ _).trans ht)
  rw [if_neg h4]
  by_cases h5 : (!t.2.1.flags.ack) = true
  · rw [if_pos h5]; exact .inl ht
  rw [if_neg h5]
  refine ⟨(kept_tcpUpdateTsRecent _ _ _).trans ht, ha, ho, ?_⟩
  rw [← hf]; simpa using h5

section Sync

variable (G : Guard) {env : Env} {s : Nat} {c : Conn} (h : SendInv s c.view)
include h

lemma inputData_handled (seg : TcpSeg) (he : c.tp.state.haveEstablished = true) :
    Handled G s c (tcpInputData env c seg) := by
  have hk := kept_tcpUpdateWindow c seg
  unfold tcpInputData
  generalize tcpUpdateWindow c seg = d at hk ⊢
  have hout : ∀ e : Conn, Acts G s d s e → e.tp.state.haveEstablished = true →
      Handled G s c (tcpOutput env e) := by
    intro e hw hee
    have hw' : Acts G s c s e := .trans (.of_kept hk) hw
    exact .output h hw'.path hw'.keeps (.of_rcvdSyn (TcpState.haveEstablished_rcvdSyn hee))
  have hde : d.tp.state.haveEstablished = true := by rw [Conn.state_of_view (Conn.view_of_kept hk)]; exact he
  obtain hc | ⟨hdet, hc⟩ | ⟨e, hek, hc⟩ := processData_cases env d seg
  · rw [hc]
    exact hout d (.of_kept rfl) hde
  · rw [hc]
    exact .drop h 0 (Conn.view_of_kept hk) (.inr ((congrArg (fun k => k.2.detached) hk).symm.trans hdet))
  have hee : e.tp.state.haveEstablished = true := by rw [Conn.state_of_view (Conn.view_of_kept hek)]; exact hde
  rcases hc with hc | hc
  · obtain ⟨hw, hst⟩ := processFin_acts G hee
    rw [hc]
    exact hout _ (.trans (.of_kept hek) hw) hst
  · rw [hc]
    exact hout e (.of_kept hek) hee

/-- **The synchronized path.** -/
lemma inputSync_handled (seg : TcpSeg) (hs : c.tp.state.haveRcvdSyn = true)
    (hm : seg.flags.ack = true → G.Meets env c seg) (hrst : seg.flags.rst = true → seg.seq = c.tp.rcvNxt → G.tear) :
    Handled G s c (tcpInputSync env c seg) := by
  have hck := syncCheck_cases env c seg
  have hf : FreshOk s c := .of_rcvdSyn hs
  unfold tcpInputSync
  cases hchk : tcpInputSyncCheck env c seg with rw [hchk] at hck
  | drop d =>
    rcases hck with hk | ⟨e, hv, rfl, h1, h2⟩
    · exact .of_kept hf hk
    · exact .close hv (.inl (hrst h1 h2))
  | dropAfterAck d =>
    have hk : ({ d with tp.acknow := true } : Conn).kept = c.kept := hck
    have hv := Conn.view_of_kept hk
    exact .output h (by rw [hv]; exact .refl _) (.of_kept hk) (hf.of_view hv)
  | ack d seg' =>
    obtain ⟨hk, ha, ho, hfl⟩ := hck
    have hv := Conn.view_of_kept hk
    have hd : SendInv s d.view := by rw [hv]; exact h
    have hst := Conn.state_of_view hv
    have hmd : G.Meets env d seg' := by
      obtain ⟨m1, m2, m3⟩ := hm hfl
      rw [← ha] at m1 m2
      rw [← ho] at m3
      rw [← hst, ← show d.tp.sndUna = c.tp.sndUna from congrArg View.una hv, ← show d.tp.iss = c.tp.iss from congrArg View.iss hv,
        ← show d.tp.sndMax = c.tp.sndMax from congrArg View.max hv] at m1
      rw [← hst, ← show d.tp.sentfin = c.tp.sentfin from congrArg View.sentfin hv,
        ← show d.tp.sndMax = c.tp.sndMax from congrArg View.max hv] at m2
      have hc : d.ctl = c.ctl := congrArg Prod.snd hk
      exact ⟨m1, m2, by rw [hc]; exact m3⟩
    obtain ⟨s', hr⟩ := Acked.after (.of_kept hk) (processAck_acked hd (by rw [hst]; exact hs) hmd)
    dsimp only
    generalize tcpProcessAck env d seg' = r at hr ⊢
    obtain ⟨e, r⟩ := r
    rcases hr with ⟨rfl, r2, r3, r4⟩ | ⟨r1, r2, r3, hw⟩
    · exact .of_gone r3 r4 r2
    cases r with
    | cont => exact .after hw.path hw.keeps (inputData_handled G (hw.path.sendInv h) seg' r3)
    | drop => exact ⟨⟨s', hw.path, .inr (.of_rcvdSyn r2)⟩, hw.keeps⟩
    | gone => exact absurd rfl r1
    | dropAck => exact .output h hw.path hw.keeps (.of_rcvdSyn r2)

end Sync

/-! ## SYN-SENT -/

lemma view_tcpSynSentAck (env : Env) (c : Conn) (seg : TcpSeg) :
    ∃ t cs, OpenChanges c.view t cs ∧ (tcpSynSentAck env c seg).2.ack = seg.ack ∧
      (tcpSynSentAck env c seg).1.view = { c.view with
        state := t, una := seg.ack, nxt := if lt c.view.nxt seg.ack then seg.ack else c.view.nxt,
        rxmit := seg.ack, rexmt := false, unaPos := c.view.unaPos + dist c.view.una seg.ack,
        changes := cs } := by
  unfold tcpSynSentAck
  dsimp only
  generalize hd : (if c.tp.rttStart ≠ 0 then
    tcpXmitTimer env c (int32 (UInt32.ofNat (env.since c.tp.rttStart))) else c) = d
  have hdv : d.view = c.view := by rw [← hd]; exact view_ite (view_tcpXmitTimer ..) rfl
  rw [← hdv]
  have hev : (tcpSynAcked d seg.ack).view = { d.view with
      una := seg.ack, nxt := if lt d.view.nxt seg.ack then seg.ack else d.view.nxt,
      rxmit := seg.ack, rexmt := false, unaPos := d.view.unaPos + dist d.view.una seg.ack } := rfl
  generalize tcpSynAcked d seg.ack = e at hev ⊢
  obtain ⟨t, cs, hoc, hv⟩ := view_tcpEstablished e
  have hoc' : OpenChanges d.view t cs := by
    rw [hev] at hoc
    cases hoc with
    | established u => exact .established u
    | finWait1 u => exact .finWait1 u
  refine ⟨t, cs, hoc', rfl, ?_⟩
  show (tcpEstablished e).view = _
  rw [hv, hev]

lemma view_tcpSimultaneousOpen (c : Conn) (seg : TcpSeg) :
    (tcpSimultaneousOpen c seg).view = { c.view.change .synReceived with nxt := c.view.iss } := rfl

lemma ctl_tcpSimultaneousOpen (c : Conn) (seg : TcpSeg) : (tcpSimultaneousOpen c seg).ctl = c.ctl := rfl

section SynSent

variable (G : Guard) (env : Env) {s : Nat} {c : Conn}

/-- The sample of a timed SYN. -/
lemma synSentAck_keeps (seg : TcpSeg) (hs : ∀ rtt, Sampled env c.ctl seg.opts rtt → G.fine rtt) :
    Keeps G c (tcpSynSentAck env c seg).1 ∧ (tcpSynSentAck env c seg).1.ctl.rttStart = 0 := by
  unfold tcpSynSentAck
  generalize hd : (if c.tp.rttStart ≠ 0 then
    tcpXmitTimer env c (int32 (UInt32.ofNat (env.since c.tp.rttStart))) else c) = d
  have hk : Keeps G c d := by
    rw [← hd]
    split
    · rename_i hn
      exact fun P hP h => hP.sample env c _ h (hs _ (.inr ⟨hn, rfl⟩))
    · exact .of_ctl rfl
  have hset : ∀ e : Conn, ({ e with tp.sndWl1 := seg.seq } : Conn).ctl = e.ctl := fun _ => rfl
  unfold Keeps
  simp only [hset, ctl_established]
  exact ⟨fun P hP h => hP.timed d.ctl 0 (hk P hP h), rfl⟩

lemma ctl_synSentSetup (c : Conn) (seg : TcpSeg) : (tcpSynSentSetup env c seg).ctl = c.ctl := by
  have hack : ∀ d : Conn, ({ d with tp.acknow := true } : Conn).ctl = d.ctl := fun _ => rfl
  rw [tcpSynSentSetup, hack, ctl_applySynOpts]
  rfl

variable (h : SendInv s c.view)
include h

/-- The SYN|ACK that completes an active open. It goes on as a segment that
acknowledges and times nothing new. -/
lemma synSentAck_acts (seg : TcpSeg) (hst : c.tp.state = .synSent) (h1 : leq seg.ack c.tp.iss = false)
    (h2 : gt seg.ack c.tp.sndMax = false) (hs : ∀ rtt, Sampled env c.ctl seg.opts rtt → G.fine rtt) :
    Acts G s c 0 (tcpSynSentAck env c seg).1 ∧ (tcpSynSentAck env c seg).1.tp.state.haveEstablished = true ∧
    G.Meets env (tcpSynSentAck env c seg).1 (tcpSynSentAck env c seg).2 := by
  obtain ⟨hiss, hd, hbl, hsf, -⟩ := h.syn (h.synState (.inl hst))
  obtain ⟨hack, hne, hd1⟩ := syn_ack h (.inl hst) (by rw [hiss]; exact h1) h2
  obtain ⟨t, cs, ht, ha, hv⟩ := view_tcpSynSentAck env c seg
  obtain ⟨hk, hr⟩ := synSentAck_keeps G env seg hs
  have ho : (tcpSynSentAck env c seg).2.opts = seg.opts := rfl
  generalize tcpSynSentAck env c seg = r at ha hv hk hr ho ⊢
  have hsy : r.1.view = { c.view.synced t cs with rexmt := false } := by
    rw [hv, hack, forward_one hd1 h.nxt_le]
    unfold View.synced
    rw [← hbl]
  refine ⟨⟨?_, hk⟩, ?_, fun _ hl => ?_, fun _ hf => ?_, fun rtt hrtt => hs rtt ?_⟩
  · rw [hsy]
    exact (Micro.handshake t cs ht (.inl hst) hne).path.trans (Micro.timers false c.view.persist).path
  · rw [show r.1.tp.state = t from congrArg View.state hv]
    exact ht.est
  · rw [ha, ← show r.1.tp.sndUna = seg.ack from congrArg View.una hv] at hl
    exact absurd hl (by simp [leq, int32])
  · exact absurd (((congrArg View.sentfin hv).trans hsf).symm.trans hf) Bool.false_ne_true
  · rw [ho] at hrtt
    exact hrtt.imp id fun hn => absurd hr hn.1

/-- The segment that completes an active open reaches ACK processing. -/
lemma inputSynSent_handled (seg : TcpSeg) (hst : c.tp.state = .synSent) (ht : G.tear)
    (hs : seg.flags.ack = true → ∀ rtt, Sampled env c.ctl seg.opts rtt → G.fine rtt) :
    ∃ d m, tcpInputSynSent env c seg = (d, m) ∧ ((m = none ∧ Handled G s c d) ∨
       ∃ seg', m = some seg' ∧ Acts G s c 0 d ∧ d.tp.state.haveEstablished = true ∧ G.Meets env d seg' ∧
        seg'.flags.rst = false ∧ seg'.flags.syn = false ∧ seg'.flags.ack = true) := by
  have hf : FreshOk s c := fun hi => by rw [hst] at hi; exact absurd hi (by decide)
  unfold tcpInputSynSent
  by_cases h1 : seg.flags.ack ∧ (leq seg.ack c.tp.iss ∨ gt seg.ack c.tp.sndMax)
  · rw [if_pos h1]
    exact ⟨_, _, rfl, .inl ⟨rfl, .of_kept hf (view_ite (kept_tcpRespond ..) rfl)⟩⟩
  rw [if_neg h1]
  by_cases h2 : seg.flags.rst = true
  · rw [if_pos h2]
    by_cases h3 : seg.flags.ack = true
    · rw [if_pos h3]; exact ⟨_, _, rfl, .inl ⟨rfl, .drop h _ rfl (.inl ht)⟩⟩
    · rw [if_neg h3]; exact ⟨_, _, rfl, .inl ⟨rfl, .of_kept hf rfl⟩⟩
  rw [if_neg h2]
  by_cases h3 : (!seg.flags.syn) = true
  · rw [if_pos h3]; exact ⟨_, _, rfl, .inl ⟨rfl, .of_kept hf rfl⟩⟩
  rw [if_neg h3]
  have hack : ∀ d : Conn, ({ d with tp.acknow := true } : Conn).view = d.view := fun _ => rfl
  have hv : (tcpSynSentSetup env c seg).view = c.view := by
    unfold tcpSynSentSetup
    rw [hack, view_tcpApplySynOpts, view_tcpInitRcv]
  have hks := ctl_synSentSetup env c seg
  generalize tcpSynSentSetup env c seg = d at hv hks ⊢
  have hw : Acts G s c s d := .of_kept (Prod.ext hv hks)
  have hdi : SendInv s d.view := by rw [hv]; exact h
  have hds : d.tp.state = .synSent := (Conn.state_of_view hv).trans hst
  split
  · have hp : Path G.ok (s, c.view) (s, (tcpSimultaneousOpen d seg).view) := by
      rw [view_tcpSimultaneousOpen, ← hv]
      exact (Micro.simultaneous hds).path
    exact ⟨_, _, rfl, .inl ⟨rfl, .output h hp (hw.keeps.trans (.of_ctl (ctl_tcpSimultaneousOpen d seg))) (.of_rcvdSyn rfl)⟩⟩
  rename_i h4
  simp only [Bool.not_eq_true', Bool.not_eq_false] at h4
  simp only [h4, true_and, not_or, Bool.not_eq_true] at h1
  have hfine : ∀ rtt, Sampled env d.ctl seg.opts rtt → G.fine rtt := by
    rw [hks]
    exact hs h4
  obtain ⟨p1, p2, p3⟩ := synSentAck_acts G env hdi seg hds
    (by rw [show d.tp.iss = c.tp.iss from congrArg View.iss hv]; exact h1.1)
    (by rw [show d.tp.sndMax = c.tp.sndMax from congrArg View.max hv]; exact h1.2) hfine
  refine ⟨_, _, rfl, .inr ⟨_, rfl, hw.trans p1, p2, p3, ?_, rfl, h4⟩⟩
  simpa [tcpSynSentAck] using h2

/-- What a segment finds: its acknowledgement, and the excuses for ending
the connection. -/
structure Guard.Takes (G : Guard) (env : Env) (c : Conn) (seg : TcpSeg) : Prop where
  meets : seg.flags.ack = true → G.Meets env c seg
  rst : seg.flags.rst = true → seg.seq = c.tp.rcvNxt → G.tear
  syn : c.tp.state = .synSent → G.tear

/-- **A segment.** -/
lemma input_handled (seg : Segment) (hf : FreshOk s c) (hl : G.Takes env c (tcpReadSegment c.tp seg)) :
    Handled G s c (tcpInput env c seg) := by
  unfold tcpInput
  dsimp only
  generalize tcpReadSegment c.tp seg = sg at hl ⊢
  have hk : (tcpHeard env c).kept = c.kept := rfl
  have hl' : G.Takes env (tcpHeard env c) sg := ⟨fun ha => ⟨(hl.meets ha).ack, (hl.meets ha).last,
    (hl.meets ha).fine⟩, hl.rst, hl.syn⟩
  generalize tcpHeard env c = d at hk hl' ⊢
  have hv := Conn.view_of_kept hk
  have hdi : SendInv s d.view := by rw [hv]; exact h
  have hp0 : Path G.ok (s, c.view) (s, d.view) := by rw [hv]; exact .refl _
  have hsync : d.tp.state.haveRcvdSyn = true → Handled G s c (tcpInputSync env d sg) := by
    intro hs
    exact .after hp0 (.of_kept hk) (inputSync_handled G hdi sg hs hl'.meets hl'.rst)
  cases hcs : d.tp.state with
  | closed => exact .of_kept hf ((kept_tcpReplyReset env d sg).trans hk)
  | listen => exact .of_kept hf (view_ite ((kept_tcpReplyReset env d sg).trans hk) hk)
  | synSent =>
    obtain ⟨e, m, hr, ⟨hm, h'⟩ | ⟨sg', hm, hw, he, hme, f1, f2, f3⟩⟩ :=
      inputSynSent_handled G env hdi sg hcs (hl'.syn hcs) fun ha => (hl'.meets ha).fine
    · rw [hr, hm]
      exact .after hp0 (.of_kept hk) h'
    rw [hr, hm]
    exact .after (hp0.trans hw.path) (.trans (.of_kept hk) hw.keeps) (inputSync_handled G ((hp0.trans hw.path).sendInv h) sg'
      (TcpState.haveEstablished_rcvdSyn he) (fun _ => hme) (fun hc => absurd (f1.symm.trans hc) Bool.false_ne_true))
  | synReceived | established | closeWait | finWait1 | closing | lastAck | finWait2 | timeWait =>
    exact hsync (by rw [hcs]; rfl)

end SynSent

/-! ## Timers -/

lemma view_tcpRexmtBackoff (c : Conn) : (tcpRexmtBackoff c).view = c.view := by
  unfold tcpRexmtBackoff
  generalize hd : (if c.tp.rexmtShift > tcpMaxrxtshift / 4 then _ else c) = d
  have hv : d.view = c.view := by rw [← hd]; exact view_ite rfl rfl
  rw [← hv]
  exact view_ite (view_newrenoCongSignalRto d) rfl

section Timers

variable (G : Guard) {env : Env} {s : Nat} {c : Conn} (h : SendInv s c.view) (hf : FreshOk s c) (ht : G.tear)

/-- Changing timers does not start a connection. -/
lemma FreshOk.timers (hf : FreshOk s c) {r p : Bool}
    (hv : d.view = { c.view with rexmt := r, persist := p }) : FreshOk s d := by
  intro hi
  rw [show d.tp.state = c.tp.state from congrArg View.state hv] at hi
  obtain ⟨hs, f⟩ := hf hi
  rw [hv]
  exact ⟨hs, f.max, f.blocks, f.sentfin, f.fastrec, f.snd, f.stream⟩

lemma rewind_path (c : Conn) : Path G.ok (s, c.view) (s, (tcpRexmtRewind c).view) := by
  have h0 : dist c.view.una c.view.una ≤ dist c.view.una c.view.max := by rw [Seq32.dist_self]; omega
  exact (Micro.setNxt c.view.una h0).path.trans (Micro.recover.path.trans (Micro.leave.path.trans Micro.clear.path))

lemma FreshOk.rewind (hf : FreshOk s c) : FreshOk s (tcpRexmtRewind c) := by
  intro hi
  obtain ⟨hs, f⟩ := hf hi
  exact ⟨hs, f.max, rfl, f.sentfin, rfl, f.snd, f.stream⟩

lemma rexmtRewind_keeps (c : Conn) : Keeps G c (tcpRexmtRewind (tcpRexmtBackoff c)) := by
  intro P hP hc
  have hb : P (tcpRexmtBackoff c).ctl := by
    unfold tcpRexmtBackoff
    dsimp only
    generalize hd : (if c.tp.rexmtShift > tcpMaxrxtshift / 4 then _ else c) = d
    have hdc : P d.ctl := by
      rw [← hd]
      split
      · exact hP.backoff _ hc
      · exact hc
    split <;> exact hdc
  exact hP.timed (tcpRexmtBackoff c).ctl 0 hb

include h hf ht

lemma rexmtTimeout_handled : Handled G s c (tcpRexmtTimeout env c) := by
  unfold tcpRexmtTimeout
  dsimp only
  split
  · exact .drop h _ rfl (.inl ht)
  generalize hd : ({ c with tp.rexmtShift := c.tp.rexmtShift + 1 } : Conn) = d
  have hk : d.kept = c.kept := by rw [← hd]; rfl
  have hv := Conn.view_of_kept hk
  have hb := view_tcpRexmtBackoff d
  have hkr := rexmtRewind_keeps G d
  generalize tcpRexmtBackoff d = e at hb hkr ⊢
  rw [hv] at hb
  have hp : Path G.ok (s, c.view) (s, (tcpRexmtRewind e).view) := by rw [← hb]; exact rewind_path G e
  have hfr := (hf.of_view hb).rewind
  generalize tcpRexmtRewind e = g at hp hfr hkr ⊢
  exact Handled.output h (hp.trans (Micro.timers true g.view.persist).path) (.trans (.of_kept hk) (hkr.trans (.of_ctl rfl)))
    (hfr.timers (view_activate_rexmt g _))

omit ht in
lemma timerPersist_handled : Handled G s c (tcpTimerPersist env c) := by
  have hv : ({ tcpSetpersist c with tp.forcedata := true } : Conn).view =
      { c.view with persist := true, forcedata := true } := by
    have hf : ∀ d : Conn, ({ d with tp.forcedata := true } : Conn).view =
      { d.view with forcedata := true } := fun _ => rfl
    rw [hf, view_setpersist]
  have hc : ({ tcpSetpersist c with tp.forcedata := true } : Conn).ctl = c.ctl :=
    view_ite (f := fun d => ({ d with tp.forcedata := true } : Conn).ctl) rfl rfl
  unfold tcpTimerPersist
  dsimp only
  generalize ({ tcpSetpersist c with tp.forcedata := true } : Conn) = d at hv hc ⊢
  have hp : Path G.ok (s, c.view) (s, d.view) := by
    rw [hv]; exact (Micro.timers c.view.rexmt true).path.trans (Micro.force true).path
  have hfd : FreshOk s d := hf.congr (by rw [hv]) fun fr => by
    rw [hv]; exact ⟨fr.max, fr.blocks, fr.sentfin, fr.fastrec, fr.snd, fr.stream⟩
  have hdi := hp.sendInv h
  have hpo := hp.trans (output_path G.ok env hdi)
  have hfo := hfd.output hdi env
  have hko : Keeps G c (tcpOutput env d) := .trans (.of_ctl hc) (.output env)
  generalize tcpOutput env d = e at hpo hfo hko ⊢
  refine ⟨⟨s, hpo.trans (Micro.force false).path, .inr (hfo.congr rfl fun fr => ?_)⟩, hko.trans (.of_ctl rfl)⟩
  exact ⟨fr.max, fr.blocks, fr.sentfin, fr.fastrec, fr.snd, fr.stream⟩

lemma keepTimeout_handled : Handled G s c (tcpKeepTimeout env c) := by
  unfold tcpKeepTimeout
  split
  · exact .drop h _ rfl (.inl ht)
  split
  · exact .of_kept hf rfl
  dsimp only
  split
  · exact .of_kept hf rfl
  split
  · exact .drop h _ rfl (.inl ht)
  · exact .of_kept hf (kept_tcpRespond env { c with tp.keepProbes := c.tp.keepProbes + 1 } ..)

lemma timerExpire_handled (which : TimerType) : Handled G s c (tcpTimerExpire env c which) := by
  unfold tcpTimerExpire
  split
  · exact .of_kept hf rfl
  -- the callout is off when its handler starts
  have hoff : ∀ r p {e : Conn}, (tcpTimerStop c which).view = { c.view with rexmt := r, persist := p } →
      (∀ d : Conn, d = tcpTimerStop c which → SendInv s d.view → FreshOk s d → Handled G s d e) → Handled G s c e := by
    intro r p e hv hrest
    have hp : Path G.ok (s, c.view) (s, (tcpTimerStop c which).view) := by rw [hv]; exact (Micro.timers r p).path
    have hk : (tcpTimerStop c which).ctl = c.ctl := by cases which <;> rfl
    exact .after hp (.of_ctl hk) (hrest _ rfl (hp.sendInv h) (hf.timers hv))
  cases which with
  | rexmt => exact hoff false c.view.persist rfl (by rintro d rfl hd hfd; exact rexmtTimeout_handled G hd hfd ht)
  | persist =>
    exact hoff c.view.rexmt false rfl (by rintro d rfl hd hfd; exact timerPersist_handled G hd hfd)
  | keep =>
    exact hoff c.view.rexmt c.view.persist rfl (by rintro d rfl hd hfd; exact keepTimeout_handled G hd hfd ht)
  | msl2 => exact hoff c.view.rexmt c.view.persist rfl (by rintro d rfl hd hfd; exact .close rfl (.inl ht))
  | delack =>
    refine hoff c.view.rexmt c.view.persist rfl ?_
    rintro d rfl hd hfd
    exact .output_of_kept hd hfd rfl

end Timers

/-! ## User requests -/

lemma view_tcpConnectStart (c : Conn) (isn : UInt32) : (tcpConnectStart c isn).view = c.view.connecting isn := rfl

/-- `sock_send_locked` never offers more than the free space. -/
lemma take_space_le {c : Conn} (bytes : List UInt8) (hsp : sockbufSpace c.so.snd c.so.sndHiwat ≠ 0) :
    c.view.snd.length + (bytes.take (sockbufSpace c.so.snd c.so.sndHiwat)).length ≤ c.view.hiwat := by
  unfold sockbufSpace at hsp ⊢
  rw [List.length_take]
  show c.so.snd.length + _ ≤ c.so.sndHiwat
  split at hsp
  · rename_i hlt; rw [if_pos hlt]; omega
  · exact absurd rfl hsp

section Requests

variable (G : Guard) {env : Env} {s : Nat} {c d : Conn}

/-- `tcp_usrclosed` advances the state or closes. -/
lemma usrclosed_spec :
    (tcpUsrclosed c).gone = true ∧ Path G.ok (s, c.view) (s, (tcpUsrclosed c).view) ∨
    (tcpUsrclosed c).tp.state.haveRcvdSyn = true ∧ Acts G s c s (tcpUsrclosed c) := by
  have hadv : ∀ t, Advance c.view t → Acts G s c s (tcpStateChange c t) := fun t ht =>
    ⟨(Micro.advance t ht).path, .of_ctl rfl⟩
  have hsame : ∀ e : Conn, e.kept = c.kept → c.tp.state.haveRcvdSyn = true →
      e.tp.state.haveRcvdSyn = true ∧ Acts G s c s e := by
    intro e he hr
    exact ⟨by rw [Conn.state_of_view (Conn.view_of_kept he)]; exact hr, .of_kept he⟩
  unfold tcpUsrclosed tcpUsrclosedState
  cases hs : c.tp.state with
  | closed | listen | synSent => exact .inl ⟨gone_tcpClose c, close_path G.ok⟩
  | synReceived => exact .inr (hsame _ (view_ite rfl rfl) (by rw [hs]; rfl))
  | established => exact .inr ⟨rfl, hadv _ (.userClose hs)⟩
  | closeWait => exact .inr ⟨rfl, hadv _ (.userCloseWait hs)⟩
  | finWait1 | closing | lastAck | finWait2 | timeWait =>
    exact .inr (hsame _ (view_ite rfl rfl) (by rw [hs]; rfl))

/-- `tcp_usrclosed`, and `tcp_output` if the connection is still there. -/
lemma usrclosed_handled (h : SendInv s c.view) (ht : G.tear) (hv : d.view = c.view) (hk : Keeps G c d) :
    Handled G s c (if (tcpUsrclosed d).gone then tcpUsrclosed d else tcpOutput env (tcpUsrclosed d)) := by
  have hu := usrclosed_spec G (s := s) (c := d)
  generalize tcpUsrclosed d = e at hu ⊢
  have hp : Path G.ok (s, c.view) (s, e.view) := by
    rw [← hv]
    exact hu.elim And.right fun hw => hw.2.path
  cases hg : e.gone with
  | true => exact .of_gone hp (.torn (.inl ht) hg) hg
  | false =>
    obtain ⟨hst, hw⟩ := hu.resolve_left (by rw [hg]; simp)
    exact .output h hp (hk.trans hw.keeps) (.of_rcvdSyn hst)

variable (h : SendInv s c.view) (hf : FreshOk s c) (ht : G.tear)
include h hf ht

lemma sockSend_handled (bytes : List UInt8) : Handled G s c (sockSend env c bytes) := by
  unfold sockSend
  split
  · exact .of_kept hf rfl
  split
  · exact Handled.after (d := { c with so.error := 0 }) (.refl _) (fun P hP hc => hP.told _ 0 _ hc ht)
      (.of_kept (hf.of_view rfl) rfl)
  split
  · exact .of_kept hf rfl
  dsimp only
  split
  · exact .of_kept hf rfl
  unfold tcpSend
  split
  · exact .of_kept hf rfl
  rename_i hsp hst
  have hst' : TcpState.synSent.rank ≤ c.tp.state.rank ∧ c.tp.state.rank ≤ TcpState.closeWait.rank := by omega
  have hlen := take_space_le bytes hsp
  have hidle : c.tp.state.idle = false := by
    revert hst'
    cases c.tp.state <;> decide
  generalize bytes.take (sockbufSpace c.so.snd c.so.sndHiwat) = chunk at hlen ⊢
  have hp : Path G.ok (s, c.view) (s, (sockAppend c chunk).view) := (Micro.send chunk hst' hlen).path
  exact Handled.output h hp (.of_ctl rfl) (fun hi => absurd (hidle.symm.trans hi) Bool.false_ne_true)

lemma sockShutdown_handled (rd wr : Bool) : Handled G s c (sockShutdown env c rd wr) := by
  unfold sockShutdown
  split
  · exact .of_kept hf rfl
  generalize hd : (if rd then _ else c) = d
  have hk : d.kept = c.kept := by rw [← hd]; exact view_ite rfl rfl
  split
  · exact usrclosed_handled G h ht (d := { d with so := sockCantSendMore d.so }) (Conn.view_of_kept hk) (.of_kept hk)
  · exact .of_kept hf hk

omit hf in
lemma disconnect_handled : Handled G s c (tcpDisconnect env c) := by
  unfold tcpDisconnect
  split
  · exact .close rfl (.inl ht)
  split
  · exact .drop h _ rfl (.inl ht)
  exact usrclosed_handled G h ht (d := { c with so := sockIsDisconnecting c.so }) rfl (.of_ctl rfl)

omit hf in
lemma detach_handled (hg : c.gone = false) : Handled G s c (tcpDetach env c) := by
  unfold tcpDetach
  dsimp only
  rw [if_neg (by rw [hg]; decide)]
  split
  · exact .close rfl (.inl ht)
  · exact usrclosed_handled G h ht (d := { c with so.detached := true }) rfl fun P hP hc => hP.told _ _ true hc ht

lemma sockClose_handled : Handled G s c (sockClose env c) := by
  unfold sockClose
  have hr : Handled G s c (if c.so.isConnected then tcpDisconnect env c else c) := by
    split
    · exact disconnect_handled G h ht
    · exact .of_kept hf rfl
  generalize (if c.so.isConnected then tcpDisconnect env c else c) = d at hr ⊢
  obtain ⟨⟨s', hp, hfr⟩, hk⟩ := hr
  cases hg : d.gone with
  | true =>
    have hd : tcpDetach env d = { d with so.detached := true } := by
      unfold tcpDetach
      rw [if_pos hg]
    rw [hd]
    exact .of_gone hp (.torn (.inl ht) hg) hg
  | false => exact .after hp hk (detach_handled G (hp.sendInv h) ht hg)

lemma connect_handled (isn : UInt32) (v4 : Bool) : Handled G s c (tcpConnect env c isn v4) := by
  unfold tcpConnect
  split
  · exact .of_kept hf rfl
  rename_i hcond
  have hst : c.tp.state = .closed := by
    simp only [Bool.or_eq_true, decide_eq_true_eq, not_or, not_not] at hcond
    exact hcond.2
  obtain ⟨hs, fr⟩ := hf (by rw [hst]; rfl)
  subst hs
  generalize hd : ({ c with so.error := 0, so.v4Mapped := v4 } : Conn) = d
  have hv : d.view = c.view := by rw [← hd]; rfl
  have hc := (view_tcpConnectStart d isn).trans (congrArg (View.connecting · isn) hv)
  have hp : Path G.ok (0, c.view) (1, (tcpConnectStart d isn).view) := by
    rw [hc]
    exact (Micro.connect isn hst fr).path
  refine Handled.output h hp (fun P hP hctl => ?_) fun hi => absurd hi Bool.false_ne_true
  rw [show (tcpConnectStart d isn).ctl = d.ctl from rfl, ← hd]
  exact hP.told _ 0 _ hctl ht

omit ht in
lemma listen_handled : Handled G s c (tcpListen c) := by
  unfold tcpListen
  split
  · exact .of_kept hf rfl
  split
  · rename_i hst
    have hi : c.tp.state.idle = true := by rcases hst with h' | h' <;> rw [h'] <;> rfl
    obtain ⟨hs, fr⟩ := hf hi
    subst hs
    exact ⟨⟨0, (Micro.listen hst fr).path,
      .inr fun _ => ⟨rfl, fr.max, fr.blocks, fr.sentfin, fr.fastrec, fr.snd, fr.stream⟩⟩, .of_ctl rfl⟩
  · exact .of_kept hf rfl

omit h ht in
lemma setBuffer_handled (snd : Bool) (value : Nat) :
    Handled G s c (sockSetBuffer c snd value) := by
  unfold sockSetBuffer
  split
  · exact .of_kept hf rfl
  rename_i hval
  split
  · refine ⟨⟨s, (Micro.hiwat value (by omega)).path, .inr (hf.congr rfl fun fr => ?_)⟩, .of_ctl rfl⟩
    exact ⟨fr.max, fr.blocks, fr.sentfin, fr.fastrec, fr.snd, fr.stream⟩
  · exact .of_kept hf rfl

lemma ctlinput_handled (error mtu : Nat) : Handled G s c (tcpCtlinput env c error mtu) := by
  unfold tcpCtlinput
  dsimp only
  split
  · split
    · rename_i hmtu
      have hp : Path G.ok (s, c.view) (s, (tcpMtuShrink c (mtu - tcpHdrLen c.so)).view) := by
        exact (Micro.setNxt c.view.una (by rw [Seq32.dist_self]; omega)).path
      refine Handled.output h hp (.of_ctl rfl) (hf.congr rfl fun fr => ?_)
      exact ⟨fr.max, fr.blocks, fr.sentfin, fr.fastrec, fr.snd, fr.stream⟩
    · exact .of_kept hf rfl
  · split
    · exact .drop h _ rfl (.inl ht)
    · exact .of_kept hf rfl

end Requests

/-! ## The simulation -/

/-- The side condition `ok` on the acknowledgements an event may take: a
segment whose ACK is new and acceptable arrives in a state where it holds. -/
def AckOk (ok : UInt32 → UInt32 → Prop) (c : Conn) (l : Env × Ev) : Prop :=
  ∀ seg, l.2 = .input seg → c.tp.state.haveEstablished = true → seg.flags.ack = true →
    leq seg.ack c.tp.sndUna = false → gt seg.ack c.tp.sndMax = false → ok c.tp.sndUna c.tp.iss

/-- What an event finds. -/
def Guard.Allows (G : Guard) (c : Conn) (l : Env × Ev) : Prop :=
  (∀ seg, l.2 = .input seg → G.Takes l.1 c (tcpReadSegment c.tp seg)) ∧ ((∀ seg, l.2 ≠ .input seg) → G.tear)

variable {ok : UInt32 → UInt32 → Prop} {l : Env × Ev}

lemma AckOk.allows (h : AckOk ok c l) : (Guard.acks ok).Allows c l := by
  refine ⟨fun seg hl => ⟨fun ha => ⟨fun he => h seg hl he ha, fun _ _ _ => ?_, fun _ _ => ?_⟩,
    fun _ _ => ?_, fun _ => ?_⟩, fun _ => ?_⟩ <;> exact trivial

/-- **One event is a path of sender steps**, and keeps every stable property. -/
lemma step_handled {G : Guard} (h : SendInv s c.view) (hf : c.gone = true ∨ FreshOk s c)
    (hl : G.Allows c l) : Handled G s c (step c l) := by
  unfold step
  by_cases hg : c.gone = true
  · rw [if_pos hg]; exact .of_gone (.refl _) (.of_ctl rfl) hg
  have hf : FreshOk s c := hf.resolve_left hg
  rw [if_neg hg]
  obtain ⟨env, e⟩ := l
  by_cases hin : ∃ seg, e = .input seg
  · obtain ⟨seg, rfl⟩ := hin
    exact input_handled G env h seg hf (hl.1 seg rfl)
  have ht : G.tear := hl.2 (not_exists.1 hin)
  cases e with
  | send bytes => exact sockSend_handled G h hf ht bytes
  | rcvd n | output => exact .output_of_kept h hf rfl
  | shutdown rd wr => exact sockShutdown_handled G h hf ht rd wr
  | close => exact sockClose_handled G h hf ht
  | abort => exact .drop h _ rfl (.inl ht)
  | connect isn v4 => exact connect_handled G h hf ht isn v4
  | listen => exact listen_handled G h hf
  | setNodelay v =>
    show Handled G s c (tcpSetNodelay env c v)
    unfold tcpSetNodelay
    split
    · exact .output_of_kept h hf rfl
    · exact .of_kept hf rfl
  | setMaxseg v =>
    show Handled G s c (tcpSetMaxseg c v)
    unfold tcpSetMaxseg
    split <;> exact .of_kept hf rfl
  | setBuffer snd v => exact setBuffer_handled G hf snd v
  | setKeepalive v => exact .of_kept hf rfl
  | input seg => exact absurd ⟨seg, rfl⟩ hin
  | timer which => exact timerExpire_handled G h hf ht which
  | ctlinput error mtu => exact ctlinput_handled G h hf ht error mtu

/-- Where the sender machine starts. -/
structure Base (s : Nat) (v : View) : Prop where
  fresh : Fresh v
  una : v.una = v.iss
  nxt : v.nxt = v.iss
  rxmit : v.rxmit = v.iss
  hiwat : v.hiwat ≤ socketMaxBuffer
  passes : v.passes = []
  state : (v.state = .closed ∧ s = 0) ∨ (v.state = .synReceived ∧ s = 1)
  changes : (v.state = .closed ∧ v.changes = []) ∨
    (v.state = .synReceived ∧ v.changes = [⟨.closed, .synReceived, false, 0, []⟩])

lemma Base.sendInv {v : View} (h : Base s v) : SendInv s v := by
  have hm : dist v.una v.max = 0 := by rw [h.fresh.max, Seq32.dist_self]
  have hx : ∀ x, x = v.iss → dist v.una x = 0 := fun x hx => by rw [hx, h.una, Seq32.dist_self]
  have hcl : v.state.haveEstablished = false := by
    rcases h.state with ⟨hs, -⟩ | ⟨hs, -⟩ <;> rw [hs] <;> rfl
  refine ⟨?_, by rw [hx _ h.nxt]; omega, by omega, by rw [h.fresh.snd]; simp, h.hiwat,
    by rw [hx _ h.rxmit]; omega, by rw [h.fresh.blocks]; exact .nil _ _, ?_, ?_, ?_, ?_, ?_, ?_⟩
  · rcases h.state with ⟨-, hs⟩ | ⟨-, hs⟩ <;> omega
  · intro hc; exact absurd (h.fresh.fastrec.symm.trans hc) (by decide)
  · exact fun _ => ⟨h.una, by omega, h.fresh.blocks, h.fresh.sentfin, h.fresh.fastrec⟩
  · intro hc; exact absurd (hcl.symm.trans hc) (by decide)
  · intro hc
    rcases h.state with ⟨hs, -⟩ | ⟨-, hs⟩
    · rw [hs] at hc; rcases hc with hc | hc <;> cases hc
    · exact hs
  · intro hc; exact absurd (h.fresh.sentfin.symm.trans hc) (by decide)
  · intro hc
    rcases h.state with ⟨hs, -⟩ | ⟨hs, -⟩ <;> rw [hs] at hc <;> rcases hc with hc | hc <;> cases hc

lemma view_tcpListenChild (env : Env) (lp : Conn) (seg : TcpSeg) (v4 : Bool) (isn : UInt32) :
    (tcpListenChild env lp seg v4 isn).view =
      { (tcpAttachPcb env { sockNewConn lp.so with v4Mapped := v4 }).view with
        state := .synReceived, iss := isn, una := isn, nxt := isn, max := isn, recover := isn,
        rxmit := isn, unaPos := 0, changes := [⟨.closed, .synReceived, false, 0, []⟩] } := by
  have hr : ∀ d : Conn, (tcpSynReceive (tcpSendseqinit (tcpInitRcv d seg.seq) isn) seg).view =
      { d.view with
        state := .synReceived, iss := isn, una := isn, nxt := isn, max := isn, recover := isn,
        rxmit := isn, unaPos := 0,
        changes := ⟨d.view.state, .synReceived, false, 0, d.view.passes⟩ :: d.view.changes } := fun _ => rfl
  unfold tcpListenChild
  rw [hr, view_tcpApplySynOpts]
  rfl

/-- A run of the sender machine ends in the state's view. -/
def Simulated (ok : UInt32 → UInt32 → Prop) (c : Conn) : Prop :=
  ∃ s₀ v₀ s, Base s₀ v₀ ∧ Path ok (s₀, v₀) (s, c.view) ∧ (c.gone = true ∨ FreshOk s c)

lemma init_simulated (h : Init c) : Simulated ok c := by
  cases h with
  | attach env ipv6 v4 =>
    have hb : Base 0 (tcpAttachPcb env (sockAlloc ipv6 v4)).view := ⟨⟨rfl, rfl, rfl, rfl, rfl, rfl⟩, rfl, rfl, rfl,
        show sockbufDefaultSize ≤ socketMaxBuffer by decide, rfl, .inl ⟨rfl, rfl⟩, .inl ⟨rfl, rfl⟩⟩
    exact ⟨0, _, 0, hb, .refl _, .inr fun _ => ⟨rfl, hb.fresh⟩⟩
  | syn env lp _ seg v4 isn hl hs hr hc =>
    obtain ⟨-, ⟨⟩⟩ := Option.ite_none_left_eq_some.1 hc
    have hv := view_tcpListenChild env lp seg v4 isn
    generalize tcpListenChild env lp seg v4 isn = d at hv ⊢
    have hb : Base 1 d.view := by
      rw [hv]
      exact ⟨⟨rfl, rfl, rfl, rfl, rfl, rfl⟩, rfl, rfl, rfl, hs, rfl, .inr ⟨rfl, rfl⟩, .inr ⟨rfl, rfl⟩⟩
    refine ⟨1, d.view, 1, hb, output_path ok env hb.sendInv, .inr (FreshOk.of_rcvdSyn ?_)⟩
    rw [show (tcpOutput env d).tp.state = d.tp.state from (output_outRel env hb.sendInv).state,
      show d.tp.state = .synReceived from congrArg View.state hv]
    rfl

/-- **Refinement.** Every run whose acknowledgements meet `ok` is a run of
the sender machine with that guard. -/
lemma simulated (h : (system.restrict (AckOk ok)).Reachable c) : Simulated ok c := by
  have hind : (system.restrict (AckOk ok)).Inductive (Simulated ok) := ⟨fun c h => init_simulated h, ?_⟩
  · exact hind.reachable h
  rintro c l d ⟨s₀, v₀, s, hb, hp, hf⟩ ⟨hl, rfl⟩
  obtain ⟨s', hp', hf'⟩ := (step_handled (hp.sendInv hb.sendInv) hf hl.allows).ran
  exact ⟨s₀, v₀, s', hb, hp.trans hp', hf'⟩

/-- Every state a run reaches refines a run of the sender machine. -/
lemma reachable_simulated (h : system.Reachable c) : Simulated (fun _ _ => True) c :=
  simulated (h.restrict fun _ _ _ _ _ _ _ _ => trivial)

lemma reachable_sendInv (h : system.Reachable c) : ∃ s, SendInv s c.view := by
  obtain ⟨s₀, v₀, s, hb, hp, -⟩ := reachable_simulated h
  exact ⟨s, hp.sendInv hb.sendInv⟩

/-- The invariant rule for connections: what holds at the start and is kept
by every sender step holds in every reachable state. -/
lemma reachable_keeps {P : Nat × View → Prop} (hbase : ∀ s v, Base s v → P (s, v))
    (hP : ∀ a b, P a → Micro ok a b → P b) (h : (system.restrict (AckOk ok)).Reachable c) :
    ∃ s, P (s, c.view) ∧ SendInv s c.view ∧ (c.gone = true ∨ FreshOk s c) := by
  obtain ⟨s₀, v₀, s, hb, hp, hf⟩ := simulated h
  exact ⟨s, hp.keeps hP (hbase _ _ hb), hp.sendInv hb.sendInv, hf⟩

end Hermes.L3.Tcp
