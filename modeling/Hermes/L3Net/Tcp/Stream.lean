import Hermes.L3Net.Tcp.SendSeq

/-!
# Send-stream integrity

`c.stream` is everything the application ever wrote and `c.so.snd` what is
still buffered, so `stream.length - snd.length` bytes have left the buffer.
The stream is intact when that number agrees with `snd_una`: byte number `n`
of the stream has sequence number `iss + 1 + n`.

`tcp_drop_acked_data` subtracts one from the acknowledged count for the SYN
whenever `SEQ_LEQ(snd_una, iss)`, which is true again in the second half of
the sequence space. `stream_integrity` is the result for the runs that take
no new acknowledgement there; `Hermes.Bugs.TcpStream` has a run that does.
-/
namespace Hermes.L3.Tcp

open Hermes.Seq32 List

/-- Stream bytes that have left the send buffer. -/
def View.acked (v : View) : Nat := v.stream.length - v.snd.length

/-- The payload of a pass is the stretch of the stream its sequence number
names. -/
def Pass.onStream (stream : List UInt8) (p : Pass) : Prop := ∀ g, p.seg = some g → g.data ≠ [] →
    g.seq = p.tp.iss + 1 + UInt32.ofNat (p.base + dist p.tp.sndUna g.seq) ∧
    g.data = (stream.drop (p.base + dist p.tp.sndUna g.seq)).take g.data.length

/-- No connection yet, or the SYN is still unacknowledged. -/
structure Unsynced (s : Nat) (v : View) : Prop where
  una : v.una = v.iss
  all : v.snd = v.stream
  sentfin : v.sentfin = false
  idle : s = 0 → v.snd = []

/-- The SYN is acknowledged: offset 0 of the buffer is at `snd_una`, or the
FIN is acknowledged too and the buffer is empty. -/
structure Synced (s : Nat) (v : View) : Prop where
  slack : s = 0
  pos : (v.una = v.iss + 1 + UInt32.ofNat v.acked ∧ (v.sentfin = true → dist v.una v.max = v.snd.length + 1)) ∨
    (v.sentfin = true ∧ v.una = v.max ∧ v.snd = [] ∧ v.una = v.iss + 1 + UInt32.ofNat v.acked + 1)

structure StreamInv (s : Nat) (v : View) : Prop where
  buf : v.snd = v.stream.drop v.acked
  pos : Unsynced s v ∨ Synced s v
  est : v.state.haveEstablished = true → Synced s v
  sent : ∀ p ∈ v.passes, p.onStream v.stream

/-! ## One output pass -/

/-- A FIN that is out and not rewound is not sent again. -/
lemma plan_fin_new (env : Env) (tp : Tcpcb) (so : Sock) (h : (tcpPlan env tp so).flags.fin = true) :
    tp.sentfin = true → tp.sndNxt ≠ tp.sndMax := by
  unfold tcpPlan at h
  dsimp only at h
  unfold tcpPlanFin at h
  split at h
  · rename_i hf; rw [h] at hf; exact absurd hf (by decide)
  dsimp only at h
  split at h
  · exact absurd h Bool.false_ne_true
  rename_i hn
  intro hs hm
  rw [hs, hm] at hn
  simp at hn

variable {s : Nat} {v : View} {c : Conn}

lemma StreamInv.length_le (h : StreamInv s v) : v.snd.length ≤ v.stream.length := by
  have := congrArg List.length h.buf
  rw [length_drop] at this
  omega

/-- Within the buffer nothing is zero-filled. -/
lemma buildSegment_data (tp : Tcpcb) (so : Sock) (tx : TxPlan) (opts : List UInt8) (win : UInt32)
    (h : tx.off.toNat + tx.len.toNat ≤ so.snd.length) :
    (tcpBuildSegment tp so tx opts win).data = (so.snd.drop tx.off.toNat).take tx.len.toNat := by
  unfold tcpBuildSegment sockbufCopy
  have : tx.len.toNat - min tx.len.toNat (so.snd.length - tx.off.toNat) = 0 := by omega
  simp only [length_take, length_drop, this, replicate_zero, append_nil]

lemma pass_onStream (h : SendInv s c.view) (hs : StreamInv s c.view) (env : Env) :
    (c.pass (some (tcpPassSegment env c.tp c.so))).onStream c.stream := by
  rintro g hg hne
  obtain rfl := Option.some.inj hg
  have hp := planOk h env
  have hlen := passSegment_length env c.tp c.so
  have hl : (tcpPlan env c.tp c.so).len ≠ 0 := by
    intro h0
    rw [h0] at hlen
    exact hne (length_eq_zero_iff.1 hlen)
  obtain ⟨hin, hoff⟩ := hp.data hl
  have hs0 := hp.est hl
  -- data goes out only once the SYN is acknowledged and before the FIN is
  have hpos : c.tp.sndUna = c.tp.iss + 1 + UInt32.ofNat (c.stream.length - c.so.snd.length) := by
    have hsnd : c.view.snd ≠ [] := by
      intro h0
      rw [h0] at hin
      have : 0 < (tcpPlan env c.tp c.so).len.toNat := pos_of_ne_zero fun h' => hl (UInt32.toNat_inj.1 h')
      simp at hin; omega
    rcases hs.pos with hu | hy
    · exact absurd (hu.idle hs0) hsnd
    rcases hy.pos with ⟨h1, -⟩ | ⟨-, -, h2, -⟩
    · exact h1
    · exact absurd h2 hsnd
  have hseq : (tcpPassSegment env c.tp c.so).seq = (tcpPlan env c.tp c.so).seq := rfl
  have hdata : (tcpPassSegment env c.tp c.so).data =
      (c.so.snd.drop (tcpPlan env c.tp c.so).off.toNat).take (tcpPlan env c.tp c.so).len.toNat := buildSegment_data _ _ _ _ _ hin
  generalize tcpPassSegment env c.tp c.so = g at hlen hseq hdata ⊢
  generalize tcpPlan env c.tp c.so = tx at hp hlen hl hin hoff hseq hdata
  change dist c.tp.sndUna tx.seq = tx.off.toNat at hoff
  show g.seq = c.tp.iss + 1 + UInt32.ofNat (c.stream.length - c.so.snd.length + dist c.tp.sndUna g.seq) ∧
    g.data = (c.stream.drop (c.stream.length - c.so.snd.length + dist c.tp.sndUna g.seq)).take g.data.length
  rw [hseq, hoff, hlen]
  constructor
  · rw [UInt32.ofNat_add, ← UInt32.add_assoc, ← hpos, UInt32.ofNat_toNat]
    have : tx.off = tx.seq - c.tp.sndUna := UInt32.toNat_inj.1 hoff.symm
    rw [this, UInt32.add_comm, UInt32.sub_add_cancel]
  have hb : c.so.snd = c.stream.drop (c.stream.length - c.so.snd.length) := hs.buf
  rw [hdata]
  conv_lhs => rw [hb]
  rw [drop_drop]

lemma pass_none_onStream (c : Conn) (st : List UInt8) : (c.pass none).onStream st := by
  intro g hg; cases hg

/-- What was sent stays on the stream as the application writes on. -/
lemma Pass.onStream.append {st : List UInt8} {p : Pass} (h : p.onStream st) (more : List UInt8) :
    p.onStream (st ++ more) := by
  intro g hg hne
  obtain ⟨h1, h2⟩ := h g hg hne
  have hlen := congrArg List.length h2
  have hpos := length_pos_iff.2 hne
  rw [length_take, length_drop] at hlen
  refine ⟨h1, ?_⟩
  rw [drop_append_of_le_length (by omega), take_append_of_le_length (by rw [length_drop]; omega)]
  exact h2

variable {w : View} {ack : UInt32}

lemma Unsynced.of_send (h : Unsynced s v) (hu : w.una = v.una) (hi : w.iss = v.iss) (hs : w.snd = v.snd)
    (ht : w.stream = v.stream) (hf : w.sentfin = false) : Unsynced s w :=
  ⟨by rw [hu, hi]; exact h.una, by rw [hs, ht]; exact h.all, hf, fun h0 => by rw [hs]; exact h.idle h0⟩

/-- A segment keeps the buffer where it is; the FIN ends the flight. -/
lemma Synced.afterSend {w : UInt32} {tx : TxPlan} (h : SendInv s v) (hs : Synced s v) (hp : PlanOk s v w tx)
    (hfin : tx.flags.fin = true → v.sentfin = true → v.nxt ≠ v.max) (probe : Bool) :
    Synced s (v.afterSend tx probe) := by
  have hmax := afterSend_max h hp probe
  have hle := afterSend_stop_le h hp
  have hml := h.max_le
  have hs0 := hs.slack
  subst hs0
  refine ⟨rfl, ?_⟩
  rcases hs.pos with ⟨h1, h2⟩ | ⟨h1, h2, h3, h4⟩
  · left
    refine ⟨h1, fun hf => ?_⟩
    show dist v.una (v.afterSend tx probe).max = v.snd.length + 1
    cases hsf : v.sentfin with
    | true =>
      have := h2 hsf
      cases hff : tx.flags.fin <;> rw [hff] at hle <;> simp at hle <;> omega
    | false =>
      -- the FIN goes out now, right after the last byte
      have hff : tx.flags.fin = true := by
        have hf' : (v.sentfin || tx.flags.fin) = true := hf
        rwa [hsf] at hf'
      obtain ⟨hd, -⟩ := stop_dist h hp
      have hn := (hp.fin hff).1
      have hsk : tx.sackRxmit = false := by
        by_contra hc
        exact absurd ((hp.sack (by simpa using hc)).2.1.symm.trans hff) (by decide)
      have hsy : tx.flags.syn = false := by
        by_contra hc
        have := (hp.syn (by simpa using hc)).2.2
        have := h.synState this
        omega
      rw [hff, hsy, hp.fresh hsk] at hd
      rw [hsf] at hml
      simp at hd hml
      omega
  · -- everything is acknowledged, nothing can go out beyond `snd_max`
    right
    have hd0 : dist v.una v.max = 0 := by rw [h2, Seq32.dist_self]
    have hnm : v.nxt = v.max := by
      have := h.nxt_le
      rw [← h2]; exact (Seq32.dist_eq_zero.1 (by omega)).symm
    have hff : tx.flags.fin = false := by
      by_contra hc
      exact hfin (by simpa using hc) h1 hnm
    have hstop : dist v.una tx.stop = 0 := by
      rw [hff, h3] at hle
      simp at hle; omega
    refine ⟨by show (v.sentfin || tx.flags.fin) = true; rw [h1]; rfl, ?_, h3, h4⟩
    show v.una = (v.afterSend tx probe).max
    exact Seq32.dist_eq_zero.1 (by omega)

/-- The bytes a new acknowledgement removes, when the SYN is long past. -/
lemma ackedBytes_of_gt (hok : gt v.una v.iss = true) (h0 : 0 < dist v.una ack) : (v.ackedBytes ack).toNat =
      dist v.una ack - (if v.sentfin && decide (ack = v.max) then 1 else 0) := by
  have hl : leq v.una v.iss = false := by
    simp only [gt, leq, decide_eq_true_eq, decide_eq_false_iff_not] at hok ⊢; omega
  unfold View.ackedBytes
  rw [hl]
  simp only [Bool.false_eq_true, if_false]
  change 0 < (ack - v.una).toNat at h0
  split
  · rw [UInt32.toNat_sub_of_le _ _ (by rw [UInt32.le_iff_toNat_le, UInt32.toNat_one]; omega)]
    rfl
  · rfl

/-- **The acknowledged bytes are exactly the ones removed.** -/
lemma Synced.newAck (h : SendInv s v) (hs : Synced s v) (hlen : v.snd.length ≤ v.stream.length)
    (h0 : 0 < dist v.una ack) (h1 : dist v.una ack ≤ dist v.una v.max) (hok : gt v.una v.iss = true) :
    Synced s (v.newAck ack) := by
  have hb := ackedBytes_of_gt hok h0
  have hml := h.max_le
  have hs0 := hs.slack
  subst hs0
  refine ⟨rfl, ?_⟩
  rcases hs.pos with ⟨hp, hf⟩ | ⟨-, h2, -, -⟩
  swap
  · rw [h2, Seq32.dist_self] at h1
    rw [h2] at h0; omega
  have hack : ∀ n, n = dist v.una ack → ack = v.una + UInt32.ofNat n := by
    rintro n rfl
    show ack = v.una + UInt32.ofNat (ack - v.una).toNat
    rw [UInt32.ofNat_toNat, UInt32.add_comm, UInt32.sub_add_cancel]
  have hacked : ∀ n, n ≤ v.snd.length → (v.ackedBytes ack).toNat = n →
      (v.newAck ack).acked = v.acked + n ∧ (v.newAck ack).snd.length = v.snd.length - n := by
    intro n hn hbn
    have hl : (v.newAck ack).snd.length = v.snd.length - n := by
      show (v.snd.drop (min (v.ackedBytes ack).toNat v.snd.length)).length = _
      rw [length_drop, hbn]; omega
    refine ⟨?_, hl⟩
    show v.stream.length - (v.newAck ack).snd.length = v.stream.length - v.snd.length + n
    rw [hl]; omega
  by_cases hfa : v.sentfin = true ∧ ack = v.max
  · -- the acknowledgement of the FIN
    obtain ⟨hsf, hm⟩ := hfa
    have hd := hf hsf
    rw [hsf, hm] at hb
    simp only [decide_true, Bool.and_self, if_true] at hb
    rw [hm] at hacked hack
    obtain ⟨ha, hl⟩ := hacked v.snd.length le_rfl (by omega)
    right
    rw [hm]
    refine ⟨hsf, rfl, length_eq_zero_iff.1 (by omega), ?_⟩
    show v.max = v.iss + 1 + UInt32.ofNat (v.newAck v.max).acked + 1
    rw [ha, hack (v.snd.length + 1) hd.symm, hp]
    simp only [UInt32.ofNat_add, UInt32.add_assoc]
    rfl
  have hno : (v.sentfin && decide (ack = v.max)) = false := by
    rw [Bool.and_eq_false_iff]
    by_cases hsf : v.sentfin = true
    · exact .inr (decide_eq_false fun hm => hfa ⟨hsf, hm⟩)
    · exact .inl (by simpa using hsf)
  rw [hno] at hb
  have hcc : dist v.una ack ≤ v.snd.length := by
    cases hsf : v.sentfin with
    | false => rw [hsf] at hml; simp at hml; omega
    | true =>
      have hd := hf hsf
      have hne : dist v.una ack ≠ dist v.una v.max := fun he => hfa ⟨hsf, dist_inj he⟩
      omega
  obtain ⟨ha, hl⟩ := hacked _ hcc hb
  left
  refine ⟨?_, fun hsf => ?_⟩
  · show ack = v.iss + 1 + UInt32.ofNat (v.newAck ack).acked
    rw [ha, UInt32.ofNat_add, ← UInt32.add_assoc, ← hp]
    exact hack _ rfl
  show dist ack v.max = _
  rw [dist_rebase h1, hf hsf]
  omega

/-! ## The machine keeps the stream -/

/-- What the stream does not depend on. -/
lemma StreamInv.of_view (h : StreamInv s v)
    (hw : w = { v with
      nxt := w.nxt, recover := w.recover, rxmit := w.rxmit, fastrec := w.fastrec, blocks := w.blocks,
      hiwat := w.hiwat, rexmt := w.rexmt, persist := w.persist, gone := w.gone, forcedata := w.forcedata,
      passes := w.passes, unaPos := w.unaPos, changes := w.changes })
    (hpass : ∀ p ∈ w.passes, p.onStream v.stream) : StreamInv s w := by
  rw [hw]
  exact ⟨h.buf, h.pos.imp (fun u => ⟨u.una, u.all, u.sentfin, u.idle⟩) (fun y => ⟨y.slack, y.pos⟩),
    fun he => ⟨(h.est he).slack, (h.est he).pos⟩, hpass⟩

lemma once_streamInv (h : SendInv s c.view) (hs : StreamInv s c.view) (env : Env) :
    StreamInv s (tcpOutputOnce env c).1.view := by
  have hnone : ∀ p ∈ c.pass none :: c.passes, p.onStream c.stream := forall_mem_cons.2 ⟨pass_none_onStream c _, hs.sent⟩
  have hsome : ∀ p ∈ c.pass (some (tcpPassSegment env c.tp c.so)) :: c.passes, p.onStream c.stream :=
    forall_mem_cons.2 ⟨pass_onStream h hs env, hs.sent⟩
  obtain ⟨-, -, p, hv, -⟩ | ⟨-, -, he⟩ | ⟨-, -, -, hv⟩ | ⟨-, -, -, hv⟩ := once_cases env c
  · rw [hv]; exact hs.of_view rfl hnone
  · rw [he]; exact hs.of_view rfl hnone
  · rw [hv]; exact hs.of_view rfl hsome
  rw [hv]
  have hp := (planOk h env).passView (some (tcpPassSegment env c.tp c.so))
  have hi : SendInv s (c.passView (some (tcpPassSegment env c.tp c.so))) := h.of_view rfl
  have hst : StreamInv s (c.passView (some (tcpPassSegment env c.tp c.so))) := hs.of_view rfl hsome
  have hfin := plan_fin_new env c.tp c.so
  have hsync : ∀ hy : Synced s (c.passView (some (tcpPassSegment env c.tp c.so))),
      Synced s ((c.passView (some (tcpPassSegment env c.tp c.so))).afterSend (tcpPlan env c.tp c.so)
        (tcpProbing c.tp)) := fun hy => hy.afterSend hi hp hfin _
  refine ⟨hst.buf, ?_, fun he => hsync (hst.est he), hst.sent⟩
  rcases hst.pos with hu | hy
  swap
  · exact .inr (hsync hy)
  left
  refine hu.of_send rfl rfl rfl rfl ?_
  -- no FIN leaves before the SYN is acknowledged
  show (c.tp.sentfin || (tcpPlan env c.tp c.so).flags.fin) = false
  rw [show c.tp.sentfin = false from hu.sentfin]
  by_contra hc
  have hest : c.tp.state.haveEstablished = true := outflags_fin_est (hp.fin (by simpa using hc)).2
  have hy := hs.est hest
  rcases hy.pos with ⟨h1, -⟩ | ⟨h1, -⟩
  · have h2 : c.view.una = c.view.iss := hu.una
    have h3 : c.view.acked = 0 := by
      have : c.view.snd = c.view.stream := hu.all
      unfold View.acked; rw [this]; omega
    rw [h2, h3] at h1
    simp at h1
  · exact absurd (hu.sentfin.symm.trans h1) (by decide)

lemma handshake_streamInv {t : TcpState} {cs : List Change} (h : SendInv s v) (hs : StreamInv s v)
    (hst : v.state = .synSent ∨ v.state = .synReceived) (hm : v.max ≠ v.una) : StreamInv 0 (v.synced t cs) := by
  have hs1 := h.synState hst
  obtain ⟨hu, hd, -, -, -⟩ := h.syn hs1
  have hun : Unsynced s v := by
    rcases hs.pos with hu | hy
    · exact hu
    · have := hy.slack; omega
  have hd1 : dist v.una v.max = 1 := by
    have : dist v.una v.max ≠ 0 := fun h0 => hm (Seq32.dist_eq_zero.1 h0).symm
    omega
  have hmax : v.max = v.iss + 1 := by
    have : v.max - v.una = 1 := UInt32.toNat_inj.1 hd1
    rw [← hu, ← this, UInt32.add_comm, UInt32.sub_add_cancel]
  have hk : v.stream.length - v.snd.length = 0 := by rw [hun.all]; omega
  have hy : Synced 0 (v.synced t cs) := by
    refine ⟨rfl, .inl ⟨?_, fun hf => absurd (hun.sentfin.symm.trans hf) (by decide)⟩⟩
    show v.max = v.iss + 1 + UInt32.ofNat (v.stream.length - v.snd.length)
    rw [hk, hmax]; simp
  exact ⟨hs.buf, .inr hy, fun _ => hy, hs.sent⟩

lemma send_streamInv (h : SendInv s v) (hs : StreamInv s v) (bytes : List UInt8)
    (hst : TcpState.synSent.rank ≤ v.state.rank ∧ v.state.rank ≤ TcpState.closeWait.rank) :
    StreamInv s { v with snd := v.snd ++ bytes, stream := v.stream ++ bytes } := by
  have hno := h.no_fin hst
  have hk : (v.stream ++ bytes).length - (v.snd ++ bytes).length = v.acked := by
    rw [length_append, length_append]; unfold View.acked; omega
  have hsync : Synced s v → Synced s { v with snd := v.snd ++ bytes, stream := v.stream ++ bytes } := by
    rintro ⟨h0, ⟨h1, -⟩ | ⟨h1, -⟩⟩
    · refine ⟨h0, .inl ⟨?_, fun hf => absurd (hno.symm.trans hf) (by decide)⟩⟩
      show v.una = v.iss + 1 + UInt32.ofNat ((v.stream ++ bytes).length - (v.snd ++ bytes).length)
      rw [hk]; exact h1
    · exact absurd (hno.symm.trans h1) (by decide)
  refine ⟨?_, ?_, fun he => hsync (hs.est he), fun p hp => (hs.sent p hp).append bytes⟩
  · show v.snd ++ bytes = (v.stream ++ bytes).drop ((v.stream ++ bytes).length - (v.snd ++ bytes).length)
    rw [hk, drop_append_of_le_length (by unfold View.acked; omega), ← hs.buf]
  rcases hs.pos with hu | hy
  · by_cases he : v.state.haveEstablished = true
    · exact .inr (hsync (hs.est he))
    have h1 : s = 1 := by
      refine h.synState ?_
      revert hst he
      cases v.state <;> simp [TcpState.rank, TcpState.haveEstablished]
    exact .inl ⟨hu.una, by rw [hu.all], hu.sentfin, fun h0 => by omega⟩
  · exact .inr (hsync hy)

/-- Dropping from the front keeps the buffer a tail of the stream. -/
lemma drop_buffer {snd stream : List UInt8} (h : snd = stream.drop (stream.length - snd.length)) (n : Nat) :
    snd.drop n = stream.drop (stream.length - (snd.drop n).length) := by
  have hl := congrArg List.length h
  rw [length_drop] at hl
  by_cases hn : n ≤ snd.length
  · have : stream.length - (snd.drop n).length = stream.length - snd.length + n := by rw [length_drop]; omega
    rw [this, ← drop_drop, ← h]
  · rw [drop_of_length_le (by omega)]; simp

/-- The guard of the sender machine: `snd_una` is in the half of the
sequence space after `iss`. -/
def PastIss (una iss : UInt32) : Prop := gt una iss = true

/-- **The machine keeps the stream**, as long as no new acknowledgement is
taken with `snd_una` in the half before `iss`. -/
lemma micro_streamInv (a b : Nat × View) (h : SendInv a.1 a.2 ∧ StreamInv a.1 a.2)
    (hm : Micro PastIss a b) : SendInv b.1 b.2 ∧ StreamInv b.1 b.2 := by
  refine ⟨micro_sendInv h.1 hm, ?_⟩
  obtain ⟨hi, hs⟩ := h
  cases hm with
  | pass env c => exact once_streamInv hi hs env
  | timers _ _ | setNxt _ _ | recover | enter _ _ _ _ | leave | clear | sack _ _ | hiwat _ _ | gone | lastAcked _ _ _
  | force _ =>
    exact hs.of_view rfl hs.sent
  | newAck ack he h0 h1 hr hok =>
    have hy := (hs.est he).newAck hi hs.length_le h0 h1 hok
    exact ⟨drop_buffer hs.buf _, .inr hy, fun _ => hy, hs.sent⟩
  | handshake t cs ht hst hm => exact handshake_streamInv hi hs hst hm
  | simultaneous hst | dropping _ | listen _ _ =>
    exact ⟨hs.buf, hs.pos.imp (fun u => ⟨u.una, u.all, u.sentfin, u.idle⟩) (fun y => ⟨y.slack, y.pos⟩),
      fun he => absurd he Bool.false_ne_true, hs.sent⟩
  | advance t ha =>
    have hy := hs.est ha.est.1
    exact ⟨hs.buf, .inr ⟨hy.slack, hy.pos⟩, fun _ => ⟨hy.slack, hy.pos⟩, hs.sent⟩
  | connect isn hst hf =>
    have hss := hf.snd.trans hf.stream.symm
    exact ⟨hs.buf, .inl ⟨rfl, hss, hf.sentfin, fun h0 => absurd h0 Nat.one_ne_zero⟩,
      fun he => absurd he Bool.false_ne_true, hs.sent⟩
  | send bytes hst hlen => exact send_streamInv hi hs bytes hst

lemma Base.streamInv (h : Base s v) : StreamInv s v := by
  have hss : v.snd = v.stream := h.fresh.snd.trans h.fresh.stream.symm
  refine ⟨?_, .inl ⟨h.una, hss, h.fresh.sentfin, fun _ => h.fresh.snd⟩, fun he => ?_, ?_⟩
  · rw [h.fresh.snd, h.fresh.stream]; simp
  · rcases h.state with ⟨hs, -⟩ | ⟨hs, -⟩ <;> rw [hs] at he <;> exact absurd he (by decide)
  · rw [h.passes]; simp

/-! ## The result -/

/-- The application's bytes and the sequence numbers agree. -/
structure StreamIntact (c : Conn) : Prop where
  /-- The buffer is the tail of what the application wrote. -/
  buffer : c.so.snd = c.stream.drop (c.stream.length - c.so.snd.length)
  /-- With the SYN acknowledged, offset 0 of the buffer is at `snd_una`. -/
  head : c.tp.state.haveEstablished = true → c.tp.sentfin = false ∨ c.so.snd ≠ [] →
    c.tp.sndUna = c.tp.iss + 1 + UInt32.ofNat (c.stream.length - c.so.snd.length)
  /-- Every payload ever built carries the bytes its sequence number names. -/
  sent : ∀ p ∈ c.passes, p.onStream c.stream

lemma StreamInv.intact (h : StreamInv s c.view) : StreamIntact c := by
  refine ⟨h.buf, fun he hne => ?_, h.sent⟩
  rcases (h.est he).pos with ⟨h1, -⟩ | ⟨h1, -, h2, -⟩
  · exact h1
  rcases hne with hf | hf
  · exact absurd (hf.symm.trans h1) (by decide)
  · exact absurd h2 hf

/-- **Send-stream integrity.** In every run that takes no new acknowledgement
while `SEQ_LEQ(snd_una, iss)`, every byte ever sent is the application's
byte of that number, and the buffer starts at `snd_una`. -/
theorem stream_integrity {c : Conn} (h : (system.restrict (AckOk PastIss)).Reachable c) : StreamIntact c := by
  obtain ⟨s, ⟨-, hs⟩, -, -⟩ := reachable_keeps (fun s v hb => ⟨hb.sendInv, hb.streamInv⟩) micro_streamInv h
  exact hs.intact

/-! ## A client that writes -/

/-- A pure acknowledgement of `ack`. -/
def pureAck (c : Conn) (ack : UInt32) : Segment where
  seq := c.tp.rcvNxt
  ack := ack
  flags := { ThFlags.none with ack := true }
  window := 1000
  opts := []
  data := []

def oneByte (c : Conn) : Conn := step (sendByte c) (.ether 1000, .input (pureAck (sendByte c) (c.tp.sndUna + 1)))

/-- Connect, write a byte, have it acknowledged. -/
theorem stream_integrity_oneByte : (oneByte connected).stream = [0x2a] ∧ (oneByte connected).so.snd = [] ∧
    StreamIntact (oneByte connected) := by
  refine ⟨by decide, by decide, stream_integrity ⟨.attached, _, .attach (.ether 1000) false true,
    .cons ⟨?_, rfl⟩ (.cons ⟨?_, rfl⟩ (.cons ⟨?_, rfl⟩ (.cons ⟨?_, rfl⟩ (.nil _))))⟩⟩
  · intro seg h; cases h
  · intro seg h hest; exact absurd hest (by decide)
  · intro seg h; cases h
  · intro seg h _ _ _ _
    exact (by decide : gt (sendByte connected).tp.sndUna (sendByte connected).tp.iss = true)

end Hermes.L3.Tcp
