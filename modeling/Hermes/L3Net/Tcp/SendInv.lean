import Hermes.L3Net.Tcp.View

/-!
# The send-sequence invariant and one output pass

`SendInv s v`: the sequence variables are ordered `snd_una ≤ snd_nxt ≤
snd_max`, the flight fits the buffered bytes plus `s` for an unacknowledged
SYN plus one for a sent FIN, and the scoreboard lies inside the flight. The
buffer is at most `SOCKET_MAX_BUFFER`, so every distance involved is far
below `2^31` and the modular comparisons are comparisons of distances.

`planOk` says what a pass may plan in such a state, and `pass_sendInv` that
the pass keeps the invariant.
-/
namespace Hermes.L3.Tcp

open Hermes.Seq32

/-- The states in which a FIN may have been sent (CLOSED while dropping). -/
def TcpState.mayHaveSentFin : TcpState → Bool
  | .finWait1 | .closing | .lastAck | .finWait2 | .timeWait | .closed => true
  | _ => false

structure SendInv (s : Nat) (v : View) : Prop where
  slack : s ≤ 1
  nxt_le : dist v.una v.nxt ≤ dist v.una v.max
  max_le : dist v.una v.max ≤ v.snd.length + s + (if v.sentfin then 1 else 0)
  cc_le : v.snd.length ≤ socketMaxBuffer
  hiwat_le : v.hiwat ≤ socketMaxBuffer
  rxmit_le : dist v.una v.rxmit ≤ dist v.una v.max
  board : Scoreboard v.una v.max v.blocks
  recover_le : v.fastrec = true → dist v.una v.recover ≤ dist v.una v.max
  syn : s = 1 → v.una = v.iss ∧ dist v.una v.max ≤ 1 ∧ v.blocks = [] ∧ v.sentfin = false ∧ v.fastrec = false
  est : v.state.haveEstablished = true → s = 0
  synState : v.state = .synSent ∨ v.state = .synReceived → s = 1
  fin : v.sentfin = true → v.state.mayHaveSentFin = true
  finAcked : v.state = .finWait2 ∨ v.state = .timeWait → dist v.una v.max ≤ v.snd.length

variable (tp : Tcpcb) {s : Nat} {v : View} {c : Conn} {tx : TxPlan} {wnd : UInt32}

lemma SendInv.max_lt (h : SendInv s v) : dist v.una v.max ≤ socketMaxBuffer + 2 := by
  have h1 := h.max_le
  have h2 := h.cc_le
  have h3 := h.slack
  split at h1 <;> omega

lemma SendInv.window (h : SendInv s v) : dist v.una v.max < 2 ^ 31 := by
  have := h.max_lt
  unfold socketMaxBuffer at this
  omega

lemma sbCc_toNat {so : Sock} (h : so.snd.length ≤ socketMaxBuffer) : (sbCc so).toNat = so.snd.length := by
  unfold socketMaxBuffer at h
  simp only [sbCc, UInt32.toNat_ofNat']
  omega

/-! ## Planning -/

lemma maxPayload_pos (n : Nat) : 0 < (tcpMaxPayload tp n).toNat := by
  unfold tcpMaxPayload tcpMaxPayloadBytes
  rw [UInt32.toNat_ofNat']
  split <;> omega

/-- A block of the scoreboard starts within the buffered data. -/
lemma SendInv.block_start (h : SendInv s v) {b : SackBlock} (hb : b ∈ v.blocks) :
    dist v.una b.start ≤ v.snd.length := by
  obtain ⟨h1, h2⟩ := h.board.ok b hb
  have h3 := h.max_le
  have hs : s = 0 := by
    have := h.slack
    by_contra hne
    have := (h.syn (by omega)).2.2.1
    rw [this] at hb
    exact absurd hb (by simp)
  split at h3 <;> omega

/-- What `tcp_plan_sack_rxmit` may decide: nothing fits, or a piece of a
hole, which is buffered data below `snd_max`. -/
lemma planSack_cases (h : SendInv s c.view) {maxseg : UInt32} (hmax : 0 < maxseg.toNat) {tx' : TxPlan}
    (hp : tcpPlanSackRxmit c.tp maxseg tx = some tx') :
    (tx' = tx ∧ 0 < c.so.snd.length) ∨
    ∃ seq off len, tx' = { tx with seq := seq, off := off, len := len, sackRxmit := true } ∧
      0 < len.toNat ∧ off.toNat = dist c.tp.sndUna seq ∧
      dist c.tp.sndUna c.tp.sackRxmit ≤ dist c.tp.sndUna seq ∧
      dist c.tp.sndUna seq + len.toNat ≤ c.so.snd.length ∧
      dist c.tp.sndUna seq + len.toNat ≤ dist c.tp.sndUna c.tp.sndMax := by
  unfold tcpPlanSackRxmit at hp
  split at hp
  · exact absurd hp (by simp)
  split at hp
  · exact absurd hp (by simp)
  rename_i seq len hole
  obtain ⟨h1, h2, b, hb, h3⟩ := Scoreboard.nextHole h.board h.window h.rxmit_le hole
  have h4 : dist c.tp.sndUna b.start ≤ c.so.snd.length := h.block_start hb
  have h5 : dist c.tp.sndUna b.start < dist c.tp.sndUna b.stop ∧
    dist c.tp.sndUna b.stop ≤ dist c.tp.sndUna c.tp.sndMax := h.board.ok b hb
  dsimp only at hp
  split at hp
  · simp only [Option.some.injEq] at hp
    exact .inl ⟨hp.symm, by omega⟩
  rename_i hgt
  simp only [Option.some.injEq] at hp
  right
  generalize hroom : c.tp.sndCwnd - tcpSackPipe c.tp = room at hp
  have hroom0 : 0 < room.toNat := by
    rw [UInt32.not_le, UInt32.lt_iff_toNat_lt] at hgt
    rw [← hroom, UInt32.toNat_sub_of_le _ _ (by rw [UInt32.le_iff_toNat_le]; omega)]
    omega
  refine ⟨seq, _, _, hp.symm, ?_, rfl, h1, ?_⟩
  · rw [toNat_ite_lt, toNat_ite_gt]; omega
  -- the piece is no longer than the hole
  rw [toNat_ite_lt, toNat_ite_gt]
  omega

/-- What a pass may plan in a state with view `v` and window `wnd`. -/
structure PlanOk (s : Nat) (v : View) (wnd : UInt32) (tx : TxPlan) : Prop where
  data : tx.len ≠ 0 → tx.off.toNat + tx.len.toNat ≤ v.snd.length ∧ dist v.una tx.seq = tx.off.toNat
  sack : tx.sackRxmit = true → tx.len ≠ 0 ∧ tx.flags.fin = false ∧ dist v.una v.rxmit ≤ dist v.una tx.seq ∧
    dist v.una tx.seq + tx.len.toNat ≤ dist v.una v.max
  fresh : tx.sackRxmit = false → tx.seq = v.nxt
  win : tx.sackRxmit = false → tx.len ≠ 0 → tx.off.toNat + tx.len.toNat ≤ Nat.max wnd.toNat 1
  fin : tx.flags.fin = true → dist v.una v.nxt + tx.len.toNat = v.snd.length ∧ (tcpOutflags v.state).fin = true
  syn : tx.flags.syn = true → v.nxt = v.iss ∧ tx.len = 0 ∧ (v.state = .synSent ∨ v.state = .synReceived)
  est : tx.len ≠ 0 → s = 0
  rst : tx.flags.rst = (tcpOutflags v.state).rst

/-- The plan before `tcp_plan_fin`. -/
def tcpPlanBody (env : Env) (tp : Tcpcb) (so : Sock) : TxPlan :=
  (tcpPlanSackRxmit tp (tcpPlanMaxseg env tp so) (tcpPlanStart tp)).getD
    (tcpPlanData tp (sbCc so) (tcpPlanMaxseg env tp so) (tcpPlanStart tp))

lemma tcpPlan_eq (env : Env) (tp : Tcpcb) (so : Sock) :
    tcpPlan env tp so = tcpPlanFin tp (sbCc so) (tcpPlanBody env tp so) := rfl

lemma planStart_flags : (tcpPlanStart tp).flags.fin = (tcpOutflags tp.state).fin ∧
    (tcpPlanStart tp).flags.rst = (tcpOutflags tp.state).rst ∧
    ((tcpPlanStart tp).flags.syn = true → tp.sndNxt = tp.iss ∧ (tp.state = .synSent ∨ tp.state = .synReceived)) := by
  unfold tcpPlanStart
  dsimp only
  split
  · simp
  rename_i h
  refine ⟨rfl, rfl, fun hs => ?_⟩
  rw [hs] at h
  refine ⟨by simpa using h, ?_⟩
  revert hs
  cases tp.state <;> simp [tcpOutflags, ThFlags.none]

lemma outflags_fin_est {s : TcpState} (h : (tcpOutflags s).fin = true) : s.haveEstablished = true := by
  revert h
  cases s <;> decide

/-- The window `tcp_plan_data` fills never exceeds the peer's, except for the
one byte of a forced probe. -/
lemma sendWindow_le : (tcpSendWindow tp).toNat ≤ Nat.max tp.sndWnd.toNat 1 := by
  unfold tcpSendWindow
  dsimp only
  generalize (if tcpInSackRecovery tp = true then _ else tp.sndCwnd) = cwnd
  have hmin : (if tp.sndWnd < cwnd then tp.sndWnd else cwnd).toNat ≤ tp.sndWnd.toNat := by rw [toNat_ite_lt]; omega
  generalize (if tp.sndWnd < cwnd then tp.sndWnd else cwnd) = win at hmin
  split
  · exact le_max_right _ _
  · exact hmin.trans (le_max_left _ _)

/-- The window part of a plan: new or retransmitted data from `snd_nxt`. -/
lemma planData_spec (h : SendInv s c.view) (maxseg : UInt32) (tx : TxPlan) (he : c.tp.state.haveEstablished = true) :
    ∃ len : UInt32, tcpPlanData c.tp (sbCc c.so) maxseg tx = { tx with off := c.tp.sndNxt - c.tp.sndUna, len := len } ∧
      (len ≠ 0 → dist c.tp.sndUna c.tp.sndNxt + len.toNat ≤ c.so.snd.length ∧
        dist c.tp.sndUna c.tp.sndNxt + len.toNat ≤ Nat.max c.tp.sndWnd.toNat 1) := by
  have hcc := sbCc_toNat h.cc_le
  have hwin := sendWindow_le c.tp
  unfold tcpPlanData
  rw [he]
  refine ⟨_, rfl, ?_⟩
  have ho : (c.tp.sndNxt - c.tp.sndUna).toNat = dist c.tp.sndUna c.tp.sndNxt := rfl
  intro hne
  have hne0 := UInt32.toNat_inj.not.2 hne
  rw [toNat_ite_gt, toNat_ite_sub, toNat_ite_lt, UInt32.toNat_zero] at *
  omega

/-- The plan is right but for its FIN flag, which `tcp_plan_fin` settles:
where the plan is not a SACK piece, it starts at `snd_nxt`. -/
lemma planBody_ok (h : SendInv s c.view) (env : Env) : ∃ tx, tx = tcpPlanBody env c.tp c.so ∧
      tx.flags = (tcpPlanStart c.tp).flags ∧
      (tx.len ≠ 0 → tx.off.toNat + tx.len.toNat ≤ c.so.snd.length ∧ dist c.tp.sndUna tx.seq = tx.off.toNat) ∧
      (tx.sackRxmit = true → tx.len ≠ 0 ∧ dist c.tp.sndUna c.tp.sackRxmit ≤ dist c.tp.sndUna tx.seq ∧
        dist c.tp.sndUna tx.seq + tx.len.toNat ≤ dist c.tp.sndUna c.tp.sndMax) ∧
      (tx.sackRxmit = false → tx.seq = c.tp.sndNxt ∧
        (tx.len ≠ 0 → tx.off.toNat + tx.len.toNat ≤ Nat.max c.tp.sndWnd.toNat 1)) ∧
      (tx.len ≠ 0 → s = 0) ∧
      (tx.sackRxmit = true ∨ (tx.off + tx.len = 0 ∧ 0 < c.so.snd.length) ∨
        tx.off = c.tp.sndNxt - c.tp.sndUna ∨ c.tp.state.haveEstablished = false) := by
  refine ⟨_, rfl, ?_⟩
  unfold tcpPlanBody
  cases hp : tcpPlanSackRxmit c.tp (tcpPlanMaxseg env c.tp c.so) (tcpPlanStart c.tp) with
  | some tx' =>
    rw [Option.getD_some]
    obtain ⟨rfl, hcc⟩ | ⟨seq, off, len, rfl, h1, h2, h3, h4, h5⟩ := planSack_cases h (maxPayload_pos ..) hp
    · exact ⟨rfl, by simp [tcpPlanStart], by simp [tcpPlanStart], fun _ => ⟨rfl, by simp [tcpPlanStart]⟩,
        by simp [tcpPlanStart], .inr (.inl ⟨by simp [tcpPlanStart], hcc⟩)⟩
    have hlen : len ≠ 0 := by rintro rfl; simp at h1
    have hs : s = 0 := by
      by_contra hne
      have := h.slack
      have hm := (h.syn (by omega)).2.2.1
      unfold tcpPlanSackRxmit at hp
      split at hp
      · exact absurd hp (by simp)
      have hb : c.tp.sackBlocks = [] := hm
      simp [tcpSackNextHole, hb, tcpSackHoleFrom] at hp
    exact ⟨rfl, fun _ => ⟨by dsimp only; omega, h2.symm⟩, fun _ => ⟨hlen, h3, h5⟩,
      fun hf => absurd hf (by simp), fun _ => hs, .inl rfl⟩
  | none =>
    rw [Option.getD_none]
    cases he : c.tp.state.haveEstablished with
    | false =>
      have : tcpPlanData c.tp (sbCc c.so) (tcpPlanMaxseg env c.tp c.so) (tcpPlanStart c.tp) = tcpPlanStart c.tp := by
        unfold tcpPlanData; rw [he]; rfl
      rw [this]
      exact ⟨rfl, by simp [tcpPlanStart], by simp [tcpPlanStart],
        fun _ => ⟨rfl, by simp [tcpPlanStart]⟩, by simp [tcpPlanStart], .inr (.inr (.inr rfl))⟩
    | true =>
      obtain ⟨len, hd, hlen⟩ := planData_spec h (tcpPlanMaxseg env c.tp c.so) (tcpPlanStart c.tp) he
      rw [hd]
      refine ⟨rfl, fun hne => ⟨(hlen hne).1, rfl⟩, by simp [tcpPlanStart],
        fun _ => ⟨rfl, fun hne => (hlen hne).2⟩, fun _ => h.est he, .inr (.inr (.inl rfl))⟩

/-- **The plan of a pass** in a state that meets the invariant. -/
lemma planOk (h : SendInv s c.view) (env : Env) : PlanOk s c.view c.tp.sndWnd (tcpPlan env c.tp c.so) := by
  obtain ⟨tx, htx, hf, hdata, hsack, hfresh, hlen, hoff⟩ := planBody_ok h env
  obtain ⟨pf1, pf2, pf3⟩ := planStart_flags c.tp
  rw [tcpPlan_eq, ← htx]
  -- `tcp_plan_fin` changes no other field than the FIN flag
  have hfin : ∃ b, tcpPlanFin c.tp (sbCc c.so) tx = { tx with flags := { tx.flags with fin := b } } ∧
      (b = true → (tcpOutflags c.tp.state).fin = true ∧ tx.sackRxmit = false ∧
        ¬ tx.off + tx.len < sbCc c.so ∧ (c.tp.sentfin = true → c.tp.sndNxt ≠ c.tp.sndMax)) := by
    unfold tcpPlanFin
    dsimp only
    split <;> rename_i h1
    · exact ⟨tx.flags.fin, rfl, fun hb => by simp [hb] at h1⟩
    split
    · exact ⟨false, rfl, by simp⟩
    rename_i h2
    refine ⟨tx.flags.fin, rfl, fun hb => ⟨by rw [← pf1, ← hf]; exact hb, ?_⟩⟩
    simp only [Bool.or_eq_true, Bool.and_eq_true, decide_eq_true_eq, not_or, not_and] at h2
    exact ⟨by simpa using h2.1.1, h2.1.2, h2.2⟩
  obtain ⟨b, hb, hbt⟩ := hfin
  rw [hb]
  refine ⟨hdata, ?_, fun hs => (hfresh hs).1, fun hs => (hfresh hs).2, ?_, ?_, ?_, ?_⟩
  · intro hs
    refine ⟨(hsack hs).1, ?_, (hsack hs).2⟩
    cases b with
    | false => rfl
    | true => have := (hbt rfl).2.1; rw [hs] at this; cases this
  · intro hbtrue
    obtain ⟨g1, g2, g3, g4⟩ := hbt hbtrue
    refine ⟨?_, g1⟩
    have he := outflags_fin_est g1
    have hs0 := h.est he
    have hcc := sbCc_toNat h.cc_le
    have hmx := h.max_le
    have hnx := h.nxt_le
    -- the plan covers the rest of the buffer
    have hoffs : tx.off = c.tp.sndNxt - c.tp.sndUna := by
      rcases hoff with hc | ⟨hc, hpos⟩ | hc | hc
      · rw [g2] at hc; cases hc
      · exfalso; apply g3; rw [hc, UInt32.lt_iff_toNat_lt, hcc]; simpa using hpos
      · exact hc
      · rw [he] at hc; cases hc
    have hoffn : tx.off.toNat = dist c.tp.sndUna c.tp.sndNxt := by rw [hoffs]; rfl
    show dist c.tp.sndUna c.tp.sndNxt + tx.len.toNat = c.so.snd.length
    by_cases hl : tx.len = 0
    · have hge : c.so.snd.length ≤ dist c.tp.sndUna c.tp.sndNxt := by
        rw [hl, UInt32.add_zero, UInt32.lt_iff_toNat_lt, hcc] at g3
        omega
      have hlt : dist c.tp.sndUna c.tp.sndNxt ≤ c.so.snd.length := by
        change dist c.tp.sndUna c.tp.sndMax ≤ c.so.snd.length + s + (if c.tp.sentfin then 1 else 0) at hmx
        change dist c.tp.sndUna c.tp.sndNxt ≤ dist c.tp.sndUna c.tp.sndMax at hnx
        split at hmx
        · rename_i hsf
          have : dist c.tp.sndUna c.tp.sndNxt ≠ dist c.tp.sndUna c.tp.sndMax := fun hc => g4 hsf (dist_inj hc)
          omega
        · omega
      rw [hl, UInt32.toNat_zero]; omega
    · obtain ⟨d1, d2⟩ := hdata hl
      have hle := h.cc_le
      change c.so.snd.length ≤ socketMaxBuffer at hle
      unfold socketMaxBuffer at hle
      have hadd : (tx.off + tx.len).toNat = tx.off.toNat + tx.len.toNat := by rw [UInt32.toNat_add]; omega
      rw [UInt32.lt_iff_toNat_lt, hadd, hcc] at g3
      omega
  · intro hsyn
    obtain ⟨q1, q2⟩ := pf3 (by rw [← hf]; exact hsyn)
    refine ⟨q1, ?_, q2⟩
    by_contra hne
    have := hlen hne
    have := h.synState q2
    omega
  · exact hlen
  · show tx.flags.rst = (tcpOutflags c.tp.state).rst
    rw [← pf2, ← hf]

/-! ## Accounting for what was sent -/

/-- The send variables a non-reset segment leaves behind. -/
def View.afterSend (v : View) (tx : TxPlan) (probe : Bool) : View :=
  let nxt := if !probe && !tx.sackRxmit then tx.stop else v.nxt
  let arm := !probe && decide (nxt ≠ v.una) && !v.rexmt
  { v with sentfin := v.sentfin || tx.flags.fin,
           rxmit := if tx.sackRxmit then tx.stop else v.rxmit,
           nxt := nxt,
           max := if gt tx.stop v.max then tx.stop else v.max,
           rexmt := v.rexmt || arm,
           persist := v.persist && !arm }

lemma view_tcpPersistEnds (c : Conn) : (tcpPersistEnds c).view = { c.view with persist := false } := by
  unfold tcpPersistEnds
  split
  · rfl
  rename_i h
  have : c.view.persist = false := by simpa [Conn.view, tcpTimerActive, Tcpcb.timer] using h
  rw [← this]

lemma view_tcpAfterSendTimer (c : Conn) :
    (tcpAfterSendTimer c).view = { c.view with
      rexmt := c.view.rexmt || tcpArmsRexmt c.tp,
      persist := c.view.persist && !tcpArmsRexmt c.tp } := by
  unfold tcpAfterSendTimer
  cases tcpArmsRexmt c.tp
  · simp
  · simp [view_tcpPersistEnds]

lemma view_tcpAfterSend (env : Env) (c : Conn) (tx : TxPlan) (win : UInt32) (hr : tx.flags.rst = false) :
    (tcpAfterSend env c tx win).view = c.view.afterSend tx (tcpProbing c.tp) := by
  unfold tcpAfterSend
  rw [hr]
  simp only [Bool.false_eq_true, if_false, view_tcpAfterSendTimer]
  rfl

/-- The end of a planned segment, as a distance. -/
lemma stop_dist (h : SendInv s v) (hp : PlanOk s v wnd tx) :
    dist v.una tx.stop = dist v.una tx.seq + tx.len.toNat + (if tx.flags.syn then 1 else 0) +
      (if tx.flags.fin then 1 else 0) ∧
    dist v.una tx.seq + tx.len.toNat ≤ socketMaxBuffer + 2 := by
  have hb : dist v.una tx.seq + tx.len.toNat ≤ socketMaxBuffer + 2 := by
    have h1 := h.max_lt
    have h2 := h.nxt_le
    have h3 := h.cc_le
    by_cases hl : tx.len = 0
    · rw [hl, UInt32.toNat_zero]
      cases hs : tx.sackRxmit with
      | true => exact absurd hl (hp.sack hs).1
      | false => rw [hp.fresh hs]; omega
    · have := hp.data hl; omega
  refine ⟨?_, hb⟩
  unfold socketMaxBuffer at hb
  have h1 : dist v.una (tx.seq + tx.len) = dist v.una tx.seq + tx.len.toNat := dist_add (by omega)
  have h2 : ∀ (b : Bool) (x : UInt32), dist v.una x < 2 ^ 24 →
      dist v.una (x + (if b then 1 else 0)) = dist v.una x + (if b then 1 else 0) := by
    intro b x hx
    cases b
    · simp
    · rw [dist_add (by simp; omega)]; rfl
  unfold TxPlan.stop
  have h3 := h2 tx.flags.syn (tx.seq + tx.len) (by omega)
  rw [h2 _ _ (by rw [h3]; split <;> omega), h3, h1]

/-- Where `snd_max` ends up. -/
lemma afterSend_max (h : SendInv s v) (hp : PlanOk s v wnd tx) (probe : Bool) :
    dist v.una (v.afterSend tx probe).max = max (dist v.una tx.stop) (dist v.una v.max) := by
  obtain ⟨hd, hb⟩ := stop_dist h hp
  unfold socketMaxBuffer at hb
  have hstop : dist v.una tx.stop < 2 ^ 31 := by rw [hd]; split <;> split <;> omega
  have hgt := gt_iff hstop h.window
  unfold View.afterSend
  dsimp only
  by_cases hc : gt tx.stop v.max = true
  · rw [if_pos hc]; have := hgt.1 hc; omega
  · rw [if_neg hc]; rw [hgt] at hc; omega

/-- The flight after a send still fits the buffer, the SYN and the FIN. -/
lemma afterSend_stop_le (h : SendInv s v) (hp : PlanOk s v wnd tx) : dist v.una tx.stop ≤ dist v.una v.max ∨
    dist v.una tx.stop ≤ v.snd.length + s + (if tx.flags.fin then 1 else 0) := by
  obtain ⟨hd, -⟩ := stop_dist h hp
  have hnx := h.nxt_le
  cases hs : tx.sackRxmit with
  | true =>
    obtain ⟨h1, h2, -, h4⟩ := hp.sack hs
    have hsyn : tx.flags.syn = false := by
      by_contra hc
      exact h1 (hp.syn (by simpa using hc)).2.1
    left
    rw [hd, h2, hsyn]
    simpa using h4
  | false =>
    rw [hd, hp.fresh hs]
    cases hsyn : tx.flags.syn with
    | true =>
      obtain ⟨h1, h2, h3⟩ := hp.syn hsyn
      have hs1 := h.synState h3
      have hu := (h.syn hs1).1
      rw [h1, ← hu, Seq32.dist_self, h2, UInt32.toNat_zero, if_pos rfl]
      omega
    | false =>
      cases hf : tx.flags.fin with
      | true =>
        have := (hp.fin hf).1
        simp; omega
      | false =>
        by_cases hl : tx.len = 0
        · rw [hl]; simp; omega
        obtain ⟨h1, h2⟩ := hp.data hl
        rw [hp.fresh hs] at h2
        simp; omega

lemma afterSend_sendInv (h : SendInv s v) (hp : PlanOk s v wnd tx) (probe : Bool) :
    SendInv s (v.afterSend tx probe) := by
  have hmax : dist (v.afterSend tx probe).una (v.afterSend tx probe).max = _ := afterSend_max h hp probe
  have hle := afterSend_stop_le h hp
  have hml := h.max_le
  have hnx := h.nxt_le
  have hrx := h.rxmit_le
  have hfin : tx.flags.fin = true → (tcpOutflags v.state).fin = true := fun hf => (hp.fin hf).2
  have hsl := h.slack
  constructor
  case slack => exact h.slack
  case nxt_le =>
    rw [hmax]
    show dist v.una (if !probe && !tx.sackRxmit then tx.stop else v.nxt) ≤ _
    split <;> omega
  case max_le =>
    rw [hmax]
    show _ ≤ v.snd.length + s + (if (v.sentfin || tx.flags.fin) = true then 1 else 0)
    cases hsf : v.sentfin <;> cases hf : tx.flags.fin <;> rw [hsf] at hml <;> rw [hf] at hle <;>
      simp at hml hle ⊢ <;> omega
  case cc_le => exact h.cc_le
  case hiwat_le => exact h.hiwat_le
  case rxmit_le =>
    rw [hmax]
    show dist v.una (if tx.sackRxmit then tx.stop else v.rxmit) ≤ _
    split <;> omega
  case board => exact h.board.mono (le_of_le_of_eq (le_max_right _ _) hmax.symm)
  case recover_le =>
    intro hf
    have := h.recover_le hf
    rw [hmax]
    exact this.trans (le_max_right _ _)
  case syn =>
    intro hs
    obtain ⟨h1, h2, h3, h4, h5⟩ := h.syn hs
    -- in a handshake state no FIN is planned and no data either
    have hnf : tx.flags.fin = false := by
      by_contra hc
      have := h.est (outflags_fin_est (hfin (by simpa using hc)))
      omega
    refine ⟨h1, ?_, h3, by show (v.sentfin || tx.flags.fin) = false; rw [h4, hnf]; rfl, h5⟩
    rw [hmax]
    obtain ⟨hd, -⟩ := stop_dist h hp
    have hl : tx.len = 0 := by
      by_contra hne
      have := hp.est hne
      omega
    have hsk : tx.sackRxmit = false := by
      by_contra hc
      exact (hp.sack (by simpa using hc)).1 hl
    rw [hnf, hl, hp.fresh hsk] at hd
    cases hsyn : tx.flags.syn with
    | true =>
      rw [hsyn, (hp.syn hsyn).1, ← h1, Seq32.dist_self] at hd
      simp at hd; omega
    | false => rw [hsyn] at hd; simp at hd; omega
  case est => exact h.est
  case synState => exact h.synState
  case fin =>
    intro hf
    rcases Bool.or_eq_true_iff.1 hf with hf | hf
    · exact h.fin hf
    have := hfin hf
    show v.state.mayHaveSentFin = true
    revert this
    cases v.state <;> decide
  case finAcked =>
    intro hst
    have hold := h.finAcked hst
    have hst' : v.state = .finWait2 ∨ v.state = .timeWait := hst
    have hs0 : s = 0 := h.est (by rcases hst' with h' | h' <;> rw [h'] <;> decide)
    have hnf : tx.flags.fin = false := by
      by_contra hc
      have := hfin (by simpa using hc)
      rcases hst' with h' | h' <;> rw [h'] at this <;> exact absurd this (by decide)
    rw [hnf] at hle
    rw [hmax]
    change _ ≤ v.snd.length
    simp at hle
    omega

/-! ## One pass -/

/-- The history entry of a pass from `c`. -/
def Conn.pass (c : Conn) (seg : Option Segment) : Pass := ⟨c.tp, c.so, c.stream.length - c.so.snd.length, c.unaPos, seg⟩

/-- `c`'s view with the pass recorded. -/
def Conn.passView (c : Conn) (seg : Option Segment) : View := { c.view with passes := c.pass seg :: c.passes }

lemma forcedata_tcpAfterSend (env : Env) (c : Conn) (tx : TxPlan) (win : UInt32) :
    (tcpAfterSend env c tx win).tp.forcedata = c.tp.forcedata := by
  have ht : ∀ d : Conn, (tcpAfterSendTimer d).tp.forcedata = d.tp.forcedata := by
    intro d
    unfold tcpAfterSendTimer
    split
    · unfold tcpPersistEnds
      split <;> rfl
    · rfl
  unfold tcpAfterSend
  split
  · rfl
  · exact ht _

lemma view_tcpMaybePersist (c : Conn) (cc : UInt32) :
    ∃ p, (tcpMaybePersist c cc).view = { c.view with persist := p } ∧
      (c.view.persist = true → p = true) ∧
      (cc ≠ 0 → c.tp.state.haveEstablished = true → c.view.rexmt = true ∨ p = true) := by
  unfold tcpMaybePersist
  split
  · rename_i h
    refine ⟨c.view.persist, rfl, id, fun h1 h2 => ?_⟩
    rw [h2] at h
    simp [h1] at h
  split
  · rename_i h
    exact ⟨c.view.persist, rfl, id, fun _ _ => by simpa [tcpTimerActive, Tcpcb.timer, Conn.view] using h⟩
  · exact ⟨true, by rfl, fun _ => rfl, fun _ _ => .inr rfl⟩

/-- **Everything a pass can do**: send nothing and perhaps start the persist
timer, fail to allocate, reset, or send and account. -/
lemma once_cases (env : Env) (c : Conn) : (tcpPlanSends env c.tp c.so = false ∧ (tcpOutputOnce env c).2 = false ∧
      ∃ p, (tcpOutputOnce env c).1.view = { c.passView none with persist := p } ∧
        (c.view.persist = true → p = true) ∧
        (sbCc c.so ≠ 0 → c.tp.state.haveEstablished = true → c.view.rexmt = true ∨ p = true)) ∨
    (tcpPlanSends env c.tp c.so = true ∧ env.alloc c.passes.length = false ∧
      tcpOutputOnce env c = (c.record none, false)) ∨
    (tcpPlanSends env c.tp c.so = true ∧ (tcpPlan env c.tp c.so).flags.rst = true ∧ (tcpOutputOnce env c).2 = false ∧
      (tcpOutputOnce env c).1.view = c.passView (some (tcpPassSegment env c.tp c.so))) ∨
    (tcpPlanSends env c.tp c.so = true ∧ (tcpPlan env c.tp c.so).flags.rst = false ∧
      (tcpOutputOnce env c).2 = ((decide ((tcpPlan env c.tp c.so).len = tcpPlanMaxseg env c.tp c.so) ||
        (tcpPlan env c.tp c.so).sackRxmit) && !c.tp.forcedata) ∧
      (tcpOutputOnce env c).1.view = (c.passView (some (tcpPassSegment env c.tp c.so))).afterSend
        (tcpPlan env c.tp c.so) (tcpProbing c.tp)) := by
  unfold tcpOutputOnce
  dsimp only
  split <;> rename_i h
  · left
    refine ⟨by simpa using h, rfl, ?_⟩
    exact view_tcpMaybePersist (c.record none) (sbCc c.so)
  have hs : tcpPlanSends env c.tp c.so = true := by simpa using h
  right
  split
  · rename_i ha
    exact .inl ⟨hs, by simpa using ha, rfl⟩
  right
  cases hr : (tcpPlan env c.tp c.so).flags.rst with
  | true =>
    left
    refine ⟨hs, rfl, by simp, ?_⟩
    unfold tcpAfterSend
    rw [hr]
    rfl
  | false =>
    right
    refine ⟨hs, rfl, ?_, view_tcpAfterSend _ _ _ _ hr⟩
    dsimp only
    rw [forcedata_tcpAfterSend]
    simp [Conn.record]

lemma SendInv.of_view {w : View} (h : SendInv s v)
    (hw : w = { v with
      rexmt := w.rexmt, persist := w.persist, passes := w.passes, stream := w.stream, gone := w.gone,
      forcedata := w.forcedata, unaPos := w.unaPos, changes := w.changes })
    : SendInv s w := by
  rw [hw]; exact ⟨h.slack, h.nxt_le, h.max_le, h.cc_le, h.hiwat_le, h.rxmit_le, h.board, h.recover_le,
    h.syn, h.est, h.synState, h.fin, h.finAcked⟩

lemma PlanOk.passView {w : UInt32} (hp : PlanOk s c.view w tx) (seg : Option Segment) :
    PlanOk s (c.passView seg) w tx :=
  ⟨hp.data, hp.sack, hp.fresh, hp.win, hp.fin, hp.syn, hp.est, hp.rst⟩

/-- A pass keeps the invariant. -/
lemma once_sendInv (h : SendInv s c.view) (env : Env) : SendInv s (tcpOutputOnce env c).1.view := by
  obtain ⟨-, -, p, hv, -⟩ | ⟨-, -, he⟩ | ⟨-, -, -, hv⟩ | ⟨-, -, -, hv⟩ := once_cases env c
  · rw [hv]; exact h.of_view rfl
  · rw [he]; exact h.of_view rfl
  · rw [hv]; exact h.of_view rfl
  · rw [hv]
    exact afterSend_sendInv (h.of_view rfl) ((planOk h env).passView _) _

end Hermes.L3.Tcp
