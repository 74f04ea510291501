import Hermes.L3Net.Tcp.SendSeq

/-!
# The scoreboard over whole runs

A SACK sender as a machine of its own: SACK options, acknowledgements, new data, recovery and its retransmissions, in any
order and with any numbers the checks of `tcp_process_ack` let through. The steps are the functions of the model; of
`tcp_output` only what it does to the send variables is kept, so a step may send as much as it likes.

* `sackInv_reachable`: what every step of this machine keeps of the scoreboard.
* `system_count`: a connection of `system` never has more blocks than the table holds.
* `sack_scoreboard`: the scoreboard of both, from `tcp_sack_update` and `tcp_sack_next_hole` (tcp_sack.c).
-/
namespace Hermes.L3.Tcp

open Hermes.Seq32 List

/-- The plan of a SACK retransmission. -/
def sackPlan (tp : Tcpcb) (seq len : UInt32) : TxPlan := ⟨seq, seq - tp.sndUna, len, ThFlags.none, true⟩

inductive SackLabel
  | update (blocks : List SackBlock)
  | ack (env : Env) (seg : TcpSeg)
  | send (stop : UInt32)
  | enter (stop : UInt32)
  | rexmit (env : Env) (len : UInt32)
  | timeout

/-- One step. A retransmission takes what `maxseg` and the window leave of the next hole. -/
inductive SackStep : Conn → SackLabel → Conn → Prop
  | update (c : Conn) (blocks : List SackBlock) : SackStep c (.update blocks) (tcpSackUpdate c blocks)
  | ack (c : Conn) (env) (seg : TcpSeg) (h0 : 0 < dist c.tp.sndUna seg.ack)
      (h1 : dist c.tp.sndUna seg.ack ≤ dist c.tp.sndUna c.tp.sndMax) :
      SackStep c (.ack env seg) (tcpNewAck env c seg)
  | send (c : Conn) (stop : UInt32) (h0 : dist c.tp.sndUna c.tp.sndMax ≤ dist c.tp.sndUna stop)
      (h1 : dist c.tp.sndUna stop < 2 ^ 31) :
      SackStep c (.send stop) { c with tp.sndMax := stop }
  | enter (c : Conn) (stop : UInt32) (hf : c.tp.fastrecovery = false)
      (h1 : dist c.tp.sndUna stop ≤ dist c.tp.sndUna c.tp.sndMax) :
      SackStep c (.enter stop) (tcpRecoveryMark (tcpRecoveryStart c) stop)
  | rexmit (c : Conn) (env seq hole len) (hf : tcpInSackRecovery c.tp = true) (hh : tcpSackNextHole c.tp = some (seq, hole))
      (hl : len.toNat ≤ hole.toNat) :
      SackStep c (.rexmit env len) (tcpAfterSendSeq env c (sackPlan c.tp seq len))
  | timeout (c) : SackStep c .timeout (tcpRexmtRewind c)

/-- The handshake is complete, and nothing has been SACKed or retransmitted. -/
def Conn.SackInit (c : Conn) : Prop :=
  c.tp.sackPermit = true ∧ c.tp.fastrecovery = false ∧ c.tp.sackBlocks = [] ∧ c.tp.sackRxmit = c.tp.sndUna ∧
    c.tp.sackRexmitBytes = 0 ∧ dist c.tp.sndUna c.tp.sndMax < 2 ^ 31

def sackSystem : LTS Conn SackLabel := ⟨Conn.SackInit, SackStep⟩

/-! ## A new acknowledgement -/

/-- What the scoreboard uses of a connection. -/
structure SackVars where
  una : UInt32
  max : UInt32
  rxmit : UInt32
  blocks : List SackBlock
  permit : Bool

def Conn.sack (c : Conn) : SackVars :=
  ⟨c.tp.sndUna, c.tp.sndMax, c.tp.sackRxmit, c.tp.sackBlocks, c.tp.sackPermit⟩

variable (env : Env) {c : Conn} {tp : Tcpcb}

lemma sack_tcpRttSample (c : Conn) (seg : TcpSeg) : (tcpRttSample env c seg).sack = c.sack := by
  have hm : (tcpRttMeasure env c seg).sack = c.sack := by
    unfold tcpRttMeasure
    split
    · rfl
    · split <;> rfl
  rw [← hm]
  unfold tcpRttSample
  split <;> rfl

lemma sack_tcpNewAckAdvance (c : Conn) (ack acked : UInt32) : (tcpNewAckAdvance c ack acked).sack = { c.sack with
    una := ack, blocks := tcpSackTrim ack c.sack.blocks, rxmit := if lt c.sack.rxmit ack then ack else c.sack.rxmit } := by
  have hd : (tcpDropAckedData c ack acked).sack = c.sack := by
    unfold tcpDropAckedData
    dsimp only
    split <;> rfl
  have ht : ∀ d : Conn, (tcpNewAckTimer d ack).sack = d.sack := by
    intro d
    unfold tcpNewAckTimer
    split
    · rfl
    · split <;> rfl
  rw [tcpNewAckAdvance, ht, ← hd]
  rfl

lemma sack_tcpNewAckRecovery (seg : TcpSeg) (acked : UInt32) (hp : c.tp.sackPermit = true) :
    (tcpNewAckRecovery env c seg acked).sack = c.sack := by
  have hs := sack_tcpRttSample env c seg
  rw [tcpNewAckRecovery, ← hs]
  generalize tcpRttSample env c seg = d at hs
  have hdp : d.tp.sackPermit = true := (congrArg SackVars.permit hs).trans hp
  split
  · exact (apply_ite Conn.sack _ _ _).trans (ite_self _)
  split
  · rw [tcpPartialAck, if_pos hdp]
  · rfl

lemma sack_tcpNewAck (seg : TcpSeg) (hp : c.tp.sackPermit = true) :
    (tcpNewAck env c seg).sack = { c.sack with
      una := seg.ack, blocks := tcpSackTrim seg.ack c.sack.blocks,
      rxmit := if lt c.sack.rxmit seg.ack then seg.ack else c.sack.rxmit } := by
  rw [tcpNewAck, sack_tcpNewAckAdvance, sack_tcpNewAckRecovery env seg _ hp]

lemma sack_tcpRecoveryMark (hp : c.tp.sackPermit = true) (stop : UInt32) :
    (tcpRecoveryMark (tcpRecoveryStart c) stop).sack = { (tcpRecoveryStart c).sack with rxmit := stop } := by
  rw [tcpRecoveryMark, if_pos (show (tcpRecoveryStart c).tp.sackPermit = true from hp)]
  rfl

/-! ## The scoreboard -/

variable {blocks bs : List SackBlock} {seq len u m : UInt32}

lemma tcpSackInsertAt_length (i : Nat) (b : SackBlock) (h : blocks.length ≤ tcpSackScoreboard) :
    (tcpSackInsertAt blocks i b).length ≤ tcpSackScoreboard := by
  unfold tcpSackInsertAt
  split
  · split
    · exact h
    have hlen := @length_insertIdx_le_succ _ blocks.dropLast b i
    rw [length_dropLast] at hlen
    have hpos : 0 < tcpSackScoreboard := by decide
    omega
  · have hlen := @length_insertIdx_le_succ _ blocks b i
    omega

lemma mergeLoop_length (rest pre : List SackBlock) (b : SackBlock) :
    (tcpSackMergeLoop pre rest b).1.length + (tcpSackMergeLoop pre rest b).2.1.length ≤ pre.length + rest.length := by
  induction rest generalizing pre b with
  | nil => exact le_rfl
  | cons cur rest ih =>
    rw [tcpSackMergeLoop]
    split
    · refine le_trans (ih (pre ++ [cur]) b) (le_of_eq ?_)
      simp only [length_append, length_cons, length_nil]
      omega
    split
    · exact le_rfl
    refine le_trans (ih pre (b.absorb cur)) ?_
    rw [length_cons]
    omega

lemma update_length {una max : UInt32} (bs : List SackBlock) (h : blocks.length ≤ tcpSackScoreboard) :
    (bs.foldl (tcpSackUpdateOne una max) blocks).length ≤ tcpSackScoreboard := by
  induction bs generalizing blocks with
  | nil => exact h
  | cons b bs ih =>
    refine ih ?_
    unfold tcpSackUpdateOne
    split
    · exact h
    refine tcpSackInsertAt_length _ _ ?_
    rw [length_append]
    have hm := mergeLoop_length blocks [] { b with start := if lt b.start una then una else b.start }
    rw [length_nil] at hm
    omega

lemma trim_length (ack : UInt32) (bs : List SackBlock) : (tcpSackTrim ack bs).length ≤ bs.length := by
  induction bs with
  | nil => exact le_rfl
  | cons b bs ih =>
    rw [tcpSackTrim]
    split
    · exact Nat.le_succ_of_le ih
    · exact le_rfl

/-- What the steps keep of the scoreboard. -/
structure SackInv (tp : Tcpcb) : Prop where
  permit : tp.sackPermit = true
  window : dist tp.sndUna tp.sndMax < 2 ^ 31
  rxmit_le : dist tp.sndUna tp.sackRxmit ≤ dist tp.sndUna tp.sndMax
  board : Scoreboard tp.sndUna tp.sndMax tp.sackBlocks
  count : tp.sackBlocks.length ≤ tcpSackScoreboard

/-- Where a retransmission ends: not past the end of the hole, which is where a block starts. -/
lemma SackInv.rexmit_stop (h : SackInv tp) {hole : UInt32} (hh : tcpSackNextHole tp = some (seq, hole))
    (hl : len.toNat ≤ hole.toNat) :
    dist tp.sndUna tp.sackRxmit ≤ dist tp.sndUna seq ∧ dist tp.sndUna (seq + len) = dist tp.sndUna seq + len.toNat ∧
      dist tp.sndUna (seq + len) ≤ dist tp.sndUna tp.sndMax := by
  obtain ⟨h1, -, b, hb, h3⟩ := h.board.nextHole h.window h.rxmit_le hh
  obtain ⟨hb1, hb2⟩ := h.board.ok b hb
  have hw := h.window
  have hd : dist tp.sndUna (seq + len) = dist tp.sndUna seq + len.toNat := dist_add (by omega)
  exact ⟨h1, hd, by omega⟩

lemma sackPlan_stop (tp : Tcpcb) (seq len : UInt32) : (sackPlan tp seq len).stop = seq + len := by
  simp [sackPlan, TxPlan.stop, ThFlags.none]

/-- A retransmission sends nothing new. -/
lemma SackInv.not_newMax (h : SackInv tp) {x : UInt32} (hx : dist tp.sndUna x ≤ dist tp.sndUna tp.sndMax) :
    gt x tp.sndMax = false := by
  have hw := h.window
  rw [← Bool.not_eq_true, gt_iff (by omega) hw]
  omega

variable {d : Conn} {l : SackLabel}

lemma SackInv.step (h : SackInv c.tp) (hs : SackStep c l d) : SackInv d.tp := by
  obtain ⟨hp, hw, hr, hb, hc⟩ := h
  cases hs with
  | update blocks => exact ⟨hp, hw, hr, hb.update blocks hw, update_length blocks hc⟩
  | ack env seg h0 h1 =>
    have hv := sack_tcpNewAck env seg hp
    have hmd : dist seg.ack c.tp.sndMax = dist c.tp.sndUna c.tp.sndMax - dist c.tp.sndUna seg.ack := dist_rebase h1
    generalize tcpNewAck env c seg = d at hv
    have huna : d.tp.sndUna = seg.ack := congrArg SackVars.una hv
    have hmax : d.tp.sndMax = c.tp.sndMax := congrArg SackVars.max hv
    have hblocks : d.tp.sackBlocks = tcpSackTrim seg.ack c.tp.sackBlocks := congrArg SackVars.blocks hv
    have hrxmit : d.tp.sackRxmit = if lt c.tp.sackRxmit seg.ack then seg.ack else c.tp.sackRxmit :=
      congrArg SackVars.rxmit hv
    have hle : dist seg.ack (if lt c.tp.sackRxmit seg.ack then seg.ack else c.tp.sackRxmit) ≤ dist seg.ack c.tp.sndMax := by
      split
      · rw [Seq32.dist_self]
        omega
      rename_i hlt
      rw [lt_iff (u := c.tp.sndUna) (by omega) (by omega)] at hlt
      rw [dist_rebase (u := c.tp.sndUna) (by omega)]
      omega
    refine ⟨(congrArg SackVars.permit hv).trans hp, ?_, ?_, ?_, ?_⟩
    · rw [huna, hmax]
      omega
    · rw [huna, hmax, hrxmit]
      exact hle
    · rw [huna, hmax, hblocks]
      exact hb.trim hw h1
    · rw [hblocks]
      exact (trim_length _ _).trans hc
  | send stop h0 h1 => exact ⟨hp, h1, hr.trans h0, hb.mono h0, hc⟩
  | enter stop hf h1 =>
    have hv := sack_tcpRecoveryMark hp stop
    generalize tcpRecoveryMark (tcpRecoveryStart c) stop = d at hv
    have huna : d.tp.sndUna = c.tp.sndUna := congrArg SackVars.una hv
    have hmax : d.tp.sndMax = c.tp.sndMax := congrArg SackVars.max hv
    have hblocks : d.tp.sackBlocks = c.tp.sackBlocks := congrArg SackVars.blocks hv
    have hrxmit : d.tp.sackRxmit = stop := congrArg SackVars.rxmit hv
    refine ⟨(congrArg SackVars.permit hv).trans hp, ?_, ?_, ?_, ?_⟩
    · rwa [huna, hmax]
    · rwa [huna, hmax, hrxmit]
    · rwa [huna, hmax, hblocks]
    · rwa [hblocks]
  | rexmit env seq hole len hf hh hl =>
    have hi : SackInv c.tp := ⟨hp, hw, hr, hb, hc⟩
    obtain ⟨-, -, hstop⟩ := hi.rexmit_stop hh hl
    have hmax : (tcpAfterSendSeq env c (sackPlan c.tp seq len)).tp.sndMax = c.tp.sndMax := by
      show (if gt (sackPlan c.tp seq len).stop c.tp.sndMax then _ else _) = _
      rw [sackPlan_stop, hi.not_newMax hstop, if_neg Bool.false_ne_true]
    have hrxmit : (tcpAfterSendSeq env c (sackPlan c.tp seq len)).tp.sackRxmit = seq + len := sackPlan_stop c.tp seq len
    refine ⟨hp, ?_, ?_, ?_, hc⟩
    · rw [hmax]
      exact hw
    · rw [hmax, hrxmit]
      exact hstop
    · rw [hmax]
      exact hb
  | timeout => exact ⟨hp, hw, le_trans (le_of_eq (Seq32.dist_self c.tp.sndUna)) (Nat.zero_le _), .nil _ _, Nat.zero_le _⟩

lemma sackInv_reachable (h : sackSystem.Reachable c) : SackInv c.tp := by
  refine LTS.Inductive.reachable (I := fun c => SackInv c.tp) ⟨?_, ?_⟩ h
  · rintro c ⟨hp, -, hb, hr, -, hw⟩
    exact ⟨hp, hw, by rw [hr, Seq32.dist_self]; omega, by rw [hb]; exact .nil _ _, by rw [hb]; exact Nat.zero_le _⟩
  · exact fun c l d hc hstep => hc.step hstep

/-! ## The same for connections -/

lemma micro_count {ok : UInt32 → UInt32 → Prop} (a b : Nat × View) (h : a.2.blocks.length ≤ tcpSackScoreboard)
    (hm : Micro ok a b) : b.2.blocks.length ≤ tcpSackScoreboard := by
  cases hm with
  | pass env c =>
    obtain ⟨-, -, p, hv, -⟩ | ⟨-, -, he⟩ | ⟨-, -, -, hv⟩ | ⟨-, -, -, hv⟩ := once_cases env c
    · rw [hv]; exact h
    · rw [he]; exact h
    · rw [hv]; exact h
    · rw [hv]; exact h
  | clear | handshake => exact Nat.zero_le _
  | sack bs => exact update_length bs h
  | newAck ack => exact (trim_length ack _).trans h
  | _ => exact h

lemma system_count (h : system.Reachable c) : c.tp.sackBlocks.length ≤ tcpSackScoreboard := by
  have hall : (system.restrict (AckOk fun _ _ => True)).Reachable c := h.restrict fun _ _ _ _ _ _ _ _ => trivial
  obtain ⟨_, hc, -⟩ := reachable_keeps (fun s v hb => by rw [hb.fresh.blocks]; exact Nat.zero_le _) micro_count hall
  exact hc

/-! ## Its bytes and its holes -/

/-- The lengths of blocks that lie apart from `a` on add up to less than the rest of the flight. -/
lemma Scoreboard.bytes_le (h : Scoreboard u m bs) (hm : dist u m < 2 ^ 31) (n : UInt32) {a : Nat} (ha : a ≤ dist u m)
    (hb : ∀ b ∈ bs, a ≤ dist u b.start) (hn : n.toNat ≤ a) :
    (bs.foldl (fun bytes b => bytes + (b.stop - b.start)) n).toNat ≤ n.toNat + (dist u m - a) := by
  induction bs generalizing n a with
  | nil => exact Nat.le_add_right _ _
  | cons b bs ih =>
    obtain ⟨h1, h2⟩ := h.ok b mem_cons_self
    have hsub : (b.stop - b.start).toNat = dist u b.stop - dist u b.start := toNat_sub (by omega)
    have hba := hb b mem_cons_self
    have hadd : (n + (b.stop - b.start)).toNat = n.toNat + (dist u b.stop - dist u b.start) := by
      rw [UInt32.toNat_add, hsub]
      exact Nat.mod_eq_of_lt (by omega)
    have hrest := ih (h.sublist (sublist_cons_self b bs)) (n + (b.stop - b.start)) h2
      (fun y hy => le_of_lt ((pairwise_cons.1 h.sorted).1 y hy)) (by omega)
    rw [foldl_cons]
    omega

/-- A hole lies apart from every block. -/
lemma holeFrom_apart (hm : dist u m < 2 ^ 31) {start : UInt32} (h : Scoreboard u m bs) (hs : dist u start ≤ dist u m)
    (he : tcpSackHoleFrom start bs = some (seq, len)) :
    ∀ b ∈ bs, dist u b.stop ≤ dist u seq ∨ dist u seq + len.toNat ≤ dist u b.start := by
  induction bs generalizing start with
  | nil => cases he
  | cons b bs ih =>
    obtain ⟨hb1, hb2⟩ := h.ok b mem_cons_self
    have hafter := (pairwise_cons.1 h.sorted).1
    have hrest := h.sublist (sublist_cons_self b bs)
    have hlt := lt_iff (u := u) (a := start) (b := b.stop) (by omega) (by omega)
    unfold tcpSackHoleFrom at he
    split at he
    · rename_i h1
      rw [lt_iff (u := u) (by omega) (by omega)] at h1
      cases he
      have hsub : (b.start - seq).toNat = dist u b.start - dist u seq := toNat_sub (by omega)
      intro y hy
      rcases mem_cons.1 hy with rfl | hy
      · omega
      have hby : dist u b.stop < dist u y.start := hafter y hy
      omega
    -- the search goes on past the block
    have hgo : dist u b.stop ≤ dist u (if lt start b.stop then b.stop else start) ∧
        dist u (if lt start b.stop then b.stop else start) ≤ dist u m := by
      split
      · exact ⟨le_rfl, hb2⟩
      rename_i h2
      rw [hlt] at h2
      exact ⟨by omega, hs⟩
    have hseq := (holeFrom_spec hm _ _ _ _ hrest hgo.2 he).1
    intro y hy
    rcases mem_cons.1 hy with rfl | hy
    · exact .inl (by omega)
    · exact ih hrest hgo.2 he y hy

/-- The blocks are not empty, in order with a gap between any two and inside the flight, at most as many as the table
holds; together they are no longer than the flight, and the next hole is a part of the flight that no block covers. -/
def SackOk (tp : Tcpcb) : Prop :=
  tp.sackBlocks.Pairwise (fun a b => dist tp.sndUna a.stop < dist tp.sndUna b.start) ∧
  (∀ b ∈ tp.sackBlocks, dist tp.sndUna b.start < dist tp.sndUna b.stop ∧
    dist tp.sndUna b.stop ≤ dist tp.sndUna tp.sndMax) ∧
  tp.sackBlocks.length ≤ tcpSackScoreboard ∧
  (tcpSackBytes tp).toNat ≤ dist tp.sndUna tp.sndMax ∧
  ∀ seq len, tcpSackNextHole tp = some (seq, len) → 0 < len.toNat ∧
    dist tp.sndUna seq + len.toNat ≤ dist tp.sndUna tp.sndMax ∧
    ∀ b ∈ tp.sackBlocks, dist tp.sndUna b.stop ≤ dist tp.sndUna seq ∨
      dist tp.sndUna seq + len.toNat ≤ dist tp.sndUna b.start

lemma sackOk_of (hb : Scoreboard tp.sndUna tp.sndMax tp.sackBlocks) (hw : dist tp.sndUna tp.sndMax < 2 ^ 31)
    (hr : dist tp.sndUna tp.sackRxmit ≤ dist tp.sndUna tp.sndMax) (hc : tp.sackBlocks.length ≤ tcpSackScoreboard) :
    SackOk tp := by
  have hle := hb.bytes_le hw 0 (Nat.zero_le _) (fun _ _ => Nat.zero_le _) le_rfl
  rw [UInt32.toNat_zero, zero_add] at hle
  refine ⟨hb.sorted, hb.ok, hc, hle, fun seq len hh => ?_⟩
  obtain ⟨-, h2, b, hmem, h3⟩ := hb.nextHole hw hr hh
  have hbok := hb.ok b hmem
  refine ⟨h2, by rw [h3]; exact (le_of_lt hbok.1).trans hbok.2, ?_⟩
  refine holeFrom_apart hw hb ?_ hh
  split
  · exact hr
  rw [Seq32.dist_self]
  exact Nat.zero_le _

/-- **The scoreboard.** Whatever is SACKed, acknowledged and sent, in the sender on its own and in every connection. -/
theorem sack_scoreboard : (∀ c, sackSystem.Reachable c → SackOk c.tp) ∧ ∀ c, system.Reachable c → SackOk c.tp := by
  refine ⟨fun c h => ?_, fun c h => ?_⟩
  · have hi := sackInv_reachable h
    exact sackOk_of hi.board hi.window hi.rxmit_le hi.count
  · obtain ⟨s, hi⟩ := reachable_sendInv h
    exact sackOk_of hi.board hi.window hi.rxmit_le (system_count h)

/-- Four bytes in flight, of which the third is SACKed. -/
def fourInFlight : Conn := { Conn.attached with tp.sackPermit := true, tp.sndMax := 4 }

theorem sack_scoreboard_thirdByte : (tcpSackUpdate fourInFlight [⟨2, 3⟩]).tp.sackBlocks = [⟨2, 3⟩] ∧
    (tcpSackBytes (tcpSackUpdate fourInFlight [⟨2, 3⟩]).tp).toNat ≤ 4 :=
  ⟨by decide, (sack_scoreboard.1 _ ⟨fourInFlight, [.update [⟨2, 3⟩]], ⟨rfl, rfl, rfl, rfl, rfl, by decide⟩,
    .cons (.update _ _) (.nil _)⟩).2.2.2.1⟩

end Hermes.L3.Tcp
