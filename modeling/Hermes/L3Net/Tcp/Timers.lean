import Hermes.L3Net.Tcp.Handlers

/-!
# What a pass of the send loop moves

`once_advances`: a pass of `tcp_output` that asks for another one has moved
`snd_nxt` inside the buffered data and the FIN, or `sack_rxmit` up to where a
block starts. So `loopBound` falls with every such pass (`once_loopBound`),
which is why the loop of tcp_output.c:389-400 ends.
-/
namespace Hermes.L3.Tcp

open Hermes.Seq32

variable {c d : Conn} {s : Nat}

lemma Conn.state_of_view (h : c.view = d.view) : c.tp.state = d.tp.state := congrArg View.state h

lemma gone_tcpClose (c : Conn) : (tcpClose c).gone = true := by
  have : (tcpClose c).view.gone = true := by rw [view_tcpClose]
  exact this

/-! ## One pass -/

lemma planFin_data (tp : Tcpcb) (cc : UInt32) (tx : TxPlan) : (tcpPlanFin tp cc tx).sackRxmit = tx.sackRxmit ∧
    (tcpPlanFin tp cc tx).seq = tx.seq ∧ (tcpPlanFin tp cc tx).len = tx.len := by
  unfold tcpPlanFin
  dsimp only
  split
  · exact ⟨rfl, rfl, rfl⟩
  · split <;> exact ⟨rfl, rfl, rfl⟩

/-- A SACK retransmission ends where some block starts. -/
lemma plan_sack_block (h : SendInv s c.view) (env : Env)
    (hs : (tcpPlan env c.tp c.so).sackRxmit = true) : ∃ b ∈ c.tp.sackBlocks,
    dist c.tp.sndUna (tcpPlan env c.tp c.so).seq + (tcpPlan env c.tp c.so).len.toNat ≤ dist c.tp.sndUna b.start := by
  have hdata : (tcpPlanData c.tp (sbCc c.so) (tcpPlanMaxseg env c.tp c.so) (tcpPlanStart c.tp)).sackRxmit = false := by
    unfold tcpPlanData
    split <;> rfl
  rw [tcpPlan_eq] at hs ⊢
  obtain ⟨f1, f2, f3⟩ := planFin_data c.tp (sbCc c.so) (tcpPlanBody env c.tp c.so)
  rw [f1] at hs
  rw [f2, f3]
  unfold tcpPlanBody at hs ⊢
  cases hp : tcpPlanSackRxmit c.tp (tcpPlanMaxseg env c.tp c.so) (tcpPlanStart c.tp) with
  | none => rw [hp, Option.getD_none, hdata] at hs; cases hs
  | some tx =>
    rw [hp] at hs
    rw [Option.getD_some] at hs ⊢
    unfold tcpPlanSackRxmit at hp
    split at hp
    · cases hp
    split at hp
    · cases hp
    rename_i hole
    obtain ⟨-, -, b, hb, h3⟩ := Scoreboard.nextHole h.board h.window h.rxmit_le hole
    dsimp only at hp
    split at hp
    · cases hp; cases hs
    cases hp
    refine ⟨b, hb, ?_⟩
    dsimp only
    rw [toNat_ite_lt, toNat_ite_gt]
    omega

/-! ## The loop -/

/-- `snd_nxt` moves, inside the buffered data and the FIN, or `sack_rxmit`
moves, up to where a block starts. -/
def Advances (v w : View) : Prop :=
  (w.rxmit = v.rxmit ∧ dist v.una v.nxt < dist v.una w.nxt ∧ dist v.una v.nxt < v.snd.length ∧
    dist v.una w.nxt ≤ v.snd.length + 1) ∨
  (w.nxt = v.nxt ∧ dist v.una v.rxmit < dist v.una w.rxmit ∧ ∃ b ∈ v.blocks, dist v.una w.rxmit ≤ dist v.una b.start)

variable {B : Nat}

/-- A pass that asks for another one has sent something. -/
lemma once_advances (h : SendInv s c.view) (env : Env) (hmore : (tcpOutputOnce env c).2 = true) :
    Advances c.view (tcpOutputOnce env c).1.view := by
  obtain ⟨-, hm, -⟩ | ⟨-, -, hm⟩ | ⟨-, -, hm, -⟩ | ⟨-, -, hm, hv⟩ := once_cases env c
  · rw [hm] at hmore; cases hmore
  · rw [hm] at hmore; cases hmore
  · rw [hm] at hmore; cases hmore
  rw [hm] at hmore
  obtain ⟨hm1, hm2⟩ := Bool.and_eq_true_iff.1 hmore
  have hforce : c.tp.forcedata = false := by simpa using hm2
  have hnp : tcpProbing c.tp = false := by unfold tcpProbing; rw [hforce]; rfl
  have hpl := planOk h env
  have hst := (stop_dist h hpl).1
  rw [hv, hnp]
  unfold Advances View.afterSend
  cases hsack : (tcpPlan env c.tp c.so).sackRxmit with
  | true =>
    obtain ⟨k1, k2, k3, -⟩ := hpl.sack hsack
    have hk1 : (tcpPlan env c.tp c.so).len.toNat ≠ 0 := fun h0 => k1 (UInt32.toNat_inj.1 h0)
    rw [k2] at hst
    have hsyn : (tcpPlan env c.tp c.so).flags.syn = false := by
      by_contra hc
      exact k1 (hpl.syn (by simpa using hc)).2.1
    rw [hsyn] at hst
    simp only [Bool.not_true, Bool.and_false, Bool.false_eq_true, if_false, if_true] at hst ⊢
    obtain ⟨b, hb, hle⟩ := plan_sack_block h env hsack
    refine .inr ⟨rfl, ?_, b, hb, ?_⟩
    · show dist c.view.una c.view.rxmit < dist c.view.una (tcpPlan env c.tp c.so).stop
      omega
    show dist c.view.una (tcpPlan env c.tp c.so).stop ≤ _
    rw [hst]
    exact hle
  | false =>
    have hlen : (tcpPlan env c.tp c.so).len = tcpPlanMaxseg env c.tp c.so := by rw [hsack] at hm1; simpa using hm1
    have hpos : 0 < (tcpPlan env c.tp c.so).len.toNat := by rw [hlen]; exact maxPayload_pos _ _
    have hne : (tcpPlan env c.tp c.so).len ≠ 0 := fun h0 => by rw [h0] at hpos; simp at hpos
    obtain ⟨d1, d2⟩ := hpl.data hne
    have hsyn : (tcpPlan env c.tp c.so).flags.syn = false := by
      by_contra hc
      exact hne (hpl.syn (by simpa using hc)).2.1
    rw [hpl.fresh hsack, hsyn] at hst
    rw [hpl.fresh hsack] at d2
    simp only [Bool.not_false, Bool.and_self, if_true, Bool.false_eq_true, if_false] at hst ⊢
    have hle : (if (tcpPlan env c.tp c.so).flags.fin then 1 else 0) ≤ 1 := by split <;> omega
    refine .inl ⟨rfl, ?_, ?_, ?_⟩
    · show dist c.view.una c.view.nxt < dist c.view.una (tcpPlan env c.tp c.so).stop
      omega
    · show dist c.view.una c.view.nxt < c.view.snd.length
      omega
    · show dist c.view.una (tcpPlan env c.tp c.so).stop ≤ c.view.snd.length + 1
      omega

/-- The bytes the loop can still send: of the buffer past `snd_nxt`, and of
the holes below `B` past `sack_rxmit`. -/
def loopBound (B : Nat) (v : View) : Nat := (v.snd.length - dist v.una v.nxt) + (B - dist v.una v.rxmit)

lemma once_loopBound (h : SendInv s c.view) (env : Env) (hB : ∀ b ∈ c.view.blocks, dist c.view.una b.start ≤ B)
    (hmore : (tcpOutputOnce env c).2 = true) : loopBound B (tcpOutputOnce env c).1.view < loopBound B c.view := by
  have ho := once_outRel h env
  unfold loopBound
  rw [ho.snd, ho.una]
  rcases once_advances h env hmore with ⟨h1, h2, h3, -⟩ | ⟨h1, h2, b, hb, h3⟩
  · rw [h1]
    omega
  have hBb := hB b hb
  rw [h1]
  omega

end Hermes.L3.Tcp
