import Hermes.L3Net.Tcp.Bounds

/-!
# Outside recovery

What a pass plans that starts at `snd_una`, and the way of an empty segment
through `tcp_input`.
-/
namespace Hermes.L3.Tcp

open Hermes.Seq32

variable {d e : Conn} {tp : Tcpcb} {sg : TcpSeg} {seg : Segment}

/-- Outside recovery no hole is retransmitted. -/
lemma planBody_outside (env : Env) (so : Sock) (hf : tp.fastrecovery = false) :
    tcpPlanBody env tp so = tcpPlanData tp (sbCc so) (tcpPlanMaxseg env tp so) (tcpPlanStart tp) := by
  have hsack : tcpInSackRecovery tp = false := by unfold tcpInSackRecovery; rw [hf]; rfl
  unfold tcpPlanBody tcpPlanSackRxmit
  rw [hsack]
  rfl

lemma plan_outside (env : Env) (so : Sock) (hf : tp.fastrecovery = false) :
    (tcpPlan env tp so).sackRxmit = false := by
  rw [tcpPlan_eq, (planFin_data ..).1, planBody_outside env so hf]
  unfold tcpPlanData
  split <;> rfl

/-- What a pass plans that starts over at `snd_una`. -/
lemma plan_from_una {s : Nat} {c : Conn} (h : SendInv s c.view) (env : Env) (he : c.tp.state.haveEstablished = true)
    (hf : c.tp.fastrecovery = false)
    (hn : c.tp.sndNxt = c.tp.sndUna) (hw : c.tp.sndWnd ≠ 0) (hc : c.tp.sndCwnd ≠ 0) :
    (tcpPlan env c.tp c.so).sackRxmit = false ∧ (tcpPlan env c.tp c.so).seq = c.tp.sndUna ∧
    (c.so.snd ≠ [] → (tcpPlan env c.tp c.so).len ≠ 0) := by
  have hsack : tcpInSackRecovery c.tp = false := by unfold tcpInSackRecovery; rw [hf]; rfl
  have hsr := plan_outside env c.so hf
  refine ⟨hsr, ((planOk h env).fresh hsr).trans hn, fun hs h0 => ?_⟩
  have hf2 := (planFin_data c.tp (sbCc c.so) (tcpPlanBody env c.tp c.so)).2.2
  rw [← tcpPlan_eq, planBody_outside env c.so hf] at hf2
  unfold tcpPlanData at hf2
  rw [he] at hf2
  have hpos : ∀ {x : UInt32}, x ≠ 0 → 0 < x.toNat := fun hx => pos_of_ne_zero fun h0 => hx (UInt32.toNat_inj.1 h0)
  have hcc : 0 < (sbCc c.so).toNat := by
    rw [sbCc_toNat h.cc_le]
    exact List.length_pos_iff.2 hs
  have hmax : 0 < (tcpPlanMaxseg env c.tp c.so).toNat := maxPayload_pos _ _
  have hwin : 0 < (tcpSendWindow c.tp).toNat := by
    unfold tcpSendWindow
    rw [hsack]
    simp only [Bool.false_eq_true, if_false]
    generalize hg : (if c.tp.sndWnd < c.tp.sndCwnd then c.tp.sndWnd else c.tp.sndCwnd) = w
    have hw0 : 0 < w.toNat := by
      have h1 := hpos hw
      have h2 := hpos hc
      rw [← hg, toNat_ite_lt]
      omega
    split
    · decide
    · exact hw0
  simp only [Bool.not_true, Bool.false_eq_true, if_false, hn, UInt32.sub_self] at hf2
  have hstop : 0 < (if sbCc c.so < tcpSendWindow c.tp then sbCc c.so else tcpSendWindow c.tp).toNat := by
    rw [toNat_ite_lt]; omega
  generalize (if sbCc c.so < tcpSendWindow c.tp then sbCc c.so else tcpSendWindow c.tp) = stop at hf2 hstop
  have hgt : stop > 0 := UInt32.lt_iff_toNat_lt.2 hstop
  rw [h0, if_pos hgt] at hf2
  have h0' := congrArg UInt32.toNat hf2
  rw [toNat_ite_gt, UInt32.sub_zero, UInt32.toNat_zero] at h0'
  omega

/-- An empty segment goes through ACK processing and on to `tcp_output`. -/
lemma input_of_ack {env : Env} {c : Conn}
    (hck : tcpInputSyncCheck env (tcpHeard env c) (tcpReadSegment c.tp seg) = .ack d sg)
    (he : c.tp.state.haveEstablished = true) (hlen : sg.len = 0) (hfin : sg.flags.fin = false)
    (hack : tcpProcessAckSync env d sg = (e, .cont)) : tcpInput env c seg = tcpOutput env (tcpUpdateWindow e sg) := by
  have hsc := syncCheck_cases env (tcpHeard env c) (tcpReadSegment c.tp seg)
  rw [hck] at hsc
  have hst : d.tp.state = c.tp.state := Conn.state_of_view (Conn.view_of_kept (hsc.1.trans rfl))
  have hack' : tcpProcessAck env d sg = (e, .cont) := by
    unfold tcpProcessAck
    rw [if_neg (fun hc => by rw [← hst, hc] at he; cases he), hack]
  have hin : tcpInput env c seg = tcpInputSync env (tcpHeard env c) (tcpReadSegment c.tp seg) := by
    have hst' : (tcpHeard env c).tp.state.haveEstablished = true := he
    unfold tcpInput
    dsimp only
    generalize (tcpHeard env c).tp.state = t at hst'
    cases t with
    | closed | listen | synSent | synReceived => cases hst'
    | established | closeWait | finWait1 | closing | lastAck | finWait2 | timeWait => rfl
  rw [hin]
  unfold tcpInputSync
  rw [hck]
  dsimp only
  rw [hack']
  dsimp only
  unfold tcpInputData
  dsimp only
  generalize tcpUpdateWindow e sg = f
  have hdata : tcpProcessData env f sg = (f, true) := by
    unfold tcpProcessData
    rw [if_pos (by rw [hlen, hfin]; simp)]
  rw [hdata]
  rfl

end Hermes.L3.Tcp
