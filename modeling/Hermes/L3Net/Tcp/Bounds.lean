import Hermes.L3Net.Tcp.Stream

/-!
# Round-trip estimates, and who may end a connection

Two properties of `Ctl`. Each is stable in the sense of `Control`, so the
walk over the handlers carries it through every event.

* `teardown_excused`: what `tcp_input` needs to end a connection (tcp_input.c).
* `rtt_bounded`: no operation of `tcp_xmit_timer` (tcp_input.c:96-110) overflows
  while the samples are small; `forgedEcho_srtt` is a run in which one does.
-/
namespace Hermes.L3.Tcp

open Hermes.Seq32

variable {G : Guard} {c : Conn}

/-- The invariant rule for stable properties. -/
lemma reachable_stable {ok : Conn → Env × Ev → Prop} (hok : ∀ c l, ok c l → G.Allows c l) {P : Ctl → Prop}
    (hP : Stable G P) (h0 : ∀ env so, P (tcpAttachPcb env so).ctl) (h : (system.restrict ok).Reachable c) :
    P c.ctl := by
  have hind : (system.restrict ok).Inductive fun c => Simulated G.ok c ∧ P c.ctl := by
    refine ⟨fun c hc => ⟨init_simulated hc, ?_⟩, ?_⟩
    · cases hc with
      | attach env ipv6 v4 => exact h0 env _
      | syn env lp _ seg v4 isn hl hs hr hc =>
        obtain ⟨-, ⟨⟩⟩ := Option.ite_none_left_eq_some.1 hc
        refine Keeps.output env P hP ?_
        have hset : ∀ d : Conn, (tcpSynReceive (tcpSendseqinit (tcpInitRcv d seg.seq) isn) seg).ctl = d.ctl := fun _ => rfl
        unfold tcpListenChild
        rw [hset, ctl_applySynOpts]
        exact h0 env _
    · rintro c l d ⟨⟨s₀, v₀, s, hb, hp, hf⟩, hc⟩ ⟨hl, rfl⟩
      have hs := step_handled (hp.sendInv hb.sendInv) hf (hok c l hl)
      obtain ⟨s', hp', hf'⟩ := hs.ran
      exact ⟨⟨s₀, v₀, s', hb, hp.trans hp', hf'⟩, hs.keeps P hP hc⟩
  exact (hind.reachable h).2

/-! ## Who may end a connection -/

/-- Nothing was said to the socket yet, or there is the excuse `tear`. -/
lemma untold_stable (tear : Prop) (error : Nat) : Stable ⟨fun _ _ => True, tear, fun _ => True⟩
    fun v => tear ∨ (v.gone = false ∧ v.error = error ∧ v.detached = false) where
  torn _ _ h ht _ := .inl (ht.elim id fun hd => h.elim id fun h => absurd (h.2.2.symm.trans hd) Bool.false_ne_true)
  told _ _ _ _ ht := .inl ht
  timed _ _ h := h
  sample _ _ _ h _ := h
  backoff _ h := h

/-- **Blind teardown.** A segment that ends a connection attached to its
socket, or changes `so->error`, is a reset at exactly `rcv_nxt`, or
acknowledges our FIN in LAST-ACK. -/
theorem teardown_excused (h : system.Reachable c) (hs : c.tp.state.haveRcvdSyn = true) (hg : c.gone = false)
    (hd : c.so.detached = false) (env : Env) (seg : Segment)
    (hend : (tcpInput env c seg).gone = true ∨ (tcpInput env c seg).so.error ≠ c.so.error) :
    (seg.flags.rst = true ∧ seg.seq = c.tp.rcvNxt) ∨
    (c.tp.state = .lastAck ∧ c.tp.sentfin = true ∧ seg.flags.ack = true ∧ seg.ack = c.tp.sndMax) := by
  obtain ⟨s₀, v₀, s, hb, hp, hf⟩ := reachable_simulated h
  generalize ht : ((seg.flags.rst = true ∧ seg.seq = c.tp.rcvNxt) ∨
    (c.tp.state = .lastAck ∧ c.tp.sentfin = true ∧ seg.flags.ack = true ∧ seg.ack = c.tp.sndMax)) = tear
  have hl : (⟨fun _ _ => True, tear, fun _ => True⟩ : Guard).Takes env c (tcpReadSegment c.tp seg) := by
    refine ⟨fun ha => ⟨fun _ _ _ => trivial, fun h1 h2 h3 => ?_, fun _ _ => trivial⟩,
      fun h1 h2 => ?_, fun h1 => ?_⟩
    · exact ht ▸ .inr ⟨h1, h2, ha, h3⟩
    · exact ht ▸ .inl ⟨h1, h2⟩
    · rw [h1] at hs
      cases hs
  have hin := input_handled _ env (hp.sendInv hb.sendInv) seg (hf.resolve_left (by rw [hg]; decide)) hl
  rcases hin.keeps _ (untold_stable tear c.so.error) (.inr ⟨hg, rfl, hd⟩) with h' | ⟨h1, h2, -⟩
  · exact h'
  rcases hend with h' | h'
  · exact absurd (h1.symm.trans h') Bool.false_ne_true
  · exact absurd h2 h'

/-- A reset at `rcv_nxt`. -/
def resetSeg : Segment := ⟨101, 0, { ThFlags.none with rst := true }, 0, [], []⟩

theorem teardown_excused_reset : (tcpInput (.ether 1000) connected resetSeg).gone = true ∧
    resetSeg.seq = connected.tp.rcvNxt := by
  have hg : (tcpInput (.ether 1000) connected resetSeg).gone = true := by decide
  exact ⟨hg, ((teardown_excused connected_reachable (by decide) (by decide) (by decide) _ _ (.inl hg)).resolve_right
    (by decide)).2⟩

/-! ## The round-trip estimate -/

/-- Representable as `int32_t`. -/
def Fits32 (x : Int) : Prop := -2 ^ 31 ≤ x ∧ x < 2 ^ 31

/-- No signed operation of `tcp_xmit_timer` overflows on this sample.
tcp_input.c:96-110 -/
def tcpXmitFits (env : Env) (tp : Tcpcb) (rtt : Int) : Prop :=
  let rtt := if rtt < 1 then 1 else rtt
  let delta := rtt - tp.srtt >>> (3 : Nat)
  let size := if delta < 0 then -delta else delta
  let srtt := if tp.srtt = 0 then rtt * 8 else tp.srtt + delta
  let rttvar := if tp.srtt = 0 then rtt * 2 else tp.rttvar + (size - tp.rttvar >>> (2 : Nat))
  let granularity : Int := (1000 / env.hz : Nat) + 1
  (tp.srtt ≠ 0 → Fits32 delta ∧ Fits32 size ∧ Fits32 (size - tp.rttvar >>> (2 : Nat))) ∧ Fits32 srtt ∧ Fits32 rttvar ∧
    Fits32 (srtt >>> (3 : Nat) + (if rttvar > granularity then rttvar else granularity))

lemma wrap32_of_fits {x : Int} (h : Fits32 x) : wrap32 x = x := by
  unfold Fits32 at h
  unfold wrap32
  rw [Int.bmod_def]
  split <;> omega

/-- The estimates when every sample is below `2^28` ms. -/
structure Timed (srtt rttvar : Int) (rto : Nat) : Prop where
  srtt_nonneg : 0 ≤ srtt
  srtt_le : srtt ≤ 8 * (2 ^ 28 - 1)
  var_nonneg : 0 ≤ rttvar
  var_le : rttvar ≤ 5 * (2 ^ 28 - 1)
  var_le_timed : srtt ≠ 0 → rttvar ≤ 4 * (2 ^ 28 - 1)
  rto_ge : tcpRtoMinMs ≤ rto
  rto_le : rto ≤ tcpRtoMaxMs

lemma Timed.sample (h : Timed c.tp.srtt c.tp.rttvar c.tp.rto) (env : Env) {rtt : Int} (hr : rtt < 2 ^ 28) :
    tcpXmitFits env c.tp rtt ∧ Timed (tcpXmitTimer env c rtt).tp.srtt (tcpXmitTimer env c rtt).tp.rttvar
      (tcpXmitTimer env c rtt).tp.rto := by
  have hrto : ∀ x, tcpRtoMinMs ≤ min (max x tcpRtoMinMs) tcpRtoMaxMs ∧ min (max x tcpRtoMinMs) tcpRtoMaxMs ≤ tcpRtoMaxMs := by
    unfold tcpRtoMinMs tcpRtoMaxMs
    omega
  have hq : 1000 / env.hz ≤ 1000 := Nat.div_le_self _ _
  unfold tcpXmitFits tcpXmitTimer
  dsimp only
  obtain ⟨h1, h2, h3, h4, h5, -, -⟩ := h
  generalize c.tp.srtt = s at h1 h2 h5 ⊢
  generalize c.tp.rttvar = v at h3 h4 h5 ⊢
  generalize 1000 / env.hz = q at hq ⊢
  generalize hr' : (if rtt < 1 then 1 else rtt) = r
  have hb : 1 ≤ r ∧ r < 2 ^ 28 := by rw [← hr']; split <;> omega
  generalize hd : r - s >>> (3 : Nat) = delta
  rw [Int.shiftRight_eq_div_pow] at hd
  generalize hm : (if delta < 0 then -delta else delta) = size
  have hs : 0 ≤ size ∧ size < 2 ^ 28 := by rw [← hm]; split <;> omega
  generalize hv' : v >>> (2 : Nat) = w
  rw [Int.shiftRight_eq_div_pow] at hv'
  have hdf : Fits32 delta := by unfold Fits32; omega
  rw [wrap32_of_fits hdf, hm]
  by_cases h0 : s = 0
  · simp only [h0, ne_eq, not_true_eq_false, false_implies, true_and, if_true, Int.shiftRight_eq_div_pow]
    have f1 : Fits32 (r * 8) := by unfold Fits32; omega
    have f2 : Fits32 (r * 2) := by unfold Fits32; omega
    rw [wrap32_of_fits f1, wrap32_of_fits f2]
    refine ⟨⟨f1, f2, ?_⟩, ⟨by omega, by omega, by omega, by omega, fun _ => by omega, (hrto _).1, (hrto _).2⟩⟩
    unfold Fits32
    split <;> omega
  have h5' := h5 h0
  simp only [h0, ne_eq, not_false_eq_true, true_implies, if_false, Int.shiftRight_eq_div_pow]
  have f1 : Fits32 (s + delta) := by unfold Fits32; omega
  have f2 : Fits32 (v + (size - w)) := by unfold Fits32; omega
  rw [wrap32_of_fits f1, wrap32_of_fits f2]
  refine ⟨⟨⟨hdf, ?_, ?_⟩, f1, f2, ?_⟩, ⟨by omega, by omega, by omega, by omega, fun _ => by omega, (hrto _).1, (hrto _).2⟩⟩ <;>
    unfold Fits32
  · omega
  · omega
  · split <;> omega

lemma Timed.backoff {s v : Int} {rto : Nat} (h : Timed s v rto) :
    Fits32 (v + s >>> (3 : Nat)) ∧ Timed 0 (wrap32 (v + s >>> (3 : Nat))) rto := by
  obtain ⟨h1, h2, h3, h4, h5, h6, h7⟩ := h
  generalize hq : s >>> (3 : Nat) = q
  rw [Int.shiftRight_eq_div_pow] at hq
  have hf : Fits32 (v + q) := by unfold Fits32; omega
  rw [wrap32_of_fits hf]
  refine ⟨hf, ⟨by omega, by omega, by omega, ?_, fun hc => absurd rfl hc, h6, h7⟩⟩
  by_cases h0 : s = 0
  · omega
  have := h5 h0
  omega

/-- A segment comes with samples below `2^28` ms only. -/
def SmallSamples (c : Conn) (l : Env × Ev) : Prop :=
  ∀ seg, l.2 = .input seg → ∀ rtt, Sampled l.1 c.ctl (tcpReadSegment c.tp seg).opts rtt → rtt < 2 ^ 28

lemma timed_stable : Stable ⟨fun _ _ => True, True, fun rtt => rtt < 2 ^ 28⟩
    fun v => v.gone = true ∨ Timed v.srtt v.rttvar v.rto where
  torn _ _ _ _ hg := .inl hg
  told _ _ _ h _ := h
  timed _ _ h := h
  sample env _ _ h hr := h.imp id fun h => (h.sample env hr).2
  backoff _ h := h.imp id fun h => h.backoff.2

/-- **Round-trip estimate.** With samples below `2^28` ms the estimates stay
non-negative and the timeout in its range, and no signed operation of the
next sample or timeout overflows. -/
theorem rtt_bounded (h : (system.restrict SmallSamples).Reachable c) (hg : c.gone = false) :
    0 ≤ c.tp.srtt ∧ 0 ≤ c.tp.rttvar ∧ tcpRtoMinMs ≤ c.tp.rto ∧ c.tp.rto ≤ tcpRtoMaxMs ∧
    (∀ env rtt, rtt < 2 ^ 28 → tcpXmitFits env c.tp rtt) ∧ Fits32 (c.tp.rttvar + c.tp.srtt >>> (3 : Nat)) := by
  have ht : Timed c.tp.srtt c.tp.rttvar c.tp.rto := by
    refine (reachable_stable (fun c l hl => ⟨fun seg hseg => ⟨fun _ => ⟨fun _ _ _ => trivial, fun _ _ _ => trivial,
      hl seg hseg⟩, fun _ _ => trivial, fun _ => trivial⟩, fun _ => trivial⟩) timed_stable
      (fun env so => .inr ?_) h).resolve_left (by rw [show c.ctl.gone = c.gone from rfl, hg]; simp)
    show Timed 0 0 tcpRtoInitialMs
    exact ⟨by decide, by decide, by decide, by decide, fun _ => by decide, by decide, by decide⟩
  exact ⟨ht.srtt_nonneg, ht.var_nonneg, ht.rto_ge, ht.rto_le, fun env _ hr => (ht.sample env hr).1, ht.backoff.1⟩

/-- An acknowledgement of the first byte that was answered in no time. -/
theorem rtt_bounded_oneByte : (oneByte connected).tp.srtt = 8 ∧ 0 ≤ (oneByte connected).tp.rttvar := by
  refine ⟨by decide, (rtt_bounded ⟨.attached, _, .attach (.ether 1000) false true,
    .cons ⟨?_, rfl⟩ (.cons ⟨?_, rfl⟩ (.cons ⟨?_, rfl⟩ (.cons ⟨?_, rfl⟩ (.nil _))))⟩ (by decide)).2.1⟩
  · intro seg h; cases h
  · rintro seg ⟨⟩ rtt (⟨h, -⟩ | ⟨-, rfl⟩)
    · exact absurd rfl h
    · decide
  · intro seg h; cases h
  · rintro seg ⟨⟩ rtt (⟨h, -⟩ | ⟨-, rfl⟩)
    · exact absurd rfl h
    · decide

/-- The peer echoes a time that lies `2^31 - 1` ms back. -/
def forgedEcho : List (Env × Ev) :=
  [(.ether 1000, .connect 0 true), (.ether 1000, .input { synAck with opts := [8, 10, 0, 0, 0, 1, 0, 0, 0, 0] }),
   (.ether 1000, .send [0x2a]),
   (.ether 1000, .input ⟨101, 2, { ThFlags.none with ack := true }, 1000, [8, 10, 0, 0, 0, 1, 0x80, 0, 0x03, 0xe9], []⟩)]

/-- **Counterexample.** One forged echo makes the estimate negative. -/
theorem forgedEcho_srtt : ∃ c, system.Reachable c ∧ c.gone = false ∧ c.tp.srtt < 0 :=
  ⟨forgedEcho.foldl step .attached, LTS.Reachable.run (.of_init (.attach (.ether 1000) false true))
    (LTS.run_ofFn Init step forgedEcho .attached), by decide, by decide⟩

/-! ## The congestion window -/

lemma toNat_cwndMax : tcpCwndMax.toNat = 1073741824 := rfl

/-- The window grows up to `TCP_CWND_MAX`. -/
lemma ackReceived_cwnd (acked : UInt32) (hm : c.tp.mss ≤ tcpMaxPayloadBytes)
    (hw : c.tp.sndCwnd.toNat ≤ tcpCwndMax.toNat) :
    ∃ w : UInt32, newrenoAckReceived c acked = { c with tp.sndCwnd := w } ∧
      c.tp.sndCwnd.toNat ≤ w.toNat ∧ w.toNat ≤ tcpCwndMax.toNat := by
  rw [toNat_cwndMax] at hw
  unfold tcpMaxPayloadBytes at hm
  have hmss : (UInt32.ofNat c.tp.mss).toNat = c.tp.mss := by rw [UInt32.toNat_ofNat']; omega
  unfold newrenoAckReceived
  dsimp only
  generalize hin : (if c.tp.sndCwnd ≤ c.tp.sndSsthresh then
    (if acked < UInt32.ofNat c.tp.mss then acked else UInt32.ofNat c.tp.mss)
    else UInt32.ofNat c.tp.mss * UInt32.ofNat c.tp.mss / c.tp.sndCwnd) = incr
  have hincr : incr.toNat ≤ 1924 * 1924 := by
    rw [← hin]
    split
    · rw [toNat_ite_lt]; omega
    rw [UInt32.toNat_div]
    refine le_trans (Nat.div_le_self _ _) ?_
    rw [UInt32.toNat_mul, hmss]
    exact (Nat.mod_le _ _).trans (Nat.mul_le_mul hm hm)
  generalize hin' : (if incr = 0 then 1 else incr) = step
  have hstep : step.toNat ≤ 1924 * 1924 := by
    rw [← hin']
    split
    · decide
    · exact hincr
  split
  · rename_i hmax
    refine ⟨c.tp.sndCwnd + step, rfl, ?_, UInt32.le_iff_toNat_le.1 hmax⟩
    rw [UInt32.toNat_add]
    omega
  · exact ⟨c.tp.sndCwnd, rfl, le_rfl, hw⟩

end Hermes.L3.Tcp
