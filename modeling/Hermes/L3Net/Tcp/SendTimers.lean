import Hermes.L3Net.Tcp.Stream

/-!
# The send loop stops

* `output_terminates`: the loop of `tcp_output` (tcp_output.c:389-400) ends in
  every state that satisfies the send invariant, which every reachable one
  does, and each pass but the last advances the sender.
* `handlers_refine_sender`: from every reachable state, every event takes the
  connection through steps of the sender machine only.
-/
namespace Hermes.L3.Tcp

open Hermes.Seq32

/-- The state after `n` passes of the loop. -/
def tcpOutputPasses (env : Env) : Nat → Conn → Conn
  | 0, c => c
  | n + 1, c => tcpOutputPasses env n (tcpOutputOnce env c).1

/-- The loop makes `n` passes that each send something and ask for another
one, and a last one. -/
def StopsAfter (env : Env) (c : Conn) (n : Nat) : Prop :=
  (∀ i < n, (tcpOutputOnce env (tcpOutputPasses env i c)).2 = true ∧
    Advances (tcpOutputPasses env i c).view (tcpOutputPasses env (i + 1) c).view) ∧
  (tcpOutputOnce env (tcpOutputPasses env n c)).2 = false

lemma loop_stops (env : Env) {s B : Nat} (fuel : Nat) (c : Conn) (h : SendInv s c.view)
    (hB : ∀ b ∈ c.view.blocks, dist c.view.una b.start ≤ B) (hlt : loopBound B c.view < fuel) :
    ∃ n < fuel, StopsAfter env c n ∧ tcpOutputLoop env fuel c = tcpOutputPasses env (n + 1) c := by
  induction fuel generalizing c with
  | zero => exact absurd hlt (Nat.not_lt_zero _)
  | succ fuel ih =>
    unfold tcpOutputLoop
    dsimp only
    cases hr : (tcpOutputOnce env c).2 with
    | false => exact ⟨0, Nat.succ_pos _, ⟨fun i hi => absurd hi (Nat.not_lt_zero i), hr⟩, by rfl⟩
    | true =>
      have ho := once_outRel h env
      have hdec := once_loopBound h env hB hr
      obtain ⟨n, hn, ⟨hadv, hlast⟩, heq⟩ := ih (tcpOutputOnce env c).1 (once_sendInv h env)
        (by rw [ho.blocks, ho.una]; exact hB) (by omega)
      refine ⟨n + 1, Nat.succ_lt_succ hn, ⟨fun i hi => ?_, hlast⟩, by exact heq⟩
      cases i with
      | zero => exact ⟨hr, once_advances h env hr⟩
      | succ i => exact hadv i (Nat.lt_of_succ_lt_succ hi)

/-- **`tcp_output` terminates.** Every reachable state satisfies the send
invariant, and from any state that does, whatever its windows and its MSS,
the loop ends within `tcpOutputFuel` passes; each pass that asks for another
one advances `snd_nxt` or `sack_rxmit`. -/
theorem output_terminates : (∀ c, system.Reachable c → ∃ s, SendInv s c.view) ∧
    ∀ (env : Env) s c, SendInv s c.view → ∃ n < tcpOutputFuel c, StopsAfter env (tcpOutputIdle env c) n ∧
      tcpOutput env c = tcpOutputPasses env (n + 1) (tcpOutputIdle env c) := by
  refine ⟨fun _ => reachable_sendInv, fun env s c h => ?_⟩
  have hv := view_tcpOutputIdle env c
  refine loop_stops env (B := dist c.view.una c.view.max) _ _ (by rw [hv]; exact h) ?_ ?_ <;> rw [hv]
  · intro b hb
    have := h.board.ok b hb
    unfold BlockOk at this
    omega
  · change c.view.snd.length - _ + (_ - _) < c.view.snd.length + dist c.view.una c.view.max + 2
    omega

/-- **Refinement.** From every reachable state, every event takes the connection through steps of the sender
machine only. -/
theorem handlers_refine_sender {c : Conn} (h : system.Reachable c) (l : Env × Ev) : ∃ s₀ v₀ s s', Base s₀ v₀ ∧
    Path (fun _ _ => True) (s₀, v₀) (s, c.view) ∧ Path (fun _ _ => True) (s, c.view) (s', (step c l).view) := by
  obtain ⟨s₀, v₀, s, hb, hp, hf⟩ := reachable_simulated h
  have hok : AckOk (fun _ _ => True) c l := fun _ _ _ _ _ _ => trivial
  obtain ⟨s', hp', -⟩ := (step_handled (hp.sendInv hb.sendInv) hf hok.allows).ran
  exact ⟨s₀, v₀, s, s', hb, hp, hp'⟩

theorem handlers_refine_sender_sendByte : ∃ s s', Path (fun _ _ => True) (s, connected.view) (s', (sendByte connected).view) := by
  obtain ⟨-, -, s, s', -, -, h⟩ := handlers_refine_sender connected_reachable (.ether 1000, .send [0x2a])
  exact ⟨s, s', h⟩

end Hermes.L3.Tcp
