import Hermes.L3Net.Tcp.Refine

/-!
# The send-sequence invariant over whole runs

`SendOrder` is the window invariant of one state, `Pass.withinWindow` what
one recorded output pass promises about new data. Both hold in every
reachable state of `system` (`send_sequence`): the machine keeps them and
the connection refines the machine.

* `SendInv.order`: the order of the variables, from the invariant of the machine.
* `micro_withinWindow`: no step of the machine records a pass outside the window.
* `send_sequence`: both for connections, whatever `tcp_output` (tcp_output.c:389) is called with.
-/
namespace Hermes.L3.Tcp

open Hermes.Seq32 List

/-- The SYN was or will be sent and nothing acknowledged it. -/
def TcpState.synUnacked : TcpState → Bool
  | .synSent | .synReceived => true
  | _ => false

/-- `snd_una ≤ snd_nxt ≤ snd_max`, and the flight is what is buffered plus
the SYN and the FIN. -/
structure SendOrder (c : Conn) : Prop where
  una_nxt : leq c.tp.sndUna c.tp.sndNxt = true
  nxt_max : leq c.tp.sndNxt c.tp.sndMax = true
  window : dist c.tp.sndUna c.tp.sndMax < 2 ^ 31
  flight : dist c.tp.sndUna c.tp.sndMax ≤ c.so.snd.length +
    (if c.tp.state.synUnacked then 1 else 0) + (if c.tp.sentfin then 1 else 0)

/-- A segment with data beyond `snd_max` ends inside the peer's window (or
is a one-byte probe) and inside the buffered data. -/
def Pass.withinWindow (p : Pass) : Prop := ∀ g, p.seg = some g → g.data ≠ [] →
    gt (g.seq + UInt32.ofNat g.data.length) p.tp.sndMax = true →
    dist p.tp.sndUna (g.seq + UInt32.ofNat g.data.length) ≤ Nat.max p.tp.sndWnd.toNat 1 ∧
    dist p.tp.sndUna (g.seq + UInt32.ofNat g.data.length) ≤ p.so.snd.length

variable {s : Nat} {c : Conn}

/-- The slack is the SYN's. -/
lemma SendInv.slack_syn (h : SendInv s c.view) (hf : FreshOk s c) :
    s = if c.tp.state.synUnacked then 1 else 0 := by
  have hest : c.tp.state.haveEstablished = true → s = 0 := h.est
  have hsyn : c.tp.state = .synSent ∨ c.tp.state = .synReceived → s = 1 := h.synState
  have hidle : c.tp.state.idle = true → s = 0 := fun hi => (hf hi).1
  revert hest hsyn hidle
  cases c.tp.state with
  | synSent | synReceived => exact fun _ h' _ => h' (by simp)
  | closed | listen => exact fun _ _ h' => h' rfl
  | established | closeWait | finWait1 | closing | lastAck | finWait2 | timeWait =>
    exact fun h' _ _ => h' rfl

lemma SendInv.order (h : SendInv s c.view) (hf : FreshOk s c) : SendOrder c := by
  have hw : dist c.tp.sndUna c.tp.sndMax < 2 ^ 31 := h.window
  have hn : dist c.tp.sndUna c.tp.sndNxt ≤ dist c.tp.sndUna c.tp.sndMax := h.nxt_le
  refine ⟨?_, ?_, hw, ?_⟩
  · exact (leq_iff (by rw [Seq32.dist_self]; omega) (by omega)).2 (by rw [Seq32.dist_self]; omega)
  · exact (leq_iff (by omega) hw).2 hn
  · rw [← h.slack_syn hf]; exact h.max_le

/-! ## The history of passes -/

/-- The payload is as long as planned: `tcp_build_segment` zero-fills. -/
lemma passSegment_length (env : Env) (tp : Tcpcb) (so : Sock) :
    (tcpPassSegment env tp so).data.length = (tcpPlan env tp so).len.toNat := by
  unfold tcpPassSegment tcpBuildSegment sockbufCopy
  simp only [length_append, length_replicate, length_take]
  omega

lemma pass_withinWindow (h : SendInv s c.view) (env : Env) :
    (c.pass (some (tcpPassSegment env c.tp c.so))).withinWindow := by
  rintro g hg hne hgt
  obtain rfl := Option.some.inj hg
  have hp := planOk h env
  have hlen := passSegment_length env c.tp c.so
  have hseq : (tcpPassSegment env c.tp c.so).seq = (tcpPlan env c.tp c.so).seq := rfl
  generalize tcpPassSegment env c.tp c.so = g at hne hgt hlen hseq ⊢
  generalize tcpPlan env c.tp c.so = tx at hp hlen hseq
  change dist c.tp.sndUna (g.seq + UInt32.ofNat g.data.length) ≤ Nat.max c.tp.sndWnd.toNat 1 ∧
    dist c.tp.sndUna (g.seq + UInt32.ofNat g.data.length) ≤ c.so.snd.length
  have hl : tx.len ≠ 0 := by
    intro h0
    rw [h0] at hlen
    exact hne (length_eq_zero_iff.1 hlen)
  rw [hlen, UInt32.ofNat_toNat, hseq] at hgt ⊢
  obtain ⟨hin, hoff⟩ := hp.data hl
  have hcc := h.cc_le
  change dist c.tp.sndUna tx.seq = tx.off.toNat at hoff
  change c.so.snd.length ≤ _ at hcc
  change tx.off.toNat + tx.len.toNat ≤ c.so.snd.length at hin
  unfold socketMaxBuffer at hcc
  have hend : dist c.tp.sndUna (tx.seq + tx.len) = tx.off.toNat + tx.len.toNat := by rw [dist_add (by omega), hoff]
  rw [hend]
  refine ⟨?_, hin⟩
  cases hs : tx.sackRxmit with
  | false => exact hp.win hs hl
  | true =>
    -- a retransmitted hole is never new
    have h4 : dist c.tp.sndUna tx.seq + tx.len.toNat ≤ dist c.tp.sndUna c.tp.sndMax := (hp.sack hs).2.2.2
    have := (gt_iff (u := c.tp.sndUna) (by omega) h.window).1 hgt
    change dist c.tp.sndUna c.tp.sndMax < _ at this
    omega

lemma pass_none_withinWindow (c : Conn) : (c.pass none).withinWindow := by
  intro g hg; cases hg

lemma micro_withinWindow {ok : UInt32 → UInt32 → Prop} (a b : Nat × View)
    (h : SendInv a.1 a.2 ∧ ∀ p ∈ a.2.passes, p.withinWindow) (hm : Micro ok a b) :
    SendInv b.1 b.2 ∧ ∀ p ∈ b.2.passes, p.withinWindow := by
  refine ⟨micro_sendInv h.1 hm, ?_⟩
  cases hm with
  | pass env c =>
    have hnone : ∀ p ∈ c.pass none :: c.passes, p.withinWindow := forall_mem_cons.2 ⟨pass_none_withinWindow c, h.2⟩
    have hsome : ∀ p ∈ c.pass (some (tcpPassSegment env c.tp c.so)) :: c.passes, p.withinWindow :=
      forall_mem_cons.2 ⟨pass_withinWindow h.1 env, h.2⟩
    obtain ⟨-, -, p, hv, -⟩ | ⟨-, -, he⟩ | ⟨-, -, -, hv⟩ | ⟨-, -, -, hv⟩ := once_cases env c
    · rw [hv]; exact hnone
    · rw [he]; exact hnone
    · rw [hv]; exact hsome
    · rw [hv]; exact hsome
  | _ => exact h.2

/-- **Send-sequence invariant.** In every reachable state the send variables
are ordered and the flight fits the buffer, and no pass of the whole run
sent new data outside the window or beyond the buffered bytes. -/
theorem send_sequence {c : Conn} (h : system.Reachable c) :
    (c.gone = false → SendOrder c) ∧ ∀ p ∈ c.passes, p.withinWindow := by
  have hall : (system.restrict (AckOk fun _ _ => True)).Reachable c := h.restrict fun _ _ _ _ _ _ _ _ => trivial
  obtain ⟨s, ⟨-, hp⟩, hi, hf⟩ := reachable_keeps
    (fun s v hb => ⟨hb.sendInv, by rw [hb.passes]; simp⟩) micro_withinWindow hall
  exact ⟨fun hg => hi.order (hf.resolve_left (by rw [hg]; decide)), hp⟩

/-- An Ethernet host on which every allocation succeeds. -/
def Env.ether (now : Nat) : Env where
  now := now
  hz := 100
  mtu := 1500
  alloc := fun _ => true
  allocRespond := fun _ => true
  allocEntry := true

/-- A new IPv4 socket. -/
def Conn.attached : Conn := tcpAttachPcb (.ether 1000) (sockAlloc false true)

/-- The peer's SYN|ACK. -/
def synAck : Segment where
  seq := 100
  ack := 1
  flags := { ThFlags.none with syn := true, ack := true }
  window := 1000
  opts := []
  data := []

/-- A client whose initial sequence number is 0, connected. -/
def connected : Conn := step (step .attached (.ether 1000, .connect 0 true)) (.ether 1000, .input synAck)

lemma reachable_step (h : system.Reachable c) (l : Env × Ev) : system.Reachable (step c l) :=
  h.run (LTS.run_ofFn Init step [l] c)

lemma connected_reachable : system.Reachable connected := by
  have h0 : system.Reachable .attached := .of_init (Init.attach (.ether 1000) false true)
  exact reachable_step (reachable_step h0 _) _

/-- The application writes one byte and the peer acknowledges it. -/
def sendByte (c : Conn) : Conn := step c (.ether 1000, .send [0x2a])

/-- A byte is in flight. -/
theorem send_sequence_sendByte : (sendByte connected).tp.sndUna = 1 ∧ (sendByte connected).tp.sndMax = 2 ∧
    SendOrder (sendByte connected) ∧ ∀ p ∈ (sendByte connected).passes, p.withinWindow := by
  have h := send_sequence (reachable_step connected_reachable (.ether 1000, .send [0x2a]))
  exact ⟨by decide, by decide, h.1 (by decide), h.2⟩

end Hermes.L3.Tcp
