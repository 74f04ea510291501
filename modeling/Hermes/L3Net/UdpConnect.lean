import Hermes.L3Net.Inpcb

/-!
# Connecting a datagram socket

`udp_connect` of `drivers/net/udp/udp.c` gives up the earlier peer before `inpcb_connect` has accepted the new one, and
`inpcb_connect` sets the local address before it has found a port. Where they fail after that, nothing is put back.

* `failing_connect_unchanged`: exactly when a failing call leaves the table and the socket's flags as they were.
* `failing_connect_drops_peer`: a connected socket that has lost its peer and is still marked connected.
-/
namespace Hermes.L3

abbrev ssIsConnected : UInt32 := 0x1
abbrev ssIsConnecting : UInt32 := 0x2
abbrev ssIsDisconnecting : UInt32 := 0x4

/-- `sock_is_connected`, on `so->state` -/
def sockIsConnected (state : UInt32) : UInt32 := state &&& ~~~(ssIsConnecting ||| ssIsDisconnecting) ||| ssIsConnected

/-- The block that `inpcb_disconnect` leaves. -/
def Inpcb.disconnected (p : Inpcb) : Inpcb := { p with faddr := .any, fport := 0, inHash := p.lport ≠ 0 }

namespace InpcbTable

/-- `udp_connect` of a socket in the state `state` with the block `p` -/
def udpConnect (t : InpcbTable) (env : InpcbEnv) (i : Nat) (p : Inpcb) (state : UInt32) (addr : SockAddr) :
    Except InpcbError Unit × InpcbTable × UInt32 :=
  let r := if p.fport ≠ 0 then (t.disconnect i p).connect env i p.disconnected addr else t.connect env i p addr
  (r.1, r.2, match r.1 with
    | .ok () => sockIsConnected state
    | .error _ => state)

variable {t : InpcbTable} {env : InpcbEnv} {i : Nat} {p : Inpcb} {addr : SockAddr} {e : InpcbError}

/-- `inpcb_connect` gets to the search for a port with a source address that the block did not have, and every port that the
search looks at is taken. -/
def Late (t : InpcbTable) (env : InpcbEnv) (i : Nat) (p : Inpcb) (addr : SockAddr) : Prop :=
  p.lport = 0 ∧ ∃ faddr fport laddr, connectAddr env p addr = .ok (faddr, fport, laddr) ∧ laddr ≠ p.laddr ∧
    ∀ n, n < inpcbPortRange → t.portInUse i { p with laddr := laddr, inHash := false } laddr (ephemeralPort env.offset (n + 1))

lemma disconnect_same : (t.disconnect i p).pcbs i = some p.disconnected := by
  unfold InpcbTable.disconnect Inpcb.disconnected
  dsimp only
  split <;> rename_i hport
  · rw [hashInsert_same, decide_eq_true hport]
  · rw [set_same, decide_eq_false hport]

lemma set_self (hp : t.pcbs i = some p) : t.set i (some p) = t := by
  have hpcbs : (t.set i (some p)).pcbs = t.pcbs := by
    funext j
    by_cases hj : j = i
    · rw [hj, set_same, hp]
    · exact set_ne t _ hj
  exact congrArg (fun pcbs => { t with pcbs := pcbs }) hpcbs

lemma allocEphemeralPort_error {offset : UInt32} {n : Nat} : (∃ e, t.allocEphemeralPort i p offset n = .error e) ↔
    ∀ k, k < n → t.portInUse i p p.laddr (ephemeralPort offset (k + 1)) := by
  induction n with
  | zero => exact ⟨fun _ k hk => absurd hk k.not_lt_zero, fun _ => ⟨_, rfl⟩⟩
  | succ n ih =>
    simp only [allocEphemeralPort, Nat.forall_lt_succ_right, ← ih]
    split <;> rename_i hport
    · exact (and_iff_left hport).symm
    · refine iff_of_false ?_ fun h => hport h.2
      rintro ⟨_, h⟩
      cases h

section

variable (hp : t.pcbs i = some p) (hin : p.inHash = true → p.lport ≠ 0) (he : (t.connect env i p addr).1 = .error e)
include hp hin he

/-- A call that fails before the search for a port changes nothing; one that fails in it has set the local address. -/
lemma connect_error : (t.connect env i p addr).2 = t ∧ ¬ t.Late env i p addr ∨
    t.Late env i p addr ∧ ∃ laddr, laddr ≠ p.laddr ∧
      (t.connect env i p addr).2 = t.set i (some { p with laddr := laddr, inHash := false }) := by
  unfold InpcbTable.connect at he ⊢
  split at he
  · rename_i haddr
    exact .inl ⟨rfl, fun ⟨_, _, _, _, h, _⟩ => by cases haddr.symm.trans h⟩
  rename_i faddr fport laddr haddr
  dsimp only at he ⊢
  split at he <;> rename_i hdup
  · rw [if_pos hdup]
    exact .inl ⟨rfl, fun h => hdup.1 h.1⟩
  rw [if_neg hdup]
  split at he <;> rename_i hport
  · cases he
  rw [if_neg hport]
  have hport : p.lport = 0 := not_not.1 hport
  have hout : p.inHash = false := Bool.eq_false_iff.2 fun h => hin h hport
  have hsame : t.hashRemove i p = t := if_pos hout
  rw [hsame] at he ⊢
  split at he
  swap
  · cases he
  rename_i halloc
  have htaken := allocEphemeralPort_error.1 ⟨_, halloc⟩
  by_cases hl : laddr = p.laddr
  · left
    have hq : { p with laddr := laddr, inHash := false } = p := by rw [hl, ← hout]
    refine ⟨(congrArg (fun q => t.set i (some q)) hq).trans (set_self hp), fun ⟨_, _, _, _, h, hne, _⟩ => ?_⟩
    cases haddr.symm.trans h
    exact hne hl
  · exact .inr ⟨⟨hport, faddr, fport, laddr, haddr, hl, htaken⟩, laddr, hl, rfl⟩

lemma connect_unchanged : (t.connect env i p addr).2 = t ↔ ¬ t.Late env i p addr := by
  rcases connect_error hp hin he with ⟨h1, h2⟩ | ⟨h1, laddr, hne, h2⟩
  · exact iff_of_true h1 h2
  refine iff_of_false (fun h => hne ?_) (not_not.2 h1)
  have hset := set_same t i (some { p with laddr := laddr, inHash := false })
  rw [← h2, h, hp] at hset
  exact congrArg (fun q : Inpcb => q.laddr) (Option.some_inj.1 hset).symm

/-- A call that fails keeps the foreign port. -/
lemma connect_fport : ∃ q, (t.connect env i p addr).2.pcbs i = some q ∧ q.fport = p.fport := by
  rcases connect_error hp hin he with ⟨h1, -⟩ | ⟨-, laddr, -, h2⟩
  · exact ⟨p, by rw [h1, hp], rfl⟩
  · exact ⟨{ p with laddr := laddr, inHash := false }, by rw [h2, set_same], rfl⟩

end

/-- **A failing call changes nothing**: `inpcb_connect` exactly if it does not fail for want of a port after it has chosen a
local address, and `udp_connect` exactly if in addition the block has no peer to give up first. -/
theorem failing_connect_unchanged {state : UInt32} (hp : t.pcbs i = some p) (hin : p.inHash = true → p.lport ≠ 0) :
    ((t.connect env i p addr).1 = .error e → ((t.connect env i p addr).2 = t ↔ ¬ t.Late env i p addr)) ∧
    ((t.udpConnect env i p state addr).1 = .error e →
      ((t.udpConnect env i p state addr).2 = (t, state) ↔ p.fport = 0 ∧ ¬ t.Late env i p addr)) := by
  refine ⟨connect_unchanged hp hin, fun he => ?_⟩
  unfold udpConnect at he ⊢
  by_cases hf : p.fport = 0
  · simp only [hf, ne_eq, not_true_eq_false, if_false, true_and] at he ⊢
    rw [he, Prod.mk.injEq, and_iff_left rfl]
    exact connect_unchanged hp hin he
  simp only [hf, ne_eq, not_false_eq_true, if_true, false_and, iff_false] at he ⊢
  intro hsame
  obtain ⟨q, hq, hport⟩ := connect_fport disconnect_same of_decide_eq_true he
  rw [show ((t.disconnect i p).connect env i p.disconnected addr).2 = t from congrArg Prod.fst hsame, hp] at hq
  obtain rfl := Option.some_inj.1 hq
  exact hf hport

/-- Block 1 is connected to port 80 of 10.0.0.2. -/
def onePeer : InpcbTable :=
  ((empty.alloc 1 false).connect oneSource 1 ⟨⟨.any, 0, .any, 0⟩, false, false, false, false, false⟩
    (.inet 0x0200000A 0x5000)).2

/-- And block 2 is bound to the same local address and port. -/
def twoBound : InpcbTable :=
  onePeer.hashInsert 2 ⟨⟨.any, 0, .mapV4 0x0100000A, 0x00C0⟩, false, false, true, false, false⟩

/-- Connecting it to the same peer fails. -/
theorem failing_connect_unchanged_twoBound : ∃ p, twoBound.pcbs 2 = some p ∧
    (twoBound.udpConnect oneSource 2 p 0 (.inet 0x0200000A 0x5000)).1 = .error .eaddrinuse ∧
    (twoBound.udpConnect oneSource 2 p 0 (.inet 0x0200000A 0x5000)).2 = (twoBound, 0) := by
  have he : ∀ p, twoBound.pcbs 2 = some p → p.lport ≠ 0 ∧ p.fport = 0 ∧
      (twoBound.udpConnect oneSource 2 p 0 (.inet 0x0200000A 0x5000)).1 = .error .eaddrinuse := by
    decide +kernel
  obtain ⟨hport, hf, herr⟩ := he _ rfl
  exact ⟨_, rfl, herr, ((failing_connect_unchanged rfl fun _ => hport).2 herr).2 ⟨hf, fun h => hport h.1⟩⟩

theorem failing_connect_drops_peer : system.Reachable onePeer ∧ ∃ p q, onePeer.pcbs 1 = some p ∧ p.fport = 0x5000 ∧
    (onePeer.udpConnect oneSource 1 p ssIsConnected (.inet 0x0200000A 0)).1 = .error .eaddrnotavail ∧
    (onePeer.udpConnect oneSource 1 p ssIsConnected (.inet 0x0200000A 0)).2.1.pcbs 1 = some q ∧ q.fport = 0 ∧
    (onePeer.udpConnect oneSource 1 p ssIsConnected (.inet 0x0200000A 0)).2.2 = ssIsConnected := by
  refine ⟨⟨empty, [.alloc 1 false, .connect oneSource 1 (.inet 0x0200000A 0x5000)], rfl, ?_⟩, ?_⟩
  · exact .cons rfl (.cons rfl (.nil _))
  exact ⟨⟨⟨.mapV4 0x0200000A, 0x5000, .mapV4 0x0100000A, 0x00C0⟩, false, false, false, true, false⟩,
    ⟨⟨.any, 0, .mapV4 0x0100000A, 0x00C0⟩, false, false, false, true, false⟩, by decide +kernel⟩

end InpcbTable

end Hermes.L3
