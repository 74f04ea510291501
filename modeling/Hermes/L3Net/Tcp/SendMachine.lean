import Hermes.L3Net.Tcp.SendInv

/-!
# The sender as an abstract machine

`Micro` lists everything the code ever does to the sender's view, one
constructor per kind of update, with the guard under which the code does it:
an output pass, moving `snd_nxt` inside the flight, entering and leaving
recovery, a new acknowledgement, the handshake, the state changes, a user
write. A handler of the model is a path of such steps
(`Hermes.L3Net.Tcp.Handlers`), so an invariant of the sender only has to be
checked against `Micro`.

The node carries the SYN slack of `SendInv` beside the view. The parameter
`ok` is a side condition on the state in which a new acknowledgement is
taken (on `snd_una` and `iss`); `fun _ _ => True` gives all runs of the code.
-/
namespace Hermes.L3.Tcp

open Hermes.Seq32 List

/-- A control block on which no connection has started. -/
structure Fresh (v : View) : Prop where
  max : v.max = v.una
  blocks : v.blocks = []
  sentfin : v.sentfin = false
  fastrec : v.fastrec = false
  snd : v.snd = []
  stream : v.stream = []

/-- How many buffered bytes a new acknowledgement removes. -/
def View.ackedBytes (v : View) (ack : UInt32) : UInt32 :=
  let acked := ack - v.una
  let acked := if leq v.una v.iss then acked - 1 else acked
  if v.sentfin && decide (ack = v.max) then acked - 1 else acked

/-- The view after a new acknowledgement. -/
def View.newAck (v : View) (ack : UInt32) : View :=
  { v with una := ack,
           nxt := if lt v.nxt ack then ack else v.nxt,
           snd := v.snd.drop (min (v.ackedBytes ack).toNat v.snd.length),
           blocks := tcpSackTrim ack v.blocks,
           rxmit := if lt v.rxmit ack then ack else v.rxmit,
           unaPos := v.unaPos + dist v.una ack }

/-- The view once the SYN is acknowledged. -/
def View.synced (v : View) (t : TcpState) (cs : List Change) : View :=
  { v with state := t, una := v.max, nxt := v.max, rxmit := v.max, blocks := [],
           unaPos := v.unaPos + dist v.una v.max, changes := cs }

/-- The view after the change of `tcp_drop`. -/
def View.resetChange (v : View) : View :=
  { v with state := .closed, changes := ⟨v.state, .closed, true, v.unaPos, v.passes⟩ :: v.changes }

/-- The view after an active open. -/
def View.connecting (v : View) (isn : UInt32) : View :=
  { v with state := .synSent, iss := isn, una := isn, nxt := isn, max := isn, recover := isn,
           rxmit := isn, unaPos := 0,
           changes := ⟨v.state, .synSent, false, 0, v.passes⟩ :: v.changes }

/-- The state changes the code makes once a connection is synchronized. -/
inductive Advance (v : View) : TcpState → Prop
  | userClose : v.state = .established → Advance v .finWait1
  | userCloseWait : v.state = .closeWait → Advance v .lastAck
  | peerFin : v.state = .established → Advance v .closeWait
  | peerFin1 : v.state = .finWait1 → Advance v .closing
  | peerFin2 : v.state = .finWait2 → Advance v .timeWait
  | finAcked : v.state = .finWait1 → v.sentfin = true → v.una = v.max → Advance v .finWait2
  | finAckedClosing : v.state = .closing → v.sentfin = true → v.una = v.max → Advance v .timeWait

inductive Micro (ok : UInt32 → UInt32 → Prop) : Nat × View → Nat × View → Prop
  | pass {s : Nat} (env : Env) (c : Conn) : Micro ok (s, c.view) (s, (tcpOutputOnce env c).1.view)
  | timers {s : Nat} {v : View} (r p : Bool) : Micro ok (s, v) (s, { v with rexmt := r, persist := p })
  | force {s : Nat} {v : View} (b : Bool) : Micro ok (s, v) (s, { v with forcedata := b })
  | setNxt {s : Nat} {v : View} (x : UInt32) (h : dist v.una x ≤ dist v.una v.max) :
      Micro ok (s, v) (s, { v with nxt := x })
  | recover {s : Nat} {v : View} : Micro ok (s, v) (s, { v with recover := v.max })
  | enter {s : Nat} {v : View} (x : UInt32) (he : v.state.haveEstablished = true)
      (hx : dist v.una x ≤ dist v.una v.max) (hr : dist v.una v.recover ≤ dist v.una v.max) :
      Micro ok (s, v) (s, { v with fastrec := true, rxmit := x })
  | leave {s : Nat} {v : View} : Micro ok (s, v) (s, { v with fastrec := false })
  | clear {s : Nat} {v : View} : Micro ok (s, v) (s, { v with blocks := [], rxmit := v.una })
  | sack {s : Nat} {v : View} (bs : List SackBlock) (he : v.state.haveEstablished = true) :
      Micro ok (s, v) (s, { v with blocks := bs.foldl (tcpSackUpdateOne v.una v.max) v.blocks })
  | newAck {s : Nat} {v : View} (ack : UInt32) (he : v.state.haveEstablished = true)
      (h0 : 0 < dist v.una ack) (h1 : dist v.una ack ≤ dist v.una v.max)
      (hr : v.fastrec = true → dist v.una ack ≤ dist v.una v.recover) (hok : ok v.una v.iss) :
      Micro ok (s, v) (s, v.newAck ack)
  | handshake {s : Nat} {v : View} (t : TcpState) (cs : List Change) (ht : OpenChanges v t cs)
      (hst : v.state = .synSent ∨ v.state = .synReceived) (hm : v.max ≠ v.una) :
      Micro ok (s, v) (0, v.synced t cs)
  | simultaneous {s : Nat} {v : View} (hst : v.state = .synSent) :
      Micro ok (s, v) (s, { v.change .synReceived with nxt := v.iss })
  | advance {s : Nat} {v : View} (t : TcpState) (h : Advance v t) : Micro ok (s, v) (s, v.change t)
  | dropping {s : Nat} {v : View} (hst : v.state.haveRcvdSyn = true) : Micro ok (s, v) (s, v.resetChange)
  | lastAcked {s : Nat} {v : View} (hst : v.state = .lastAck) (hf : v.sentfin = true) (hm : v.una = v.max) :
      Micro ok (s, v) (s, { v with
        gone := true, changes := ⟨.lastAck, .closed, false, v.unaPos, v.passes⟩ :: v.changes })
  | listen {v : View} (hst : v.state = .closed ∨ v.state = .listen) (hf : Fresh v) :
      Micro ok (0, v) (0, v.change .listen)
  | connect {v : View} (isn : UInt32) (hst : v.state = .closed) (hf : Fresh v) : Micro ok (0, v) (1, v.connecting isn)
  | send {s : Nat} {v : View} (bytes : List UInt8)
      (hst : TcpState.synSent.rank ≤ v.state.rank ∧ v.state.rank ≤ TcpState.closeWait.rank)
      (hlen : v.snd.length + bytes.length ≤ v.hiwat) :
      Micro ok (s, v) (s, { v with snd := v.snd ++ bytes, stream := v.stream ++ bytes })
  | hiwat {s : Nat} {v : View} (n : Nat) (h : n ≤ socketMaxBuffer) : Micro ok (s, v) (s, { v with hiwat := n })
  | gone {s : Nat} {v : View} : Micro ok (s, v) (s, { v with gone := true })

/-- A finite sequence of sender steps. -/
def Path (ok : UInt32 → UInt32 → Prop) : Nat × View → Nat × View → Prop := Relation.ReflTransGen (Micro ok)

variable {ok : UInt32 → UInt32 → Prop} {a b : Nat × View} {s : Nat} {v : View} {t : TcpState}

lemma Path.refl (n : Nat × View) : Path ok n n := Relation.ReflTransGen.refl

lemma Path.trans {d : Nat × View} (h : Path ok a b) (h' : Path ok b d) :
    Path ok a d := Relation.ReflTransGen.trans h h'

lemma Micro.path (h : Micro ok a b) : Path ok a b := Relation.ReflTransGen.single h

lemma Path.keeps {P : Nat × View → Prop} (hP : ∀ a b, P a → Micro ok a b → P b) (h : Path ok a b) (ha : P a) :
    P b := by
  induction h with
  | refl => exact ha
  | tail _ hs ih => exact hP _ _ ih hs

/-! ## The machine keeps `SendInv` -/

/-- A state before CLOSE-WAIT has sent no FIN. -/
lemma SendInv.no_fin (h : SendInv s v)
    (hst : TcpState.synSent.rank ≤ v.state.rank ∧ v.state.rank ≤ TcpState.closeWait.rank) : v.sentfin = false := by
  by_contra hc
  have := h.fin (by simpa using hc)
  revert hst this
  cases v.state <;> decide

lemma haveEstablished_closeWait (h : TcpState.synSent.rank ≤ t.rank ∧ t.rank ≤ TcpState.closeWait.rank) :
    t ≠ .finWait2 ∧ t ≠ .timeWait := by
  revert h
  cases t <;> decide

variable {ack : UInt32}

/-- The acknowledged bytes never exceed the acknowledged numbers, unless the
acknowledgement takes everything. -/
lemma ackedBytes_le (h0 : 0 < dist v.una ack) (hne : ack ≠ v.max) : (v.ackedBytes ack).toNat ≤ dist v.una ack := by
  unfold View.ackedBytes
  rw [decide_eq_false hne, Bool.and_false]
  simp only [Bool.false_eq_true, if_false]
  change 0 < (ack - v.una).toNat at h0
  change _ ≤ (ack - v.una).toNat
  split
  · rw [UInt32.toNat_sub_of_le _ _ (by rw [UInt32.le_iff_toNat_le, UInt32.toNat_one]; omega)]
    omega
  · exact le_rfl

lemma newAck_sendInv (h : SendInv s v) (he : v.state.haveEstablished = true)
    (h0 : 0 < dist v.una ack) (h1 : dist v.una ack ≤ dist v.una v.max)
    (hr : v.fastrec = true → dist v.una ack ≤ dist v.una v.recover) : SendInv s (v.newAck ack) := by
  have hs0 : s = 0 := h.est he
  subst hs0
  have hw := h.window
  have hmd : dist ack v.max = dist v.una v.max - dist v.una ack := dist_rebase h1
  have hnx := h.nxt_le
  have hrx := h.rxmit_le
  have hml := h.max_le
  -- what is left in flight is still buffered
  have hleft : ∀ f, dist v.una v.max ≤ v.snd.length + f → dist ack v.max ≤ (v.newAck ack).snd.length + f := by
    intro f hf
    show _ ≤ (v.snd.drop (min (v.ackedBytes ack).toNat v.snd.length)).length + f
    rw [length_drop]
    by_cases hm : ack = v.max
    · rw [← hm, Seq32.dist_self]; omega
    have := ackedBytes_le h0 hm
    omega
  have hfwd : ∀ x, dist v.una x ≤ dist v.una v.max →
      dist ack (if lt x ack then ack else x) ≤ dist ack v.max := by
    intro x hx
    have hlt := lt_iff (u := v.una) (a := x) (b := ack) (by omega) (by omega)
    by_cases hc : lt x ack = true
    · rw [if_pos hc, Seq32.dist_self]; omega
    rw [if_neg hc]; rw [hlt] at hc
    rw [dist_rebase (u := v.una) (by omega)]; omega
  constructor
  case slack => omega
  case nxt_le => exact hfwd v.nxt hnx
  case max_le => exact hleft _ hml
  case cc_le =>
    have := h.cc_le
    show (v.snd.drop _).length ≤ _
    rw [length_drop]; omega
  case hiwat_le => exact h.hiwat_le
  case rxmit_le => exact hfwd v.rxmit hrx
  case board => exact h.board.trim hw h1
  case recover_le =>
    intro hf
    have h2 := hr hf
    have h3 := h.recover_le hf
    show dist ack v.recover ≤ dist ack v.max
    rw [dist_rebase h2]; omega
  case syn => intro hc; cases hc
  case est => exact fun _ => rfl
  case synState => exact fun hst => absurd (h.synState hst) (by decide)
  case fin => exact h.fin
  case finAcked => intro hst; exact hleft 0 (h.finAcked hst)

lemma Advance.est (h : Advance v t) : v.state.haveEstablished = true ∧ t.haveEstablished = true := by
  cases h with
  | userClose hst | userCloseWait hst | peerFin hst | peerFin1 hst | peerFin2 hst
  | finAcked hst | finAckedClosing hst => rw [hst]; decide

lemma advance_sendInv (h : SendInv s v) (ha : Advance v t) : SendInv s (v.change t) := by
  have hs0 : s = 0 := h.est ha.est.1
  refine ⟨h.slack, h.nxt_le, h.max_le, h.cc_le, h.hiwat_le, h.rxmit_le, h.board, h.recover_le,
    h.syn, fun _ => hs0, ?_, ?_, ?_⟩
  · intro hst
    have ht : t = .synSent ∨ t = .synReceived := hst
    have := ha.est.2
    rcases ht with rfl | rfl <;> exact absurd this (by decide)
  · intro hf
    cases ha with
    | peerFin hst =>
      have := h.fin hf
      rw [hst] at this
      exact absurd this (by decide)
    | _ => rfl
  · intro hst
    show dist v.una v.max ≤ v.snd.length
    cases ha with
    | userClose _ | userCloseWait _ | peerFin _ | peerFin1 _ => rcases hst with hst | hst <;> cases hst
    | peerFin2 h2 => exact h.finAcked (.inl h2)
    | finAcked _ _ hm | finAckedClosing _ _ hm => rw [hm, Seq32.dist_self]; omega

lemma handshake_sendInv (h : SendInv s v) (ht : t = .established ∨ t = .finWait1)
    (hst : v.state = .synSent ∨ v.state = .synReceived) (cs : List Change) : SendInv 0 (v.synced t cs) := by
  obtain ⟨-, -, -, hsf, hfr⟩ := h.syn (h.synState hst)
  refine ⟨by omega, ?_, ?_, h.cc_le, h.hiwat_le, ?_, .nil _ _, ?_, by simp, fun _ => rfl, ?_, ?_, ?_⟩
  · show dist v.max v.max ≤ dist v.max v.max; simp
  · show dist v.max v.max ≤ _; simp
  · show dist v.max v.max ≤ dist v.max v.max; simp
  · intro hf; rw [show v.fastrec = true from hf] at hfr; cases hfr
  · intro hc; rcases ht with rfl | rfl <;> rcases hc with hc | hc <;> cases hc
  · intro hf; rw [show v.sentfin = true from hf] at hsf; cases hsf
  · intro _; show dist v.max v.max ≤ _; simp

/-- **The machine keeps the send invariant.** -/
lemma micro_sendInv (h : SendInv a.1 a.2) (hm : Micro ok a b) : SendInv b.1 b.2 := by
  cases hm with
  | pass env c => exact once_sendInv h env
  | timers r p | gone | lastAcked _ _ _ | force _ => exact h.of_view rfl
  | setNxt x hx => exact { h with nxt_le := hx }
  | recover => exact { h with recover_le := fun _ => le_rfl }
  | enter x he hx hr =>
    have hs0 := h.est he
    exact { h with rxmit_le := hx, recover_le := fun _ => hr,
                   syn := fun hs => absurd (hs0.symm.trans hs) (by decide) }
  | leave =>
    exact { h with recover_le := fun hf => absurd hf Bool.false_ne_true,
                   syn := fun hs => ⟨(h.syn hs).1, (h.syn hs).2.1, (h.syn hs).2.2.1, (h.syn hs).2.2.2.1, rfl⟩ }
  | clear =>
    exact { h with rxmit_le := (Seq32.dist_self _).trans_le (Nat.zero_le _), board := .nil _ _,
                   syn := fun hs => ⟨(h.syn hs).1, (h.syn hs).2.1, rfl, (h.syn hs).2.2.2⟩ }
  | sack bs he =>
    have hs0 := h.est he
    exact { h with board := h.board.update bs h.window,
                   syn := fun hs => absurd (hs0.symm.trans hs) (by decide) }
  | newAck ack he h0 h1 hr hok => exact newAck_sendInv h he h0 h1 hr
  | handshake t cs ht hst hm => exact handshake_sendInv h ht.state hst cs
  | simultaneous hst =>
    have hs1 := h.synState (.inl hst)
    obtain ⟨hu, -, -, hsf, -⟩ := h.syn hs1
    refine { h with nxt_le := ?_, est := fun he => absurd he Bool.false_ne_true, synState := fun _ => hs1,
                    fin := fun hf => absurd (hf.symm.trans hsf) (by decide), finAcked := ?_ }
    · rename_i v
      show dist v.una v.iss ≤ dist v.una v.max
      rw [← hu, Seq32.dist_self]; omega
    · rintro (hc | hc) <;> cases hc
  | advance t ha => exact advance_sendInv h ha
  | dropping _ =>
    refine { h with est := fun he => absurd he Bool.false_ne_true, synState := ?_, fin := fun _ => rfl,
                    finAcked := ?_ }
    all_goals rintro (hc | hc) <;> cases hc
  | listen hst hf =>
    refine { h with est := fun he => absurd he Bool.false_ne_true, synState := ?_,
                    fin := fun hc => absurd (hc.symm.trans hf.sentfin) (by decide), finAcked := ?_ }
    all_goals rintro (hc | hc) <;> cases hc
  | connect isn hst hf =>
    have hd : ∀ n, dist isn isn ≤ n := fun n => by rw [Seq32.dist_self]; omega
    refine ⟨by omega, hd _, hd _, h.cc_le, h.hiwat_le, hd _, ?_, fun _ => hd _, fun _ => ?_,
      fun he => absurd he Bool.false_ne_true, fun _ => rfl, ?_, ?_⟩
    · rename_i v
      show Scoreboard isn isn v.blocks
      rw [hf.blocks]; exact .nil _ _
    · exact ⟨rfl, hd _, hf.blocks, hf.sentfin, hf.fastrec⟩
    · exact fun hc => absurd (hc.symm.trans hf.sentfin) (by decide)
    · rintro (hc | hc) <;> cases hc
  | send bytes hst hlen =>
    have hml := h.max_le
    have hhi := h.hiwat_le
    have h2 := haveEstablished_closeWait hst
    refine { h with max_le := ?_, cc_le := ?_, finAcked := ?_ }
    · dsimp only at hml ⊢; rw [length_append]; omega
    · dsimp only at hlen hhi ⊢; rw [length_append]; omega
    rintro (hc | hc)
    · exact absurd hc h2.1
    · exact absurd hc h2.2
  | hiwat n hn => exact { h with hiwat_le := hn }

lemma Path.sendInv (h : Path ok a b) (ha : SendInv a.1 a.2) : SendInv b.1 b.2 := h.keeps (fun _ _ => micro_sendInv) ha

end Hermes.L3.Tcp
