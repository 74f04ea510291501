import Hermes.L3Net.Tcp.Timers

/-!
# What a handler does to the estimates

`Stable` is what a property of `Ctl` must survive: each change a function of
the model makes to these fields, with the facts that hold where the code
makes it. `Keeps` says that every stable property is kept from one state to
another, and `Acts` adds a path of sender steps.

A `Guard` is what the events are assumed to meet: `ok` an acknowledgement of
new data, `fine` a round-trip sample; `tear` is the excuse for ending the
connection or telling the socket something.
-/
namespace Hermes.L3.Tcp

open Hermes.Seq32

structure Guard where
  ok : UInt32 → UInt32 → Prop
  tear : Prop
  fine : Int → Prop

/-- Only the acknowledgements are restricted. -/
def Guard.acks (ok : UInt32 → UInt32 → Prop) : Guard := ⟨ok, True, fun _ => True⟩

/-- A sample the options may give: from the timestamp, or from the segment that is being timed. -/
def Sampled (env : Env) (v : Ctl) (o : TcpOpts) (rtt : Int) : Prop :=
  (o.tsEcr ≠ 0 ∧ rtt = int32 (UInt32.ofNat env.now - o.tsEcr)) ∨
    (v.rttStart ≠ 0 ∧ rtt = int32 (UInt32.ofNat (env.since v.rttStart)))

structure Stable (G : Guard) (P : Ctl → Prop) : Prop where
  torn : ∀ v w, P v → G.tear ∨ v.detached = true → w.gone = true → P w
  told : ∀ v e d, P v → G.tear → P { v with error := e, detached := d }
  timed : ∀ v r, P v → P { v with rttStart := r }
  sample : ∀ env (c : Conn) rtt, P c.ctl → G.fine rtt → P (tcpXmitTimer env c rtt).ctl
  backoff : ∀ v, P v → P { v with rttvar := wrap32 (v.rttvar + v.srtt >>> (3 : Nat)), srtt := 0 }

/-- Every stable property is kept. -/
def Keeps (G : Guard) (c d : Conn) : Prop := ∀ P, Stable G P → P c.ctl → P d.ctl

structure Acts (G : Guard) (s : Nat) (c : Conn) (s' : Nat) (d : Conn) : Prop where
  path : Path G.ok (s, c.view) (s', d.view)
  keeps : Keeps G c d

variable {G : Guard} {env : Env} {s s' s'' : Nat} {c d e : Conn}

lemma Keeps.of_ctl (h : d.ctl = c.ctl) : Keeps G c d := fun _ _ hc => h ▸ hc

lemma Keeps.trans (h : Keeps G c d) (h' : Keeps G d e) : Keeps G c e := fun P hP hc => h' P hP (h P hP hc)

lemma Keeps.torn (ht : G.tear ∨ c.so.detached = true) (hg : d.gone = true) : Keeps G c d :=
  fun _ hP hc => hP.torn _ _ hc ht hg

lemma Acts.of_kept (h : d.kept = c.kept) : Acts G s c s d := by
  have hv : d.view = c.view := congrArg Prod.fst h
  refine ⟨?_, .of_ctl (congrArg Prod.snd h)⟩
  rw [hv]
  exact .refl _

lemma Acts.trans (h : Acts G s c s' d) (h' : Acts G s' d s'' e) : Acts G s c s'' e :=
  ⟨h.path.trans h'.path, h.keeps.trans h'.keeps⟩

/-! ## What the functions write -/

variable (env)

lemma ctl_once (c : Conn) : ∃ r, (tcpOutputOnce env c).1.ctl = { c.ctl with rttStart := r } := by
  have hp : ∀ d : Conn, (tcpSetpersist d).ctl = d.ctl := fun _ => view_ite rfl rfl
  have ht : ∀ d : Conn, (tcpAfterSendTimer d).ctl = d.ctl := fun d => by
    unfold tcpAfterSendTimer tcpPersistEnds
    split
    · split <;> rfl
    · rfl
  unfold tcpOutputOnce
  dsimp only
  split
  · exact ⟨_, view_ite rfl (view_ite rfl (hp _))⟩
  split
  · exact ⟨_, rfl⟩
  unfold tcpAfterSend
  split
  · exact ⟨_, rfl⟩
  rw [ht]
  exact ⟨_, rfl⟩

lemma ctl_loop (fuel : Nat) (c : Conn) : ∃ r, (tcpOutputLoop env fuel c).ctl = { c.ctl with rttStart := r } := by
  induction fuel generalizing c with
  | zero => exact ⟨_, rfl⟩
  | succ n ih =>
    obtain ⟨r, h⟩ := ctl_once env c
    unfold tcpOutputLoop
    dsimp only
    split
    · obtain ⟨r', h'⟩ := ih (tcpOutputOnce env c).1
      exact ⟨r', by rw [h', h]⟩
    · exact ⟨r, h⟩

lemma ctl_output (c : Conn) : ∃ r, (tcpOutput env c).ctl = { c.ctl with rttStart := r } := by
  obtain ⟨r, h⟩ := ctl_loop env (tcpOutputFuel c) (tcpOutputIdle env c)
  have hi : (tcpOutputIdle env c).ctl = c.ctl := by
    unfold tcpOutputIdle newrenoAfterIdle
    split
    · split <;> rfl
    · rfl
  exact ⟨r, by unfold tcpOutput; rw [h, hi]⟩

lemma Keeps.output : Keeps G c (tcpOutput env c) := by
  intro P hP h
  obtain ⟨r, hl⟩ := ctl_output env c
  rw [hl]
  exact hP.timed _ r h

lemma ctl_retransmitFrom (c : Conn) (start cwnd : UInt32) :
    ∃ r, (tcpRetransmitFrom env c start cwnd).1.ctl = { c.ctl with rttStart := r } := by
  obtain ⟨r, h⟩ := ctl_output env { c with tp.sndNxt := start, tp.sndCwnd := cwnd }
  exact ⟨r, view_ite h h⟩

lemma ctl_enterTimewait (c : Conn) : (tcpEnterTimewait c).ctl = c.ctl := view_ite rfl rfl

lemma ctl_established (c : Conn) : (tcpEstablished c).ctl = c.ctl := by
  unfold tcpEstablished
  dsimp only
  generalize hd : tcpTimerActivate (newrenoConnInit (tcpStateChange c .established)) .keep tcpKeepidleMs = d
  generalize he : (if !d.so.detached then { d with so := sockIsConnected d.so } else d) = e
  have hec : e.ctl = c.ctl := by
    rw [← he, ← hd]
    exact view_ite rfl rfl
  rw [← hec]
  exact view_ite rfl rfl

lemma ctl_applySynOpts (c : Conn) (o : TcpOpts) : (tcpApplySynOpts env c o).ctl = c.ctl := by
  unfold tcpApplySynOpts
  generalize hd : (if c.tp.noopt = true then c else _) = d
  have hdc : d.ctl = c.ctl := by
    rw [← hd]
    split
    · rfl
    split <;> split <;> split <;> rfl
  have hset : ∀ m, ({ d with tp.mss := m, tp.peerMss := o.mss.getD 0 } : Conn).ctl = d.ctl := fun _ => rfl
  exact (hset _).trans hdc

end Hermes.L3.Tcp
