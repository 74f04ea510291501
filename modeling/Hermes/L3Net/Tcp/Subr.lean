import Hermes.L3Net.Tcp.Output

/-!
# Connection life cycle (`tcp_subr.c`) and the reassembly queue

`tcp_newtcpcb`, `tcp_close`, `tcp_drop`, the state changes shared by input,
timers and user requests, and the reassembly queue of tcp_input.c. The
queue is a list of entries in list order; `tcpReassembleInsert` splits it
where the source's `pp` stops.
-/
namespace Hermes.L3.Tcp

open Hermes.Seq32

/-! ## Creation -/

/-- The loop of `tcp_pick_rcv_scale`, `n` rounds before the limit.
tcp_subr.c:45-48 -/
def tcpPickRcvScaleFrom (hiwat : Nat) : Nat → Nat → Nat
  | 0, scale => scale
  | n + 1, scale =>
    if 65535 <<< scale < hiwat then tcpPickRcvScaleFrom hiwat n (scale + 1) else scale

/-- tcp_subr.c:42-49 -/
def tcpPickRcvScale (so : Sock) : Nat := tcpPickRcvScaleFrom so.rcvHiwat tcpMaxWinshift 0

/-- A zeroed control block.
tcp_subr.c:53 -/
def Tcpcb.zero : Tcpcb where
  state := .closed
  acknow := false
  delack := false
  nodelay := false
  noopt := false
  sentfin := false
  rcvdScale := false
  rcvdTstmp := false
  sackPermit := false
  fastrecovery := false
  needfin := false
  forcedata := false
  tRexmt := none
  tPersist := none
  tKeep := none
  t2msl := none
  tDelack := none
  rexmtShift := 0
  sndUna := 0
  sndNxt := 0
  sndMax := 0
  sndWl1 := 0
  sndWl2 := 0
  iss := 0
  sndWnd := 0
  sndScale := 0
  rcvNxt := 0
  irs := 0
  rcvWnd := 0
  rcvAdv := 0
  rcvScale := 0
  reqRcvScale := 0
  lastAckSent := 0
  sndCwnd := 0
  sndSsthresh := 0
  sndRecover := 0
  dupacks := 0
  srtt := 0
  rttvar := 0
  rto := 0
  rttStart := 0
  rttSeq := 0
  tsRecent := 0
  tsRecentAge := 0
  mss := 0
  peerMss := 0
  reassembleQueue := []
  reassembleLen := 0
  sackBlocks := []
  sackRxmit := 0
  sackRexmitBytes := 0
  tRcvtime := 0
  keepProbes := 0
  tSofterror := 0

/-- `tcp_newtcpcb`, with `newreno_init` of `tcp_cc_set`.
tcp_subr.c:51-67 -/
def tcpNewtcpcb (env : Env) (so : Sock) : Tcpcb :=
  let tp := { Tcpcb.zero with
    mss := if so.ipv6 then tcpDefaultMss6 else tcpDefaultMss,
    rto := tcpRtoInitialMs,
    reqRcvScale := tcpPickRcvScale so,
    tRcvtime := env.now }
  { tp with sndCwnd := newrenoInitialWindow tp, sndSsthresh := tcpCwndMax }

/-- `sock_alloc`; the address family is what the caller asked for.
socket.c:138-155 -/
def sockAlloc (ipv6 v4Mapped : Bool) : Sock where
  snd := []
  sndHiwat := sockbufDefaultSize
  rcv := []
  rcvHiwat := sockbufDefaultSize
  isConnected := false
  isConnecting := false
  isDisconnecting := false
  cantSendMore := false
  cantRcvMore := false
  error := 0
  linger := -1
  keepalive := false
  embryonic := false
  detached := false
  ipv6 := ipv6
  v4Mapped := v4Mapped

/-- `tcp_attach_pcb` on the socket `so`.
tcp_subr.c:69-81 -/
def tcpAttachPcb (env : Env) (so : Sock) : Conn :=
  { tp := tcpNewtcpcb env so, so := so, gone := false, passes := [], responds := [], stream := [],
    unaPos := 0, changes := [] }

/-- `tcp_new_isn` is a keyed hash of the address pair plus the clock; any
number can come out.
tcp_subr.c:143-148 -/
def tcpSendseqinit (c : Conn) (isn : UInt32) : Conn :=
  { c with tp.iss := isn, tp.sndUna := isn, tp.sndNxt := isn, tp.sndMax := isn,
           tp.sndRecover := isn, tp.sackRxmit := isn, unaPos := 0 }

/-! ## Closing -/

/-- Write a state change into the history. -/
def Conn.note (c : Conn) (s : TcpState) (reset : Bool) : Conn :=
  { c with changes := ⟨c.tp.state, s, reset, c.unaPos, c.passes⟩ :: c.changes }

/-- tcp_subr.c:150-153 -/
def tcpStateChange (c : Conn) (s : TcpState) : Conn := { c.note s false with tp.state := s }

/-- The `tcp_state_change(tp, TCPS_CLOSED)` of `tcp_drop`.
tcp_subr.c:121 -/
def tcpStateReset (c : Conn) : Conn := { c.note .closed true with tp.state := .closed }

/-- tcp_input.c:139-146 -/
def tcpReassembleFlush (c : Conn) : Conn :=
  { c with tp.reassembleQueue := [],
           tp.reassembleLen := c.tp.reassembleQueue.foldl (fun n e => n - e.len) c.tp.reassembleLen }

/-- The control block is freed; the socket is released or told.
tcp_subr.c:91-115 -/
def tcpClose (c : Conn) : Conn :=
  let c := { tcpReassembleFlush (tcpTimerStopAll c) with gone := true }
  if c.so.detached then c
  else if c.so.embryonic then { c with so.embryonic := false }
  else { c with so := sockIsDisconnected c.so }

/-- tcp_subr.c:117-128 -/
def tcpDrop (env : Env) (c : Conn) (error : Nat) : Conn :=
  let c := if c.tp.state.haveRcvdSyn then tcpOutput env (tcpStateReset c) else c
  let c := if !c.so.detached then { c with so.error := error } else c
  tcpClose c

/-! ## State changes shared by the event handlers -/

/-- tcp_subr.c:164-178 -/
def tcpEstablished (c : Conn) : Conn :=
  let c := tcpTimerActivate (newrenoConnInit (tcpStateChange c .established)) .keep tcpKeepidleMs
  let c := if !c.so.detached then { c with so := sockIsConnected c.so } else c
  if c.tp.needfin then tcpStateChange { c with tp.needfin := false } .finWait1 else c

/-- tcp_subr.c:180-187 -/
def tcpEnterTimewait (c : Conn) : Conn :=
  let c := tcpTimerActivate (tcpTimerStopAll (tcpStateChange c .timeWait)) .msl2 (2 * tcpMslMs)
  if !c.so.detached then { c with so := sockIsDisconnected c.so } else c

/-- The state part of `tcp_usrclosed` for the states it does not close.
tcp_subr.c:196-211 -/
def tcpUsrclosedState (c : Conn) : Conn :=
  let c :=
    match c.tp.state with
    | .synReceived => { c with tp.needfin := true }
    | .established => tcpStateChange c .finWait1
    | .closeWait => tcpStateChange c .lastAck
    | _ => c
  if decide (c.tp.state = .finWait2) && c.so.detached then
    tcpTimerActivate c .msl2 (2 * tcpMslMs)
  else c

/-- tcp_subr.c:189-212 -/
def tcpUsrclosed (c : Conn) : Conn :=
  match c.tp.state with
  | .closed | .listen | .synSent => tcpClose c
  | _ => tcpUsrclosedState c

/-- A smaller path MTU: resend from the start of the flight. -/
def tcpMtuShrink (c : Conn) (mss : Nat) : Conn := { c with tp.mss := mss, tp.sndNxt := c.tp.sndUna }

/-- tcp_subr.c:227-245 -/
def tcpCtlinput (env : Env) (c : Conn) (error mtu : Nat) : Conn :=
  let hdr := tcpHdrLen c.so
  if mtu ≠ 0 then
    if hdr + 64 < mtu ∧ mtu - hdr < c.tp.mss then tcpOutput env (tcpMtuShrink c (mtu - hdr))
    else c
  else if c.tp.state = .synSent ∧ error = econnrefused then tcpDrop env c error
  else { c with tp.tSofterror := error }

/-! ## Reassembly queue -/

/-- tcp_input.c:148-152 -/
def tcpReassembleFull (c : Conn) (seq len : UInt32) : Bool :=
  decide (seq ≠ c.tp.rcvNxt) && decide ((c.tp.reassembleLen + len).toNat > c.so.rcvHiwat)

/-- Entries the new segment covers are freed, their FIN is kept.
tcp_input.c:182-187 -/
def tcpReassembleCover (stop : UInt32) : List ReassembleEntry → Bool → UInt32 → List ReassembleEntry × Bool × UInt32
  | [], fin, rlen => ([], fin, rlen)
  | e :: rest, fin, rlen =>
    if leq (e.seq + e.len) stop then tcpReassembleCover stop rest (fin || e.fin) (rlen - e.len)
    else (e :: rest, fin, rlen)

/-- The part of `tcp_reassemble_insert` right of `pp`: drop what is covered,
cut the tail at the next entry, link the new entry.
tcp_input.c:182-203 -/
def tcpReassembleLink (env : Env) (c : Conn) (pre post : List ReassembleEntry) (seq len : UInt32)
    (fin : Bool) (data : List UInt8) : Conn :=
  let r := tcpReassembleCover (seq + len) post fin c.tp.reassembleLen
  let cut :=
    match r.1 with
    | e :: _ => if lt e.seq (seq + len) then seq + len - e.seq else 0
    | [] => 0
  let e : ReassembleEntry :=
    { seq := seq, len := len - cut, fin := r.2.1 && decide (cut = 0),
      data := data.take (data.length - cut.toNat) }
  if !env.allocEntry then
    { c with tp.reassembleQueue := pre ++ r.1, tp.reassembleLen := r.2.2 }
  else
    { c with tp.reassembleQueue := pre ++ e :: r.1, tp.reassembleLen := r.2.2 + e.len }

/-- tcp_input.c:154-204 -/
def tcpReassembleInsert (env : Env) (c : Conn) (seq len : UInt32) (fin : Bool) (data : List UInt8) : Conn :=
  if tcpReassembleFull c seq len then c
  else
    let q := c.tp.reassembleQueue
    let pre := q.takeWhile fun e => lt e.seq seq
    let post := q.dropWhile fun e => lt e.seq seq
    match pre.getLast? with
    | none => tcpReassembleLink env c pre post seq len fin data
    | some prev =>
      let overlap := prev.seq + prev.len - seq
      if int32 overlap > 0 ∧ overlap ≥ len then
        if overlap = len then
          { c with tp.reassembleQueue :=
              pre.dropLast ++ { prev with fin := prev.fin || fin } :: post }
        else c
      else if int32 overlap > 0 then
        tcpReassembleLink env c pre post (seq + overlap) (len - overlap) fin (data.drop overlap.toNat)
      else tcpReassembleLink env c pre post seq len fin data

/-- What the delivery loop has done so far. -/
structure Pull where
  queue : List ReassembleEntry
  rcvNxt : UInt32
  rlen : UInt32
  rcv : List UInt8
  fin : Bool
deriving DecidableEq, Repr

/-- tcp_input.c:212-227 -/
def tcpReassemblePullLoop (cantRcvMore : Bool) : List ReassembleEntry → UInt32 → UInt32 → List UInt8 → Pull
  | [], rcvNxt, rlen, rcv => ⟨[], rcvNxt, rlen, rcv, false⟩
  | e :: rest, rcvNxt, rlen, rcv =>
    if e.seq ≠ rcvNxt then ⟨e :: rest, rcvNxt, rlen, rcv, false⟩
    else
      let rcv := if e.len ≠ 0 ∧ !cantRcvMore then rcv ++ e.data else rcv
      if e.fin then ⟨rest, rcvNxt + e.len, rlen - e.len, rcv, true⟩
      else tcpReassemblePullLoop cantRcvMore rest (rcvNxt + e.len) (rlen - e.len) rcv

/-- tcp_input.c:206-231 -/
def tcpReassemblePull (c : Conn) : Conn × Bool :=
  let r := tcpReassemblePullLoop c.so.cantRcvMore c.tp.reassembleQueue c.tp.rcvNxt c.tp.reassembleLen c.so.rcv
  ({ c with tp.reassembleQueue := r.queue, tp.rcvNxt := r.rcvNxt, tp.reassembleLen := r.rlen,
            so.rcv := r.rcv }, r.fin)

/-- tcp_input.c:233-238 -/
def tcpReassemble (env : Env) (c : Conn) (seq len : UInt32) (fin : Bool) (data : List UInt8) : Conn × Bool :=
  tcpReassemblePull (tcpReassembleInsert env c seq len fin data)

end Hermes.L3.Tcp
