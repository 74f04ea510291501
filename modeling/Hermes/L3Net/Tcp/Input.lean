import Hermes.L3Net.Tcp.Subr

/-!
# Segment input (`tcp_input.c`)

`tcp_input` with every state's processing: the reset replies of CLOSED and
LISTEN, the SYN-SENT handshake, and the synchronized path (PAWS, RST, window
trimming, ACK processing with fast retransmit, window update, data and FIN).
`tcpInputSyncCheck` is the part of `tcp_input_sync` before ACK processing,
so that later results can speak of "the segment reaches `tcp_process_ack`".
-/
namespace Hermes.L3.Tcp

open Hermes.Seq32

/-- `struct tcp_seg`; the header fields are copied because the code edits
them in place.
tcp_input.c:17-23 -/
structure TcpSeg where
  seq : UInt32
  ack : UInt32
  flags : ThFlags
  opts : TcpOpts
  data : List UInt8
  len : UInt32
  wnd : UInt32
deriving DecidableEq, Repr

/-- tcp_input.c:25-30 -/
inductive TcpAckResult | cont | drop | dropAck | gone
deriving DecidableEq, Repr

/-! ## Round-trip time and MSS -/

/-- A 32-bit signed result. -/
def wrap32 (x : Int) : Int := Int.bmod x (2 ^ 32)

/-- tcp_input.c:94-117 -/
def tcpXmitTimer (env : Env) (c : Conn) (rtt : Int) : Conn :=
  let rtt := if rtt < 1 then 1 else rtt
  let delta := wrap32 (rtt - c.tp.srtt >>> (3 : Nat))
  let srtt := if c.tp.srtt = 0 then wrap32 (rtt * 8) else wrap32 (c.tp.srtt + delta)
  let rttvar :=
    if c.tp.srtt = 0 then wrap32 (rtt * 2)
    else wrap32 (c.tp.rttvar + ((if delta < 0 then -delta else delta) - c.tp.rttvar >>> (2 : Nat)))
  let granularity : Int := (1000 / env.hz : Nat) + 1
  let rto := ((srtt >>> (3 : Nat) + (if rttvar > granularity then rttvar else granularity)) % 2 ^ 32).toNat
  { c with tp.srtt := srtt, tp.rttvar := rttvar,
           tp.rto := min (max rto tcpRtoMinMs) tcpRtoMaxMs, tp.tSofterror := 0 }

/-- tcp_input.c:119-130 -/
def tcpMssUpdate (env : Env) (c : Conn) (offer : Nat) : Conn :=
  let peer :=
    if offer ≠ 0 then offer else if c.so.v4Mapped then tcpDefaultMss else tcpDefaultMss6
  { c with tp.mss := max (min (tcpLocalMss env c.so) peer) 64, tp.peerMss := offer }

/-- tcp_input.c:240-257 -/
def tcpApplySynOpts (env : Env) (c : Conn) (o : TcpOpts) : Conn :=
  let c :=
    if c.tp.noopt then c
    else
      let c :=
        match o.wscale with
        | some w =>
          { c with tp.rcvdScale := true, tp.sndScale := w, tp.rcvScale := c.tp.reqRcvScale }
        | none => c
      let c :=
        match o.ts with
        | some (v, _) =>
          { c with tp.rcvdTstmp := true, tp.tsRecent := v, tp.tsRecentAge := env.now }
        | none => c
      if o.sackperm then { c with tp.sackPermit := true } else c
  tcpMssUpdate env c (o.mss.getD 0)

/-- tcp_input.c:259-264 -/
def tcpInitRcv (c : Conn) (irs : UInt32) : Conn := { c with tp.irs := irs, tp.rcvNxt := irs + 1, tp.rcvAdv := irs + 1 }

/-- tcp_input.c:266-276 -/
def tcpReplyReset (env : Env) (c : Conn) (seg : TcpSeg) : Conn :=
  if seg.flags.rst then c
  else if seg.flags.ack then
    tcpRespond env c false 0 seg.ack { ThFlags.none with rst := true }
  else
    tcpRespond env c false
      (seg.seq + (seg.len + (if seg.flags.syn then 1 else 0) + (if seg.flags.fin then 1 else 0)))
      0 { ThFlags.none with rst := true, ack := true }

/-- tcp_input.c:278-281 -/
def tcpSendChallengeAck (env : Env) (c : Conn) : Conn :=
  tcpRespond env c true c.tp.rcvNxt c.tp.sndNxt { ThFlags.none with ack := true }

/-! ## LISTEN and SYN-SENT -/

/-- `sock_new_conn` on the listener's socket.
socket.c:699-724 -/
def sockNewConn (head : Sock) : Sock :=
  { sockAlloc head.ipv6 head.v4Mapped with
    keepalive := head.keepalive, linger := head.linger, sndHiwat := head.sndHiwat,
    rcvHiwat := head.rcvHiwat, embryonic := true }

/-- `tcp_attach_pcb` has made the child's block in CLOSED, and the SYN takes
it from there to SYN-RECEIVED. tcp_input.c:312-317, tcp_subr.c:57 -/
def tcpSynReceive (c : Conn) (seg : TcpSeg) : Conn :=
  tcpTimerActivate { c with tp.sndWnd := seg.wnd, tp.sndWl1 := seg.seq, tp.state := .synReceived,
                            tp.acknow := true,
                            changes := ⟨c.tp.state, .synReceived, false, c.unaPos, c.passes⟩ :: c.changes } .keep tcpKeepinitMs

/-- The child of the listener `lp` before its first segment. -/
def tcpListenChild (env : Env) (lp : Conn) (seg : TcpSeg) (v4Mapped : Bool) (isn : UInt32) : Conn :=
  let c := tcpAttachPcb env { sockNewConn lp.so with v4Mapped := v4Mapped }
  tcpSynReceive (tcpSendseqinit (tcpInitRcv (tcpApplySynOpts env c seg.opts) seg.seq) isn) seg

/-- The connection a SYN to the listener `lp` creates; `none` where the
source ignores the segment or answers with a reset. `v4Mapped` is the
family of the packet. The backlog check of `sock_new_conn` and the
allocations are the caller's choice to deliver the segment here.
tcp_input.c:283-321 -/
def tcpInputListen (env : Env) (lp : Conn) (seg : TcpSeg) (v4Mapped : Bool) (isn : UInt32) : Option Conn :=
  if seg.flags.rst ∨ seg.flags.ack ∨ !seg.flags.syn then none
  else some (tcpOutput env (tcpListenChild env lp seg v4Mapped isn))

/-- The SYN is acknowledged.
tcp_input.c:354-360 -/
def tcpSynAcked (c : Conn) (ack : UInt32) : Conn :=
  let c := tcpTimerStop { c with tp.rttStart := 0, tp.rexmtShift := 0 } .rexmt
  { c with tp.sndUna := ack,
           tp.sndNxt := if lt c.tp.sndNxt ack then ack else c.tp.sndNxt,
           tp.sackRxmit := ack, unaPos := c.unaPos + dist c.tp.sndUna ack }

/-- Accept the handshake's SYN|ACK.
tcp_input.c:352-366 -/
def tcpSynSentAck (env : Env) (c : Conn) (seg : TcpSeg) : Conn × TcpSeg :=
  let c :=
    if c.tp.rttStart ≠ 0 then
      tcpXmitTimer env c (int32 (UInt32.ofNat (env.since c.tp.rttStart)))
    else c
  let c := tcpEstablished (tcpSynAcked c seg.ack)
  ({ c with tp.sndWl1 := seg.seq },
    { seg with seq := seg.seq + 1, flags := { seg.flags with syn := false } })

/-- What the peer's SYN sets up.
tcp_input.c:338-341 -/
def tcpSynSentSetup (env : Env) (c : Conn) (seg : TcpSeg) : Conn :=
  { tcpApplySynOpts env (tcpInitRcv c seg.seq) seg.opts with tp.acknow := true }

/-- A SYN without ACK: both ends open at once.
tcp_input.c:343-347 -/
def tcpSimultaneousOpen (c : Conn) (seg : TcpSeg) : Conn :=
  tcpStateChange { c with tp.sndWnd := seg.wnd, tp.sndWl1 := seg.seq, tp.sndNxt := c.tp.iss }
    .synReceived

/-- `none`: the segment is consumed (the source returns false).
tcp_input.c:323-367 -/
def tcpInputSynSent (env : Env) (c : Conn) (seg : TcpSeg) : Conn × Option TcpSeg :=
  if seg.flags.ack ∧ (leq seg.ack c.tp.iss ∨ gt seg.ack c.tp.sndMax) then
    (if !seg.flags.rst then tcpRespond env c true 0 seg.ack { ThFlags.none with rst := true }
      else c, none)
  else if seg.flags.rst then
    (if seg.flags.ack then tcpDrop env c econnrefused else c, none)
  else if !seg.flags.syn then (c, none)
  else
    let c := tcpSynSentSetup env c seg
    if !seg.flags.ack then (tcpOutput env (tcpSimultaneousOpen c seg), none)
    else
      let r := tcpSynSentAck env c seg
      (r.1, some r.2)

/-! ## Checks before ACK processing -/

/-- tcp_input.c:369-375 -/
def tcpRcvSpace (c : Conn) : UInt32 :=
  let space := UInt32.ofNat (sockbufSpace c.so.rcv c.so.rcvHiwat)
  if space > tcpAdvertised c.tp then space else tcpAdvertised c.tp

/-- tcp_input.c:377-389 -/
def tcpPawsOk (env : Env) (c : Conn) (seg : TcpSeg) : Conn × Bool :=
  match seg.opts.ts with
  | none => (c, true)
  | some (v, _) =>
    if !c.tp.rcvdTstmp || seg.flags.rst then (c, true)
    else if int32 (v - c.tp.tsRecent) ≥ 0 then (c, true)
    else if env.since c.tp.tsRecentAge > tcpPawsIdleMs then ({ c with tp.tsRecent := 0 }, true)
    else (c, false)

/-- tcp_input.c:391-400 -/
def tcpUpdateTsRecent (env : Env) (c : Conn) (seg : TcpSeg) : Conn :=
  match seg.opts.ts with
  | none => c
  | some (v, _) =>
    let span := seg.len + (if seg.flags.syn || seg.flags.fin then 1 else 0)
    if leq seg.seq c.tp.lastAckSent && leq c.tp.lastAckSent (seg.seq + span) then
      { c with tp.tsRecent := v, tp.tsRecentAge := env.now }
    else c

/-- The error a reset reports.
tcp_input.c:412-424 -/
def tcpRstError : TcpState → Nat
  | .synReceived => econnrefused
  | .established | .finWait1 | .finWait2 | .closeWait => econnreset
  | _ => 0

/-- tcp_input.c:402-430 -/
def tcpInputRst (env : Env) (c : Conn) (seg : TcpSeg) : Conn :=
  if seg.seq ≠ c.tp.rcvNxt then
    let wnd := if c.tp.rcvWnd ≠ 0 then c.tp.rcvWnd else 1
    if gt seg.seq c.tp.rcvNxt && lt seg.seq (c.tp.rcvNxt + wnd) then tcpSendChallengeAck env c
    else c
  else
    let error := tcpRstError c.tp.state
    tcpClose (if error ≠ 0 ∧ !c.so.detached then { c with so.error := error } else c)

/-- Cut what lies before `rcv_nxt`.
tcp_input.c:434-451 -/
def tcpTrimLeft (c : Conn) (seg : TcpSeg) : Conn × TcpSeg :=
  let todrop := c.tp.rcvNxt - seg.seq
  if int32 todrop > 0 then
    let todrop' := if seg.flags.syn then todrop - 1 else todrop
    let seq := if seg.flags.syn then seg.seq + 1 else seg.seq
    let old := decide (todrop' > seg.len) || (decide (todrop' = seg.len) && !seg.flags.fin)
    let n := if old then seg.len else todrop'
    (if old then { c with tp.acknow := true } else c,
      { seg with seq := seq + n, len := seg.len - n, data := seg.data.drop n.toNat,
                 flags := { seg.flags with syn := false, fin := seg.flags.fin && !old } })
  else (c, seg)

/-- Cut what lies beyond the window; false drops the segment.
tcp_input.c:453-465 -/
def tcpTrimRight (c : Conn) (seg : TcpSeg) : Conn × TcpSeg × Bool :=
  let todrop := seg.seq + seg.len - (c.tp.rcvNxt + c.tp.rcvWnd)
  if int32 todrop > 0 then
    if todrop ≥ seg.len ∧ (c.tp.rcvWnd ≠ 0 ∨ seg.seq ≠ c.tp.rcvNxt) then (c, seg, false)
    else
      let all := decide (todrop ≥ seg.len)
      let n := if all then seg.len else todrop
      (if all then { c with tp.acknow := true } else c,
        { seg with len := seg.len - n, data := seg.data.take (seg.data.length - n.toNat),
                   flags := { seg.flags with push := false, fin := false } }, true)
  else (c, seg, true)

/-- tcp_input.c:432-466 -/
def tcpTrimSegment (c : Conn) (seg : TcpSeg) : Conn × TcpSeg × Bool :=
  let r := tcpTrimLeft c seg
  tcpTrimRight r.1 r.2

/-! ## ACK processing -/

/-- `ts_ecr`, zero without the option. -/
def TcpOpts.tsEcr (o : TcpOpts) : UInt32 :=
  match o.ts with
  | some (_, e) => e
  | none => 0

/-- A timed segment is acknowledged. -/
def tcpRttTimed (c : Conn) (ack : UInt32) : Bool := decide (c.tp.rttStart ≠ 0) && gt ack c.tp.rttSeq

/-- tcp_input.c:470-474 -/
def tcpRttMeasure (env : Env) (c : Conn) (seg : TcpSeg) : Conn :=
  if seg.opts.ts.isSome && c.tp.rcvdTstmp && decide (seg.opts.tsEcr ≠ 0) then
    tcpXmitTimer env c (int32 (UInt32.ofNat env.now - seg.opts.tsEcr))
  else if tcpRttTimed c seg.ack then
    tcpXmitTimer env c (int32 (UInt32.ofNat (env.since c.tp.rttStart)))
  else c

/-- tcp_input.c:468-477 -/
def tcpRttSample (env : Env) (c : Conn) (seg : TcpSeg) : Conn :=
  if tcpRttTimed c seg.ack then { tcpRttMeasure env c seg with tp.rttStart := 0 }
  else tcpRttMeasure env c seg

/-- Returns the `snd_nxt` the retransmission reached.
tcp_input.c:479-489 -/
def tcpRetransmitFrom (env : Env) (c : Conn) (start cwnd : UInt32) : Conn × UInt32 :=
  let onxt := c.tp.sndNxt
  let c := tcpOutput env { c with tp.sndNxt := start, tp.sndCwnd := cwnd }
  (if gt onxt c.tp.sndNxt then { c with tp.sndNxt := onxt } else c, c.tp.sndNxt)

/-- tcp_input.c:493-496 -/
def tcpRecoveryStart (c : Conn) : Conn :=
  let c := newrenoCongSignalDupack c
  { tcpTimerStop c .rexmt with tp.sndRecover := c.tp.sndMax, tp.rttStart := 0 }

/-- tcp_input.c:499-506 -/
def tcpRecoveryMark (c : Conn) (stop : UInt32) : Conn :=
  if c.tp.sackPermit then
    { c with tp.fastrecovery := true, tp.sackRxmit := stop,
             tp.sackRexmitBytes := stop - c.tp.sndUna, tp.sndCwnd := c.tp.sndSsthresh }
  else
    { c with tp.fastrecovery := true,
             tp.sndCwnd := c.tp.sndSsthresh + c.tp.dupacks * UInt32.ofNat c.tp.mss }

/-- tcp_input.c:491-507 -/
def tcpEnterRecovery (env : Env) (c : Conn) : Conn :=
  let c := tcpRecoveryStart c
  let r := tcpRetransmitFrom env c c.tp.sndUna (UInt32.ofNat c.tp.mss)
  tcpRecoveryMark r.1 r.2

/-- tcp_input.c:509-525 -/
def tcpDupack (env : Env) (c : Conn) (seg : TcpSeg) : Conn :=
  let dup := decide (seg.len = 0) && decide (seg.wnd = c.tp.sndWnd) &&
    decide (seg.ack = c.tp.sndUna) && decide (c.tp.sndMax ≠ c.tp.sndUna) && !seg.flags.fin
  if !dup then { c with tp.dupacks := 0 }
  else if c.tp.fastrecovery then
    if !c.tp.sackPermit then { c with tp.sndCwnd := c.tp.sndCwnd + UInt32.ofNat c.tp.mss } else c
  else
    let c := { c with tp.dupacks := c.tp.dupacks + 1 }
    if c.tp.dupacks = 3 ∧ gt seg.ack c.tp.sndRecover then tcpEnterRecovery env c else c

/-- tcp_input.c:527-538 -/
def tcpPartialAck (env : Env) (c : Conn) (ack : UInt32) : Conn :=
  if c.tp.sackPermit then c
  else
    let acked := ack - c.tp.sndUna
    let ocwnd := c.tp.sndCwnd
    let r := tcpRetransmitFrom env { tcpTimerStop c .rexmt with tp.rttStart := 0 } ack
      (UInt32.ofNat c.tp.mss + acked)
    { r.1 with tp.sndCwnd :=
        (if ocwnd > acked then ocwnd - acked else 0) + UInt32.ofNat r.1.tp.mss }

/-- tcp_input.c:540-546 -/
def tcpExitRecovery (c : Conn) : Conn :=
  newrenoPostRecovery { c with tp.fastrecovery := false, tp.dupacks := 0, tp.sackRexmitBytes := 0 }

/-- The number of buffered bytes `acked` sequence numbers stand for, as the
code computes it: one less for the SYN, one less for the FIN.
tcp_input.c:550-553 -/
def tcpAckedBytes (tp : Tcpcb) (ack acked : UInt32) : UInt32 :=
  let acked := if leq tp.sndUna tp.iss then acked - 1 else acked
  if tp.sentfin && decide (ack = tp.sndMax) then acked - 1 else acked

/-- tcp_input.c:548-559 -/
def tcpDropAckedData (c : Conn) (ack acked : UInt32) : Conn :=
  let acked := tcpAckedBytes c.tp ack acked
  if acked = 0 then c
  else { c with so.snd := sockbufDrop c.so.snd (min acked.toNat c.so.snd.length) }

/-- The first half of `tcp_new_ack`: congestion control and recovery.
tcp_input.c:563-574 -/
def tcpNewAckRecovery (env : Env) (c : Conn) (seg : TcpSeg) (acked : UInt32) : Conn :=
  let c := tcpRttSample env c seg
  if !c.tp.fastrecovery then newrenoAckReceived { c with tp.dupacks := 0 } acked
  else if lt seg.ack c.tp.sndRecover then tcpPartialAck env c seg.ack
  else tcpExitRecovery c

/-- tcp_input.c:577-581 -/
def tcpAdvanceUna (c : Conn) (ack : UInt32) : Conn :=
  let c := { c with tp.sndUna := ack,
                    tp.sndNxt := if lt c.tp.sndNxt ack then ack else c.tp.sndNxt,
                    unaPos := c.unaPos + dist c.tp.sndUna ack }
  { tcpSackAck c ack with tp.rexmtShift := 0 }

/-- tcp_input.c:583-586 -/
def tcpNewAckTimer (c : Conn) (ack : UInt32) : Conn :=
  if ack = c.tp.sndMax then tcpTimerStop c .rexmt
  else if !tcpTimerActive c.tp .persist then tcpTimerActivate c .rexmt (tcpRexmtMs c.tp)
  else c

/-- The second half: drop what is acknowledged and advance.
tcp_input.c:576-586 -/
def tcpNewAckAdvance (c : Conn) (ack acked : UInt32) : Conn :=
  tcpNewAckTimer (tcpAdvanceUna (tcpDropAckedData c ack acked) ack) ack

/-- tcp_input.c:561-587 -/
def tcpNewAck (env : Env) (c : Conn) (seg : TcpSeg) : Conn :=
  let acked := seg.ack - c.tp.sndUna
  tcpNewAckAdvance (tcpNewAckRecovery env c seg acked) seg.ack acked

/-- tcp_input.c:589-610 -/
def tcpOurFinAcked (c : Conn) : Conn × TcpAckResult :=
  if !c.tp.sentfin || decide (c.tp.sndUna ≠ c.tp.sndMax) then (c, .cont)
  else
    match c.tp.state with
    | .finWait1 =>
      let c := tcpStateChange c .finWait2
      (if c.so.detached then tcpTimerActivate c .msl2 (2 * tcpMslMs) else c, .cont)
    | .closing => (tcpEnterTimewait c, .cont)
    | .lastAck => (tcpClose (c.note .closed false), .gone)
    | _ => (c, .cont)

/-- tcp_input.c:625-626 -/
def tcpTakeSacks (c : Conn) (seg : TcpSeg) : Conn :=
  match seg.opts.sacks with
  | some s => if c.tp.sackPermit then tcpSackUpdate c s else c
  | none => c

/-- `tcp_process_ack` once the handshake is complete.
tcp_input.c:622-633 -/
def tcpProcessAckSync (env : Env) (c : Conn) (seg : TcpSeg) : Conn × TcpAckResult :=
  if gt seg.ack c.tp.sndMax then (c, .dropAck)
  else
    let c := tcpTakeSacks c seg
    if leq seg.ack c.tp.sndUna then (tcpDupack env c seg, .cont)
    else tcpOurFinAcked (tcpNewAck env c seg)

/-- tcp_input.c:612-634 -/
def tcpProcessAck (env : Env) (c : Conn) (seg : TcpSeg) : Conn × TcpAckResult :=
  if c.tp.state = .synReceived then
    if leq seg.ack c.tp.sndUna ∨ gt seg.ack c.tp.sndMax then
      (tcpRespond env c true 0 seg.ack { ThFlags.none with rst := true }, .drop)
    else tcpProcessAckSync env (tcpEstablished c) seg
  else tcpProcessAckSync env c seg

/-! ## Window, data, FIN -/

/-- tcp_input.c:636-646 -/
def tcpUpdateWindow (c : Conn) (seg : TcpSeg) : Conn :=
  if lt c.tp.sndWl1 seg.seq || (decide (c.tp.sndWl1 = seg.seq) &&
      (lt c.tp.sndWl2 seg.ack || (decide (c.tp.sndWl2 = seg.ack) && decide (seg.wnd > c.tp.sndWnd))))
  then { c with tp.sndWnd := seg.wnd, tp.sndWl1 := seg.seq, tp.sndWl2 := seg.ack }
  else c

/-- tcp_input.c:648-670 -/
def tcpProcessFin (c : Conn) : Conn :=
  let c := if !c.so.detached then { c with so := sockCantRecvMore c.so } else c
  let c := { c with tp.rcvNxt := c.tp.rcvNxt + 1, tp.acknow := true }
  match c.tp.state with
  | .synReceived | .established => tcpStateChange c .closeWait
  | .finWait1 => tcpStateChange c .closing
  | .finWait2 => tcpEnterTimewait c
  | _ => c

/-- tcp_input.c:672-680 -/
def tcpScheduleAck (c : Conn) (delay : Bool) : Conn :=
  if !delay || c.tp.delack then { c with tp.acknow := true }
  else tcpTimerActivate { c with tp.delack := true } .delack tcpDelackMs

/-- False: the connection was dropped.
tcp_input.c:682-705 -/
def tcpProcessData (env : Env) (c : Conn) (seg : TcpSeg) : Conn × Bool :=
  if c.tp.state.haveRcvdFin || (decide (seg.len = 0) && !seg.flags.fin) then (c, true)
  else if decide (seg.len ≠ 0) && c.so.detached then (tcpDrop env c 0, false)
  else
    let inOrder := decide (seg.seq = c.tp.rcvNxt) && c.tp.reassembleQueue.isEmpty
    let r := tcpReassemble env c seg.seq seg.len seg.flags.fin seg.data
    let c := if seg.len ≠ 0 then tcpScheduleAck r.1 inOrder else r.1
    (if r.2 then tcpProcessFin c else c, true)

/-! ## The synchronized path -/

/-- What becomes of a segment before ACK processing. -/
inductive SyncCheck
  | drop (c : Conn)
  | dropAfterAck (c : Conn)
  | ack (c : Conn) (seg : TcpSeg)

/-- `tp->rcv_wnd = tcp_rcv_space(tp)` -/
def tcpOpenWindow (c : Conn) : Conn := { c with tp.rcvWnd := tcpRcvSpace c }

/-- tcp_input.c:709-726 -/
def tcpInputSyncCheck (env : Env) (c : Conn) (seg : TcpSeg) : SyncCheck :=
  let c := tcpOpenWindow c
  let p := tcpPawsOk env c seg
  if !p.2 then .dropAfterAck p.1
  else if seg.flags.rst then .drop (tcpInputRst env p.1 seg)
  else
    let t := tcpTrimSegment p.1 seg
    if !t.2.2 then .dropAfterAck t.1
    else if t.2.1.flags.syn then .drop (tcpSendChallengeAck env t.1)
    else if !t.2.1.flags.ack then .drop t.1
    else .ack (tcpUpdateTsRecent env t.1 t.2.1) t.2.1

/-- tcp_input.c:743-747 -/
def tcpDropAfterAck (env : Env) (c : Conn) : Conn := tcpOutput env { c with tp.acknow := true }

/-- After ACK processing: window, data, and the segment we owe.
tcp_input.c:737-740 -/
def tcpInputData (env : Env) (c : Conn) (seg : TcpSeg) : Conn :=
  let r := tcpProcessData env (tcpUpdateWindow c seg) seg
  if r.2 then tcpOutput env r.1 else r.1

/-- tcp_input.c:707-750 -/
def tcpInputSync (env : Env) (c : Conn) (seg : TcpSeg) : Conn :=
  match tcpInputSyncCheck env c seg with
  | .drop c => c
  | .dropAfterAck c => tcpDropAfterAck env c
  | .ack c seg =>
    let r := tcpProcessAck env c seg
    match r.2 with
    | .cont => tcpInputData env r.1 seg
    | .drop | .gone => r.1
    | .dropAck => tcpDropAfterAck env r.1

/-- The segment as `tcp_input` reads it.
tcp_input.c:754-756 -/
def tcpReadSegment (tp : Tcpcb) (s : Segment) : TcpSeg :=
  { seq := s.seq, ack := s.ack, flags := s.flags, opts := tcpDooptions s.opts s.flags.syn,
    data := s.data, len := UInt32.ofNat s.data.length,
    wnd := if s.flags.syn then UInt32.ofNat s.window
      else UInt32.ofNat s.window <<< UInt32.ofNat tp.sndScale }

/-- The peer was heard of. -/
def tcpHeard (env : Env) (c : Conn) : Conn := { c with tp.tRcvtime := env.now, tp.keepProbes := 0 }

/-- tcp_input.c:752-782 -/
def tcpInput (env : Env) (c : Conn) (s : Segment) : Conn :=
  let seg := tcpReadSegment c.tp s
  let c := tcpHeard env c
  match c.tp.state with
  | .closed => tcpReplyReset env c seg
  | .listen => if !seg.flags.rst && seg.flags.ack then tcpReplyReset env c seg else c
  | .synSent =>
    match tcpInputSynSent env c seg with
    | (c, some seg) => tcpInputSync env c seg
    | (c, none) => c
  | _ => tcpInputSync env c seg

end Hermes.L3.Tcp
