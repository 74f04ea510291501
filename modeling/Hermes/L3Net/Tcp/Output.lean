import Hermes.L3Net.Tcp.Sack

/-!
# `tcp_output` and NewReno

Model of src/kernel/drivers/net/tcp/tcp_output.c and tcp_cc.c. One pass of
the output loop is split as in the source: plan a segment
(`tcpPlanSackRxmit`, `tcpPlanData`, `tcpPlanFin`), decide whether to send it
(`tcpShouldSend`), build it (`tcpBuildSegment`) and account for it
(`tcpAfterSend`). The `while` loop around the pass is given fuel: every pass
that asks for another one has sent at least one byte of the buffer or of a
SACK hole, so the bytes buffered plus the bytes in flight bound the passes.
-/
namespace Hermes.L3.Tcp

open Hermes.Seq32

/-! ## NewReno (tcp_cc.c) -/

/-- tcp_cc.c:55-58 -/
def tcpFlightSize (tp : Tcpcb) : UInt32 := tp.sndMax - tp.sndUna

/-- tcp_cc.c:60-67 -/
def newrenoInitialWindow (tp : Tcpcb) : UInt32 :=
  if 2190 < tp.mss then UInt32.ofNat (2 * tp.mss)
  else if 1095 < tp.mss then UInt32.ofNat (3 * tp.mss)
  else UInt32.ofNat (4 * tp.mss)

/-- tcp_cc.c:69-73 -/
def newrenoHalfFlight (tp : Tcpcb) : UInt32 :=
  let half := tcpFlightSize tp / 2
  if half > UInt32.ofNat (2 * tp.mss) then half else UInt32.ofNat (2 * tp.mss)

/-- tcp_cc.c:82-85 -/
def newrenoConnInit (c : Conn) : Conn := { c with tp.sndCwnd := newrenoInitialWindow c.tp }

/-- tcp_cc.c:87-98 -/
def newrenoAckReceived (c : Conn) (acked : UInt32) : Conn :=
  let mss := UInt32.ofNat c.tp.mss
  let incr :=
    if c.tp.sndCwnd ≤ c.tp.sndSsthresh then (if acked < mss then acked else mss)
    else mss * mss / c.tp.sndCwnd
  let incr := if incr = 0 then 1 else incr
  if c.tp.sndCwnd + incr ≤ tcpCwndMax then { c with tp.sndCwnd := c.tp.sndCwnd + incr } else c

/-- `newreno_cong_signal(tp, CC_DUPACK)`.
tcp_cc.c:103-107 -/
def newrenoCongSignalDupack (c : Conn) : Conn :=
  { c with tp.sndSsthresh := newrenoHalfFlight c.tp, tp.sndCwnd := newrenoHalfFlight c.tp }

/-- `newreno_cong_signal(tp, CC_RTO)`.
tcp_cc.c:108-112 -/
def newrenoCongSignalRto (c : Conn) : Conn :=
  { c with tp.sndSsthresh :=
      if c.tp.rexmtShift ≤ 1 then newrenoHalfFlight c.tp else c.tp.sndSsthresh,
           tp.sndCwnd := UInt32.ofNat c.tp.mss }

/-- tcp_cc.c:116-119 -/
def newrenoPostRecovery (c : Conn) : Conn := { c with tp.sndCwnd := c.tp.sndSsthresh }

/-- tcp_cc.c:121-126 -/
def newrenoAfterIdle (c : Conn) : Conn :=
  if c.tp.sndCwnd > newrenoInitialWindow c.tp then
    { c with tp.sndCwnd := newrenoInitialWindow c.tp }
  else c

/-! ## Planning a segment -/

/-- tcp_output.c:17-29 -/
def tcpOutflags : TcpState → ThFlags
  | .closed => { ThFlags.none with rst := true, ack := true }
  | .listen => ThFlags.none
  | .synSent => { ThFlags.none with syn := true }
  | .synReceived => { ThFlags.none with syn := true, ack := true }
  | .finWait1 | .closing | .lastAck => { ThFlags.none with fin := true, ack := true }
  | .established | .closeWait | .finWait2 | .timeWait => { ThFlags.none with ack := true }

/-- tcp_output.c:31-37 -/
structure TxPlan where
  seq : UInt32
  off : UInt32
  len : UInt32
  flags : ThFlags
  sackRxmit : Bool
deriving DecidableEq, Repr

/-- The headers in front of a segment of the socket's family. -/
def tcpHdrLen (so : Sock) : Nat :=
  (if so.v4Mapped then ipv4HeaderLen else ipv6HeaderLen) + tcpHeaderLen

/-- tcp_subr.c:264-275 -/
def tcpLocalMss (env : Env) (so : Sock) : Nat := min ((env.mtu + 2 ^ 32 - tcpHdrLen so) % 2 ^ 32) tcpMaxPayloadBytes

/-- tcp_output.c:95-124 -/
def tcpBuildOpts (env : Env) (tp : Tcpcb) (so : Sock) (flags : ThFlags) : List UInt8 :=
  let offer := !tp.noopt
  let active := decide (tp.state = .synSent)
  let ts := some (UInt32.ofNat env.now, tp.tsRecent)
  if flags.syn then
    tcpAddoptions {
      mss := some (tcpLocalMss env so),
      wscale := if offer && (active || tp.rcvdScale) then some tp.reqRcvScale else none,
      sackperm := offer && (active || tp.sackPermit),
      ts := if offer && (active || tp.rcvdTstmp) then ts else none,
      sacks := none }
  else
    tcpAddoptions {
      mss := none, wscale := none, sackperm := false,
      ts := if tp.rcvdTstmp then ts else none,
      sacks :=
        if tp.sackPermit && !tp.reassembleQueue.isEmpty then
          let s := tcpSackBuildBlocks tcpMaxSack [] tp.reassembleQueue
          if s.isEmpty then none else some s
        else none }

/-- `rcv_adv - rcv_nxt` where the window has been advertised that far. -/
def tcpAdvertised (tp : Tcpcb) : UInt32 :=
  if gt tp.rcvAdv tp.rcvNxt then tp.rcvAdv - tp.rcvNxt else 0

/-- tcp_output.c:126-139 -/
def tcpRcvWindow (tp : Tcpcb) (so : Sock) : UInt32 :=
  let space := sockbufSpace so.rcv so.rcvHiwat
  let win := if space < so.rcvHiwat / 4 ∧ space < tp.mss then 0 else space
  let win := UInt32.ofNat (min win (tcpMaxwin <<< tp.rcvScale))
  if win > tcpAdvertised tp then win else tcpAdvertised tp

/-- tcp_output.c:141-145 -/
def tcpWindowField (tp : Tcpcb) (win : UInt32) (flags : ThFlags) : Nat :=
  min (win.toNat >>> (if flags.syn then 0 else tp.rcvScale)) tcpMaxwin

/-- tcp_output.c:147-150 -/
def tcpInSackRecovery (tp : Tcpcb) : Bool := tp.fastrecovery && tp.sackPermit

/-- tcp_output.c:152-161 -/
def tcpSendWindow (tp : Tcpcb) : UInt32 :=
  let cwnd :=
    if tcpInSackRecovery tp then
      let pipe := tcpSackPipe tp
      (tp.sndNxt - tp.sndUna) + (if tp.sndCwnd > pipe then tp.sndCwnd - pipe else 0)
    else tp.sndCwnd
  let win := if tp.sndWnd < cwnd then tp.sndWnd else cwnd
  if win = 0 ∧ tp.forcedata then 1 else win

/-- tcp_output.c:163-167 -/
def tcpMaxPayload (tp : Tcpcb) (optlen : Nat) : UInt32 :=
  UInt32.ofNat (min (if optlen < tp.mss then tp.mss - optlen else 1) tcpMaxPayloadBytes)

/-- `none` where the source returns false.
tcp_output.c:169-189 -/
def tcpPlanSackRxmit (tp : Tcpcb) (maxseg : UInt32) (tx : TxPlan) : Option TxPlan :=
  if !tcpInSackRecovery tp then none
  else
    match tcpSackNextHole tp with
    | none => none
    | some (seq, len) =>
      let pipe := tcpSackPipe tp
      if tp.sndCwnd ≤ pipe then some tx
      else
        let room := tp.sndCwnd - pipe
        let len := if len > maxseg then maxseg else len
        some { tx with seq := seq, off := seq - tp.sndUna,
                       len := if len < room then len else room, sackRxmit := true }

/-- tcp_output.c:191-201 -/
def tcpPlanData (tp : Tcpcb) (sbCc maxseg : UInt32) (tx : TxPlan) : TxPlan :=
  if !tp.state.haveEstablished then tx
  else
    let win := tcpSendWindow tp
    let stop := if sbCc < win then sbCc else win
    let off := tp.sndNxt - tp.sndUna
    let len := if stop > off then stop - off else 0
    { tx with off := off, len := if len > maxseg then maxseg else len }

/-- tcp_output.c:203-211 -/
def tcpPlanFin (tp : Tcpcb) (sbCc : UInt32) (tx : TxPlan) : TxPlan :=
  if !tx.flags.fin then tx
  else
    let moreData := tx.sackRxmit || decide (tx.off + tx.len < sbCc)
    let alreadySent := tp.sentfin && decide (tp.sndNxt = tp.sndMax)
    if moreData || alreadySent then { tx with flags := { tx.flags with fin := false } } else tx

/-- The flags and the sequence number a pass starts from.
tcp_output.c:359-362 -/
def tcpPlanStart (tp : Tcpcb) : TxPlan :=
  let flags := tcpOutflags tp.state
  { seq := tp.sndNxt, off := 0, len := 0, sackRxmit := false,
    flags := if flags.syn && decide (tp.sndNxt ≠ tp.iss) then { flags with syn := false }
      else flags }

/-- tcp_output.c:213-217 -/
def tcpNagleAllows (tp : Tcpcb) (sbCc : UInt32) (tx : TxPlan) : Bool :=
  (decide (tp.sndMax = tp.sndUna) || tp.nodelay) && decide (tx.off + tx.len ≥ sbCc)

/-- tcp_output.c:219-230 -/
def tcpWindowUpdateDue (tp : Tcpcb) (so : Sock) : Bool :=
  if !tp.state.haveEstablished then false
  else
    let win := tcpRcvWindow tp so
    let advertised := tcpAdvertised tp
    if win ≤ advertised then false
    else
      let incr := win - advertised
      decide (incr ≥ UInt32.ofNat (2 * tp.mss)) || decide ((2 * incr).toNat ≥ so.rcvHiwat)

/-- tcp_output.c:232-246 -/
def tcpShouldSend (tp : Tcpcb) (so : Sock) (sbCc maxseg : UInt32) (tx : TxPlan) : Bool :=
  if tx.len ≠ 0 ∧ (tx.len ≥ maxseg ∨ tx.sackRxmit ∨ tp.forcedata ∨ lt tp.sndNxt tp.sndMax ∨
      tcpNagleAllows tp sbCc tx) then true
  else if tp.acknow then true
  else if tx.flags.syn || tx.flags.rst || tx.flags.fin then true
  else tcpWindowUpdateDue tp so

/-! ## Persist, build, account -/

/-- tcp_output.c:427-437 -/
def tcpSetpersist (c : Conn) : Conn :=
  let t := min (max (c.tp.rto <<< c.tp.rexmtShift) tcpPersminMs) tcpPersmaxMs
  let c := tcpTimerActivate c .persist t
  if c.tp.rexmtShift < tcpMaxrxtshift then { c with tp.rexmtShift := c.tp.rexmtShift + 1 } else c

/-- tcp_output.c:248-256 -/
def tcpMaybePersist (c : Conn) (sbCc : UInt32) : Conn :=
  if sbCc = 0 ∨ !c.tp.state.haveEstablished then c
  else if tcpTimerActive c.tp .rexmt || tcpTimerActive c.tp .persist then c
  else tcpSetpersist { c with tp.rexmtShift := 0 }

/-- Header and payload; what `sockbuf_copy` cannot supply is zero-filled.
tcp_output.c:258-302 -/
def tcpBuildSegment (tp : Tcpcb) (so : Sock) (tx : TxPlan) (opts : List UInt8) (win : UInt32) :
    Segment :=
  let copied := sockbufCopy so.snd tx.off.toNat tx.len.toNat
  { seq := tx.seq,
    ack := if tx.flags.ack then tp.rcvNxt else 0,
    flags := tx.flags,
    window := tcpWindowField tp win tx.flags,
    opts := opts,
    data := copied ++ List.replicate (tx.len.toNat - copied.length) 0 }

/-- The sequence number after the segment: SYN and FIN count for one. -/
def TxPlan.stop (tx : TxPlan) : UInt32 :=
  tx.seq + tx.len + (if tx.flags.syn then 1 else 0) + (if tx.flags.fin then 1 else 0)

/-- What every send records: the window and the ACK are out.
tcp_output.c:318-322 -/
def tcpAfterSendAck (c : Conn) (win : UInt32) : Conn :=
  { c with tp.rcvAdv :=
      if win ≠ 0 ∧ gt (c.tp.rcvNxt + win) c.tp.rcvAdv then c.tp.rcvNxt + win else c.tp.rcvAdv,
           tp.lastAckSent := c.tp.rcvNxt, tp.acknow := false, tp.delack := false,
           tp.tDelack := none }

/-- A window probe of the persist timer.
tcp_output.c:334 -/
def tcpProbing (tp : Tcpcb) : Bool := tp.forcedata && tcpTimerActive tp .persist

/-- The send variables after a segment that is not a reset.
tcp_output.c:326-344 -/
def tcpAfterSendSeq (env : Env) (c : Conn) (tx : TxPlan) : Conn :=
  let stop := tx.stop
  let probe := tcpProbing c.tp
  let newMax := gt stop c.tp.sndMax
  let timed := newMax && decide (c.tp.rttStart = 0) && !probe
  { c with tp.sentfin := c.tp.sentfin || tx.flags.fin,
           tp.sackRxmit := if tx.sackRxmit then stop else c.tp.sackRxmit,
           tp.sackRexmitBytes :=
             if tx.sackRxmit then c.tp.sackRexmitBytes + tx.len else c.tp.sackRexmitBytes,
           tp.sndNxt := if !probe && !tx.sackRxmit then stop else c.tp.sndNxt,
           tp.sndMax := if newMax then stop else c.tp.sndMax,
           tp.rttStart := if timed then (if env.now ≠ 0 then env.now else 1) else c.tp.rttStart,
           tp.rttSeq := if timed then tx.seq else c.tp.rttSeq }

/-- Something is in flight and no retransmission timer runs.
tcp_output.c:346 -/
def tcpArmsRexmt (tp : Tcpcb) : Bool := !tcpProbing tp && decide (tp.sndNxt ≠ tp.sndUna) && !tcpTimerActive tp .rexmt

/-- tcp_output.c:347-350 -/
def tcpPersistEnds (c : Conn) : Conn :=
  if tcpTimerActive c.tp .persist then { tcpTimerStop c .persist with tp.rexmtShift := 0 } else c

/-- tcp_output.c:346-352 -/
def tcpAfterSendTimer (c : Conn) : Conn :=
  if tcpArmsRexmt c.tp then
    tcpTimerActivate (tcpPersistEnds c) .rexmt (tcpRexmtMs (tcpPersistEnds c).tp)
  else c

/-- tcp_output.c:316-353 -/
def tcpAfterSend (env : Env) (c : Conn) (tx : TxPlan) (win : UInt32) : Conn :=
  let c := tcpAfterSendAck c win
  if tx.flags.rst then c else tcpAfterSendTimer (tcpAfterSendSeq env c tx)

/-! ## One pass and the loop -/

def sbCc (so : Sock) : UInt32 := UInt32.ofNat so.snd.length

def tcpPlanOpts (env : Env) (tp : Tcpcb) (so : Sock) : List UInt8 := tcpBuildOpts env tp so (tcpPlanStart tp).flags

def tcpPlanMaxseg (env : Env) (tp : Tcpcb) (so : Sock) : UInt32 := tcpMaxPayload tp (tcpPlanOpts env tp so).length

/-- The segment this pass plans.
tcp_output.c:357-370 -/
def tcpPlan (env : Env) (tp : Tcpcb) (so : Sock) : TxPlan :=
  let maxseg := tcpPlanMaxseg env tp so
  let tx := tcpPlanStart tp
  let tx := (tcpPlanSackRxmit tp maxseg tx).getD (tcpPlanData tp (sbCc so) maxseg tx)
  tcpPlanFin tp (sbCc so) tx

/-- Whether this pass sends.
tcp_output.c:372-375 -/
def tcpPlanSends (env : Env) (tp : Tcpcb) (so : Sock) : Bool :=
  tcpShouldSend tp so (sbCc so) (tcpPlanMaxseg env tp so) (tcpPlan env tp so)

/-- The pass is recorded, with what it sent. -/
def Conn.record (c : Conn) (seg : Option Segment) : Conn :=
  { c with passes := ⟨c.tp, c.so, c.stream.length - c.so.snd.length, c.unaPos, seg⟩ :: c.passes }

/-- The segment a sending pass builds. -/
def tcpPassSegment (env : Env) (tp : Tcpcb) (so : Sock) : Segment :=
  tcpBuildSegment tp so (tcpPlan env tp so) (tcpPlanOpts env tp so) (tcpRcvWindow tp so)

/-- One pass; true asks for another one.
tcp_output.c:355-387 -/
def tcpOutputOnce (env : Env) (c : Conn) : Conn × Bool :=
  let tx := tcpPlan env c.tp c.so
  if !tcpPlanSends env c.tp c.so then (tcpMaybePersist (c.record none) (sbCc c.so), false)
  else if !env.alloc c.passes.length then (c.record none, false)
  else
    let c' := tcpAfterSend env (c.record (some (tcpPassSegment env c.tp c.so))) tx (tcpRcvWindow c.tp c.so)
    (c', (decide (tx.len = tcpPlanMaxseg env c.tp c.so) || tx.sackRxmit) && !tx.flags.rst && !c'.tp.forcedata)

def tcpOutputLoop (env : Env) : Nat → Conn → Conn
  | 0, c => c
  | fuel + 1, c =>
    let r := tcpOutputOnce env c
    if r.2 then tcpOutputLoop env fuel r.1 else r.1

/-- Restart from the initial window after an idle period.
tcp_output.c:391-394 -/
def tcpOutputIdle (env : Env) (c : Conn) : Conn :=
  if decide (c.tp.sndMax = c.tp.sndUna) && c.tp.state.haveEstablished &&
      decide (c.tp.rto ≤ env.since c.tp.tRcvtime) then newrenoAfterIdle c
  else c

/-- Enough passes for the loop in every reachable state. -/
def tcpOutputFuel (c : Conn) : Nat := c.so.snd.length + dist c.tp.sndUna c.tp.sndMax + 2

/-- tcp_output.c:389-400 -/
def tcpOutput (env : Env) (c : Conn) : Conn := tcpOutputLoop env (tcpOutputFuel c) (tcpOutputIdle env c)

/-- A bare segment outside the stream: resets, challenge ACKs, keepalives.
tcp_output.c:402-425 -/
def tcpRespond (env : Env) (c : Conn) (fromTp : Bool) (ack seq : UInt32) (flags : ThFlags) : Conn :=
  if !env.allocRespond c.responds.length then c
  else
    { c with responds :=
        { seq := seq, ack := if flags.ack then ack else 0, flags := flags,
          window := if fromTp then tcpWindowField c.tp (tcpRcvWindow c.tp c.so) ThFlags.none else 0,
          opts := [], data := [] } :: c.responds }

end Hermes.L3.Tcp
