import Hermes.Core.LTS
import Hermes.L3Net.Tcp.Input

/-!
# Timers, user requests, and the connection as a transition system

The handlers of tcp_timer.c and tcp_usrreq.c with the socket-layer code in
front of them (`sock_send_locked` cuts every chunk to the free space, the
buffer sizes are checked against `SOCKET_MAX_BUFFER`). Each handler runs
under the socket lock and the TCP lock, so a connection is a state machine
whose steps are whole handlers: `step` is one event, `system` all its runs.

A timer event finds its callout pending; the callout is no longer pending
when the handler starts, exactly as `callout_poll` leaves it.
-/
namespace Hermes.L3.Tcp

open Hermes.Seq32

/-! ## Timers -/

/-- tcp_timer.c:107-112 -/
def tcpRexmtBackoff (c : Conn) : Conn :=
  let c :=
    if c.tp.rexmtShift > tcpMaxrxtshift / 4 then
      { c with tp.rttvar := wrap32 (c.tp.rttvar + c.tp.srtt >>> (3 : Nat)), tp.srtt := 0 }
    else c
  if c.tp.state.haveEstablished then newrenoCongSignalRto c else c

/-- Go back to the first unacknowledged byte.
tcp_timer.c:114-119 -/
def tcpRexmtRewind (c : Conn) : Conn :=
  tcpSackClear { c with tp.sndNxt := c.tp.sndUna, tp.sndRecover := c.tp.sndMax, tp.rttStart := 0,
                        tp.dupacks := 0, tp.fastrecovery := false }

/-- tcp_timer.c:99-122 -/
def tcpRexmtTimeout (env : Env) (c : Conn) : Conn :=
  let c := { c with tp.rexmtShift := c.tp.rexmtShift + 1 }
  if c.tp.rexmtShift > tcpMaxrxtshift then
    tcpDrop env c (if c.tp.tSofterror ≠ 0 then c.tp.tSofterror else etimedout)
  else
    let c := tcpRexmtRewind (tcpRexmtBackoff c)
    tcpOutput env (tcpTimerActivate c .rexmt (tcpRexmtMs c.tp))

/-- tcp_timer.c:134-147 -/
def tcpTimerPersist (env : Env) (c : Conn) : Conn :=
  let c := tcpOutput env { tcpSetpersist c with tp.forcedata := true }
  { c with tp.forcedata := false }

/-- tcp_timer.c:149-153 -/
def tcpKeepaliveEnabled (c : Conn) : Bool := c.so.keepalive && decide (c.tp.state.rank ≤ TcpState.closeWait.rank)

/-- tcp_timer.c:155-180 -/
def tcpKeepTimeout (env : Env) (c : Conn) : Conn :=
  if !c.tp.state.haveEstablished then tcpDrop env c etimedout
  else if !tcpKeepaliveEnabled c then tcpTimerActivate c .keep tcpKeepidleMs
  else
    let idle := env.since c.tp.tRcvtime
    if idle < tcpKeepidleMs then
      tcpTimerActivate { c with tp.keepProbes := 0 } .keep (tcpKeepidleMs - idle)
    else if tcpKeepcnt ≤ c.tp.keepProbes then tcpDrop env c etimedout
    else
      let c := { c with tp.keepProbes := c.tp.keepProbes + 1 }
      tcpTimerActivate (tcpRespond env c true c.tp.rcvNxt (c.tp.sndUna - 1) { ThFlags.none with ack := true })
        .keep tcpKeepintvlMs

/-- tcp_timer.c:202-213 -/
def tcpTimerDelack (env : Env) (c : Conn) : Conn := tcpOutput env { c with tp.delack := false, tp.acknow := true }

/-- A pending callout fires. -/
def tcpTimerExpire (env : Env) (c : Conn) (which : TimerType) : Conn :=
  if !tcpTimerActive c.tp which then c
  else
    let c := tcpTimerStop c which
    match which with
    | .rexmt => tcpRexmtTimeout env c
    | .persist => tcpTimerPersist env c
    | .keep => tcpKeepTimeout env c
    | .msl2 => tcpClose c
    | .delack => tcpTimerDelack env c

/-! ## User requests -/

/-- `sockbuf_append` to `so->snd`; the history keeps the whole stream. -/
def sockAppend (c : Conn) (bytes : List UInt8) : Conn :=
  { c with so.snd := c.so.snd ++ bytes, stream := c.stream ++ bytes }

/-- tcp_usrreq.c:124-151 -/
def tcpSend (env : Env) (c : Conn) (bytes : List UInt8) : Conn :=
  if c.tp.state.rank < TcpState.synSent.rank ∨ TcpState.closeWait.rank < c.tp.state.rank then c
  else tcpOutput env (sockAppend c bytes)

/-- One round of the loop of `sock_send_locked` with `bytes` left to send.
socket.c:318-365 -/
def sockSend (env : Env) (c : Conn) (bytes : List UInt8) : Conn :=
  if c.so.cantSendMore then c
  else if c.so.error ≠ 0 then { c with so.error := 0 }
  else if !c.so.isConnected then c
  else
    let space := sockbufSpace c.so.snd c.so.sndHiwat
    if space = 0 then c else tcpSend env c (bytes.take space)

/-- `sock_recv_locked` takes `n` bytes and calls `tcp_rcvd`.
tcp_usrreq.c:153-163 -/
def tcpRcvd (env : Env) (c : Conn) (n : Nat) : Conn := tcpOutput env { c with so.rcv := sockbufDrop c.so.rcv n }

/-- tcp_usrreq.c:165-177 -/
def tcpShutdown (env : Env) (c : Conn) : Conn :=
  let c := tcpUsrclosed { c with so := sockCantSendMore c.so }
  if c.gone then c else tcpOutput env c

/-- socket.c:454-468 -/
def sockShutdown (env : Env) (c : Conn) (rd wr : Bool) : Conn :=
  if !c.so.isConnected && !c.so.isConnecting then c
  else
    let c := if rd then { c with so := { sockCantRecvMore c.so with rcv := [] } } else c
    if wr then tcpShutdown env c else c

/-- tcp_usrreq.c:179-190 -/
def tcpDisconnect (env : Env) (c : Conn) : Conn :=
  if !c.tp.state.haveEstablished then tcpClose c
  else if c.so.linger = 0 then tcpDrop env c 0
  else
    let c := tcpUsrclosed { c with so := sockIsDisconnecting c.so }
    if c.gone then c else tcpOutput env c

/-- tcp_usrreq.c:213-229 -/
def tcpDetach (env : Env) (c : Conn) : Conn :=
  let c := { c with so.detached := true }
  if c.gone then c
  else if !c.tp.state.haveEstablished then tcpClose c
  else
    let c := tcpUsrclosed c
    if c.gone then c else tcpOutput env c

/-- socket.c:494-499 -/
def sockClose (env : Env) (c : Conn) : Conn :=
  tcpDetach env (if c.so.isConnected then tcpDisconnect env c else c)

/-- tcp_usrreq.c:97-100 -/
def tcpConnectStart (c : Conn) (isn : UInt32) : Conn :=
  let c := tcpStateChange (tcpSendseqinit c isn) .synSent
  tcpTimerActivate { c with so := sockIsConnecting c.so } .keep tcpKeepinitMs

/-- `inpcb_connect` has succeeded and the peer is `v4Mapped` or not.
tcp_usrreq.c:83-104 -/
def tcpConnect (env : Env) (c : Conn) (isn : UInt32) (v4Mapped : Bool) : Conn :=
  if c.so.isConnected || c.so.isConnecting || decide (c.tp.state ≠ .closed) then c
  else tcpOutput env (tcpConnectStart { c with so.error := 0, so.v4Mapped := v4Mapped } isn)

/-- tcp_usrreq.c:66-81 -/
def tcpListen (c : Conn) : Conn :=
  if c.so.isConnected || c.so.isConnecting then c
  else if c.tp.state = .closed ∨ c.tp.state = .listen then tcpStateChange c .listen
  else c

/-- `TCP_NODELAY` set through `tcp_ctloutput`.
tcp_usrreq.c:255-261 -/
def tcpSetNodelay (env : Env) (c : Conn) (value : Bool) : Conn :=
  let c := { c with tp.nodelay := value }
  if value then tcpOutput env c else c

/-- `TCP_MAXSEG` set through `tcp_ctloutput`.
tcp_usrreq.c:262-269 -/
def tcpSetMaxseg (c : Conn) (value : Nat) : Conn :=
  if value < 64 ∨ c.tp.mss < value then c else { c with tp.mss := value }

/-- `SO_SNDBUF` and `SO_RCVBUF`.
socket.c:546-552 -/
def sockSetBuffer (c : Conn) (snd : Bool) (value : Nat) : Conn :=
  if value = 0 ∨ socketMaxBuffer < value then c
  else if snd then { c with so.sndHiwat := value } else { c with so.rcvHiwat := value }

/-! ## The transition system -/

/-- Everything that can happen to one connection. -/
inductive Ev
  | send (bytes : List UInt8)
  | rcvd (n : Nat)
  | shutdown (rd wr : Bool)
  | close
  | abort
  | connect (isn : UInt32) (v4Mapped : Bool)
  | listen
  | setNodelay (value : Bool)
  | setMaxseg (value : Nat)
  | setBuffer (snd : Bool) (value : Nat)
  | setKeepalive (value : Bool)
  | output
  | input (s : Segment)
  | timer (which : TimerType)
  | ctlinput (error mtu : Nat)
deriving DecidableEq, Repr

/-- One handler. Once the tcpcb is gone nothing finds it again. -/
def step (c : Conn) (l : Env × Ev) : Conn :=
  if c.gone then c
  else
    match l.2 with
    | .send bytes => sockSend l.1 c bytes
    | .rcvd n => tcpRcvd l.1 c n
    | .shutdown rd wr => sockShutdown l.1 c rd wr
    | .close => sockClose l.1 c
    | .abort => tcpDrop l.1 c econnaborted
    | .connect isn v4 => tcpConnect l.1 c isn v4
    | .listen => tcpListen c
    | .setNodelay v => tcpSetNodelay l.1 c v
    | .setMaxseg v => tcpSetMaxseg c v
    | .setBuffer snd v => sockSetBuffer c snd v
    | .setKeepalive v => { c with so.keepalive := v }
    | .output => tcpOutput l.1 c
    | .input s => tcpInput l.1 c s
    | .timer which => tcpTimerExpire l.1 c which
    | .ctlinput error mtu => tcpCtlinput l.1 c error mtu

/-- A new socket, or the connection a SYN to a listener creates. The
listener's buffer sizes were set through `sockSetBuffer`. -/
inductive Init : Conn → Prop
  | attach (env : Env) (ipv6 v4Mapped : Bool) : Init (tcpAttachPcb env (sockAlloc ipv6 v4Mapped))
  | syn (env : Env) (lp c : Conn) (seg : TcpSeg) (v4Mapped : Bool) (isn : UInt32)
      (hl : lp.tp.state = .listen) (hs : lp.so.sndHiwat ≤ socketMaxBuffer) (hr : lp.so.rcvHiwat ≤ socketMaxBuffer)
      (h : tcpInputListen env lp seg v4Mapped isn = some c) : Init c

def system : LTS Conn (Env × Ev) := LTS.ofFn Init step

end Hermes.L3.Tcp
