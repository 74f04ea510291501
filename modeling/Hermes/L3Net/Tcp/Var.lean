import Hermes.Core.Seq32

/-!
# TCP control block, socket and segment

The data of tcp.h, tcp_var.h and tcp_input.h, and of the parts of `struct socket` TCP reads. The names are the source's in
camel case. Conventions:

* `f.c:a-b` are lines of src/kernel/drivers/net/{tcp,socket}/f.c.
* `tcp_seq` and the `uint32_t` windows are `UInt32`; comparisons are the
  `SEQ_*` macros (`Seq32.lt` and friends).
* `t_flags` is one `Bool` field per `TF_*` bit that is ever set. A timer is
  `some ms` while its callout is pending.
* A socket buffer is the list of its bytes (`cc` is the length): the netbuf
  chain is only ever appended to at the tail and cut at the head.
* `inp->socket` is set once by `inpcb_alloc` and never cleared, so the
  `so ? .. : ..` guards of the source always take the first branch.
* `tp->cc` is `tcp_cc_newreno`, the only algorithm that is registered.
* `gone` says that `tcp_close` has run (`inp->ppcb == nullptr`): the block
  is freed and every later event finds no tcpcb.

`passes` records every pass of the loop in `tcp_output` (newest first), with
the control block and the socket it started from and the segment it sent;
`stream` records every byte `tcp_send` accepted, `unaPos` counts the sequence
numbers acknowledged so far (`snd_una - iss` without wrapping) and `changes`
records every state change. All of them are history only.
-/
namespace Hermes.L3.Tcp

open Hermes.Seq32

/-- tcp_var.h:10-22 -/
inductive TcpState
  | closed | listen | synSent | synReceived | established | closeWait | finWait1 | closing
  | lastAck | finWait2 | timeWait
deriving DecidableEq, Repr

/-- The numeric value of the enumerator, for `<` and `>=` on states. -/
def TcpState.rank : TcpState → Nat
  | .closed => 0 | .listen => 1 | .synSent => 2 | .synReceived => 3 | .established => 4
  | .closeWait => 5 | .finWait1 => 6 | .closing => 7 | .lastAck => 8 | .finWait2 => 9
  | .timeWait => 10

/-- `TCPS_HAVERCVDSYN`. -/
def TcpState.haveRcvdSyn (s : TcpState) : Bool := decide (TcpState.synReceived.rank ≤ s.rank)

/-- `TCPS_HAVEESTABLISHED`. -/
def TcpState.haveEstablished (s : TcpState) : Bool := decide (TcpState.established.rank ≤ s.rank)

/-- `TCPS_HAVERCVDFIN`. -/
def TcpState.haveRcvdFin : TcpState → Bool
  | .closeWait | .closing | .lastAck | .timeWait => true
  | _ => false

/-- tcp_var.h:24-31 -/
inductive TimerType | rexmt | persist | keep | msl2 | delack
deriving DecidableEq, Repr

/-- The `TH_*` bits TCP looks at. -/
structure ThFlags where
  fin : Bool
  syn : Bool
  rst : Bool
  push : Bool
  ack : Bool
deriving DecidableEq, Repr

def ThFlags.none : ThFlags := ⟨false, false, false, false, false⟩

/-- tcp.h:50-53 -/
structure SackBlock where
  start : UInt32
  stop : UInt32
deriving DecidableEq, Repr

/-- Parsed options; a `TOF_*` bit and the value it guards are one `Option`
(`nsacks` is the length of `sacks`, `TOF_SACK` its presence).
tcp_input.h:19-27 -/
structure TcpOpts where
  mss : Option Nat
  wscale : Option Nat
  sackperm : Bool
  ts : Option (UInt32 × UInt32)
  sacks : Option (List SackBlock)
deriving DecidableEq, Repr

def TcpOpts.empty : TcpOpts := ⟨.none, .none, false, .none, .none⟩

/-- A segment as it arrives, header in host order. -/
structure Segment where
  seq : UInt32
  ack : UInt32
  flags : ThFlags
  window : Nat
  opts : List UInt8
  data : List UInt8
deriving DecidableEq, Repr

/-- One queued out-of-order piece.
tcp_var.h:60-66 -/
structure ReassembleEntry where
  seq : UInt32
  len : UInt32
  fin : Bool
  data : List UInt8
deriving DecidableEq, Repr

/-- tcp_var.h:68-125 -/
structure Tcpcb where
  state : TcpState
  acknow : Bool
  delack : Bool
  nodelay : Bool
  noopt : Bool
  sentfin : Bool
  rcvdScale : Bool
  rcvdTstmp : Bool
  sackPermit : Bool
  fastrecovery : Bool
  needfin : Bool
  forcedata : Bool
  tRexmt : Option Nat
  tPersist : Option Nat
  tKeep : Option Nat
  t2msl : Option Nat
  tDelack : Option Nat
  rexmtShift : Nat
  sndUna : UInt32
  sndNxt : UInt32
  sndMax : UInt32
  sndWl1 : UInt32
  sndWl2 : UInt32
  iss : UInt32
  sndWnd : UInt32
  sndScale : Nat
  rcvNxt : UInt32
  irs : UInt32
  rcvWnd : UInt32
  rcvAdv : UInt32
  rcvScale : Nat
  reqRcvScale : Nat
  lastAckSent : UInt32
  sndCwnd : UInt32
  sndSsthresh : UInt32
  sndRecover : UInt32
  dupacks : UInt32
  srtt : Int
  rttvar : Int
  rto : Nat
  rttStart : Nat
  rttSeq : UInt32
  tsRecent : UInt32
  tsRecentAge : Nat
  mss : Nat
  peerMss : Nat
  reassembleQueue : List ReassembleEntry
  reassembleLen : UInt32
  sackBlocks : List SackBlock
  sackRxmit : UInt32
  sackRexmitBytes : UInt32
  tRcvtime : Nat
  keepProbes : Nat
  tSofterror : Nat
deriving DecidableEq, Repr

/-- The part of `struct socket` and of its inpcb that TCP uses: the two
buffers, the `SS_*` bits, and `INPCB_DETACHED`, `INPCB_IPV6` and the
address family of the peer. -/
structure Sock where
  snd : List UInt8
  sndHiwat : Nat
  rcv : List UInt8
  rcvHiwat : Nat
  isConnected : Bool
  isConnecting : Bool
  isDisconnecting : Bool
  cantSendMore : Bool
  cantRcvMore : Bool
  error : Nat
  linger : Int
  keepalive : Bool
  embryonic : Bool
  detached : Bool
  ipv6 : Bool
  v4Mapped : Bool
deriving DecidableEq, Repr

/-- One pass of `tcp_output_once`: what it started from, how many bytes of
the stream had left the buffer and how many sequence numbers were
acknowledged by then, and what it sent. -/
structure Pass where
  tp : Tcpcb
  so : Sock
  base : Nat
  unaPos : Nat
  seg : Option Segment
deriving DecidableEq, Repr

/-- One `tcp_state_change`, with what was acknowledged and sent by then.
`reset`: it is the one of `tcp_drop`, which sends a reset. -/
structure Change where
  old : TcpState
  new : TcpState
  reset : Bool
  unaPos : Nat
  passes : List Pass
deriving DecidableEq, Repr

structure Conn where
  tp : Tcpcb
  so : Sock
  gone : Bool
  /-- history: the passes of `tcp_output`, newest first -/
  passes : List Pass
  /-- history: segments sent by `tcp_respond`, newest first -/
  responds : List Segment
  /-- history: every byte `tcp_send` has accepted -/
  stream : List UInt8
  /-- history: how many sequence numbers have been acknowledged -/
  unaPos : Nat
  /-- history: the changes of `tp->state`, newest first -/
  changes : List Change
deriving DecidableEq, Repr

/-- What the code asks its surroundings during one event: `tcp_now_ms()`,
`ticks_hz()`, the MTU of the route to the peer (1500 without one), whether
`netbuf_alloc_cluster` succeeds in the pass with a given number, and whether
`netbuf_alloc` does for a given `tcp_respond`, the reassembly `malloc` and
the sockets and control blocks of a new connection. -/
structure Env where
  now : Nat
  hz : Nat
  mtu : Nat
  alloc : Nat → Bool
  allocRespond : Nat → Bool
  allocEntry : Bool

/-- `tcp_now_ms() - t` in 64 bits. -/
def Env.since (env : Env) (t : Nat) : Nat := (env.now + 2 ^ 64 - t) % 2 ^ 64

/-! ## Constants -/

def tcpHeaderLen : Nat := 20
def tcpMaxHeaderLen : Nat := 60
def tcpDefaultMss : Nat := 536
def tcpDefaultMss6 : Nat := 1220
def tcpMaxWinshift : Nat := 14
def tcpMaxSack : Nat := 4
def tcpSackScoreboard : Nat := 8
def tcpMaxwin : Nat := 65535
def tcpCwndMax : UInt32 := 1073741824
def tcpRtoMinMs : Nat := 1000
def tcpRtoMaxMs : Nat := 60000
def tcpRtoInitialMs : Nat := 1000
def tcpMaxrxtshift : Nat := 12
def tcpDelackMs : Nat := 100
def tcpMslMs : Nat := 30000
def tcpKeepinitMs : Nat := 75000
def tcpKeepidleMs : Nat := 7200000
def tcpKeepintvlMs : Nat := 75000
def tcpKeepcnt : Nat := 8
def tcpPersminMs : Nat := 5000
def tcpPersmaxMs : Nat := 60000
def tcpPawsIdleMs : Nat := 24 * 24 * 60 * 60 * 1000
def ipv4HeaderLen : Nat := 20
def ipv6HeaderLen : Nat := 40
def sockbufDefaultSize : Nat := 65536
def socketMaxBuffer : Nat := 4194304
/-- `NETBUF_CLUSTER_SIZE - NETBUF_HEADROOM - TCP_MAX_HEADER_LEN`. -/
def tcpMaxPayloadBytes : Nat := 2048 - 64 - 60
def econnrefused : Nat := 111
def econnreset : Nat := 104
def econnaborted : Nat := 103
def etimedout : Nat := 110

/-! ## Timers -/

def Tcpcb.timer (tp : Tcpcb) : TimerType → Option Nat
  | .rexmt => tp.tRexmt
  | .persist => tp.tPersist
  | .keep => tp.tKeep
  | .msl2 => tp.t2msl
  | .delack => tp.tDelack

def Tcpcb.setTimer (tp : Tcpcb) (which : TimerType) (v : Option Nat) : Tcpcb :=
  match which with
  | .rexmt => { tp with tRexmt := v }
  | .persist => { tp with tPersist := v }
  | .keep => { tp with tKeep := v }
  | .msl2 => { tp with t2msl := v }
  | .delack => { tp with tDelack := v }

/-- tcp_timer.c:31-34 -/
def tcpTimerActivate (c : Conn) (which : TimerType) (ms : Nat) : Conn := { c with tp := c.tp.setTimer which (some ms) }

/-- tcp_timer.c:36-39 -/
def tcpTimerStop (c : Conn) (which : TimerType) : Conn := { c with tp := c.tp.setTimer which none }

/-- tcp_timer.c:41-45 -/
def tcpTimerStopAll (c : Conn) : Conn :=
  { c with tp.tRexmt := none, tp.tPersist := none, tp.tKeep := none, tp.t2msl := none,
           tp.tDelack := none }

/-- tcp_timer.c:94-97 -/
def tcpTimerActive (tp : Tcpcb) (which : TimerType) : Bool := (tp.timer which).isSome

/-- tcp_timer.c:25-29 -/
def tcpRexmtMs (tp : Tcpcb) : Nat := min (tp.rto <<< tp.rexmtShift) tcpRtoMaxMs

/-! ## Socket buffers and socket state -/

/-- sockbuf.c:169-172 -/
def sockbufSpace (sb : List UInt8) (hiwat : Nat) : Nat :=
  if sb.length < hiwat then hiwat - sb.length else 0

/-- sockbuf.c:174-193 -/
def sockbufCopy (sb : List UInt8) (offset len : Nat) : List UInt8 := (sb.drop offset).take len

/-- sockbuf.c:110-150 -/
def sockbufDrop (sb : List UInt8) (len : Nat) : List UInt8 := sb.drop len

/-- socket.c:621-625 -/
def sockIsConnecting (so : Sock) : Sock :=
  { so with isConnected := false, isDisconnecting := false, isConnecting := true }

/-- The socket also leaves its listener's incomplete queue, so it is no
longer embryonic.
socket.c:627-650 -/
def sockIsConnected (so : Sock) : Sock :=
  { so with isConnecting := false, isDisconnecting := false, isConnected := true,
            embryonic := so.embryonic && so.isConnected }

/-- socket.c:652-657 -/
def sockIsDisconnecting (so : Sock) : Sock :=
  { so with isConnecting := false, isDisconnecting := true, cantRcvMore := true,
            cantSendMore := true }

/-- socket.c:659-666 -/
def sockIsDisconnected (so : Sock) : Sock :=
  { so with isConnecting := false, isConnected := false, isDisconnecting := false,
            cantRcvMore := true, cantSendMore := true }

/-- socket.c:685-690 -/
def sockCantSendMore (so : Sock) : Sock := { so with cantSendMore := true }

/-- socket.c:692-697 -/
def sockCantRecvMore (so : Sock) : Sock := { so with cantRcvMore := true }

end Hermes.L3.Tcp
