import Hermes.L3Net.Tcp.Var

/-!
# SACK scoreboard and TCP options

`tcp_sack.c` works on an array of `TCP_SACK_SCOREBOARD` blocks and a count;
here it is the list of its first `sack_count` blocks. The merge loop carries
the index as the split of that list into the blocks it has passed and the
blocks it has not reached.

The option codec of tcp_input.c (`tcp_dooptions`) and tcp_output.c
(`tcp_addoptions`) is here too: the encoded length is what `tcp_output`
subtracts from the MSS.
-/
namespace Hermes.L3.Tcp

open Hermes.Seq32

/-! ## Scoreboard -/

/-- tcp_sack.c:10-21 -/
def tcpSackInsertAt (blocks : List SackBlock) (i : Nat) (b : SackBlock) : List SackBlock :=
  if blocks.length = tcpSackScoreboard then
    if i = tcpSackScoreboard then blocks else blocks.dropLast.insertIdx i b
  else blocks.insertIdx i b

/-- `b` widened to cover `cur`. -/
def SackBlock.absorb (b cur : SackBlock) : SackBlock :=
  { start := if lt cur.start b.start then cur.start else b.start,
    stop := if gt cur.stop b.stop then cur.stop else b.stop }

/-- The loop of `tcp_sack_merge`: `pre` is `sack_blocks[0..i)`, the second
list `sack_blocks[i..sack_count)`.
tcp_sack.c:25-39 -/
def tcpSackMergeLoop (pre : List SackBlock) : List SackBlock → SackBlock → List SackBlock × List SackBlock × SackBlock
  | [], b => (pre, [], b)
  | cur :: rest, b =>
    if lt cur.stop b.start then tcpSackMergeLoop (pre ++ [cur]) rest b
    else if gt cur.start b.stop then (pre, cur :: rest, b)
    else tcpSackMergeLoop pre rest (b.absorb cur)

/-- tcp_sack.c:23-41 -/
def tcpSackMerge (blocks : List SackBlock) (b : SackBlock) : List SackBlock :=
  let r := tcpSackMergeLoop [] blocks b
  tcpSackInsertAt (r.1 ++ r.2.1) r.1.length r.2.2

/-- One block of an incoming SACK option.
tcp_sack.c:46-51 -/
def tcpSackUpdateOne (una max : UInt32) (blocks : List SackBlock) (b : SackBlock) : List SackBlock :=
  if leq b.stop b.start || leq b.stop una || gt b.stop max then blocks
  else tcpSackMerge blocks { b with start := if lt b.start una then una else b.start }

/-- tcp_sack.c:43-53 -/
def tcpSackUpdate (c : Conn) (blocks : List SackBlock) : Conn :=
  { c with tp.sackBlocks :=
      blocks.foldl (tcpSackUpdateOne c.tp.sndUna c.tp.sndMax) c.tp.sackBlocks }

/-- The blocks left once everything before `ack` is acknowledged.
tcp_sack.c:57-60 -/
def tcpSackTrim (ack : UInt32) : List SackBlock → List SackBlock
  | [] => []
  | b :: rest =>
    if leq b.stop ack then tcpSackTrim ack rest
    else (if lt b.start ack then { b with start := ack } else b) :: rest

/-- tcp_sack.c:55-63 -/
def tcpSackAck (c : Conn) (ack : UInt32) : Conn :=
  { c with tp.sackBlocks := tcpSackTrim ack c.tp.sackBlocks,
           tp.sackRxmit := if lt c.tp.sackRxmit ack then ack else c.tp.sackRxmit }

/-- tcp_sack.c:65-70 -/
def tcpSackClear (c : Conn) : Conn :=
  { c with tp.sackBlocks := [], tp.sackRxmit := c.tp.sndUna, tp.sackRexmitBytes := 0 }

/-- tcp_sack.c:72-78 -/
def tcpSackBytes (tp : Tcpcb) : UInt32 := tp.sackBlocks.foldl (fun bytes b => bytes + (b.stop - b.start)) 0

/-- tcp_sack.c:80-83 -/
def tcpSackPipe (tp : Tcpcb) : UInt32 := tp.sndMax - tp.sndUna - tcpSackBytes tp + tp.sackRexmitBytes

/-- The search loop of `tcp_sack_next_hole` from `start` on.
tcp_sack.c:88-98 -/
def tcpSackHoleFrom (start : UInt32) : List SackBlock → Option (UInt32 × UInt32)
  | [] => none
  | b :: rest =>
    if lt start b.start then some (start, b.start - start)
    else tcpSackHoleFrom (if lt start b.stop then b.stop else start) rest

/-- tcp_sack.c:85-99 -/
def tcpSackNextHole (tp : Tcpcb) : Option (UInt32 × UInt32) :=
  tcpSackHoleFrom (if gt tp.sackRxmit tp.sndUna then tp.sackRxmit else tp.sndUna) tp.sackBlocks

/-- The blocks of our own SACK option, last one first in `out`.
tcp_sack.c:101-117 -/
def tcpSackBuildBlocks (max : Nat) : List SackBlock → List ReassembleEntry → List SackBlock
  | out, [] => out.reverse
  | out, e :: rest =>
    if e.len = 0 then tcpSackBuildBlocks max out rest
    else
      match out with
      | last :: out' =>
        if last.stop = e.seq then
          tcpSackBuildBlocks max ({ last with stop := e.seq + e.len } :: out') rest
        else if out.length = max then out.reverse
        else tcpSackBuildBlocks max (⟨e.seq, e.seq + e.len⟩ :: out) rest
      | [] =>
        if max = 0 then [] else tcpSackBuildBlocks max [⟨e.seq, e.seq + e.len⟩] rest

/-! ## Option codec -/

/-- tcp_output.c:39-44 -/
def tcpPut16 (v : Nat) : List UInt8 := [UInt8.ofNat (v >>> 8), UInt8.ofNat v]

/-- tcp_output.c:46-49 -/
def tcpPut32 (v : UInt32) : List UInt8 := tcpPut16 (v.toNat >>> 16) ++ tcpPut16 v.toNat

/-- tcp_output.c:51-58 -/
def tcpPutOptHeader (kind len : Nat) : List UInt8 := [1, 1, UInt8.ofNat kind, UInt8.ofNat len]

/-- The SACK option in the room the other options leave.
tcp_output.c:81-91 -/
def tcpPutSacks (used : Nat) (sacks : List SackBlock) : List UInt8 :=
  let n := min sacks.length ((tcpMaxHeaderLen - tcpHeaderLen - used - 4) / 8)
  if n = 0 then []
  else tcpPutOptHeader 5 (2 + 8 * n) ++
    (sacks.take n).flatMap fun b => tcpPut32 b.start ++ tcpPut32 b.stop

/-- tcp_output.c:60-93 -/
def tcpAddoptions (o : TcpOpts) : List UInt8 :=
  let p := (match o.mss with | some m => [2, 4] ++ tcpPut16 m | none => []) ++
    (match o.wscale with | some w => [1, 3, 3, UInt8.ofNat w] | none => []) ++
    (if o.sackperm then tcpPutOptHeader 4 2 else []) ++
    (match o.ts with
      | some (v, e) => tcpPutOptHeader 8 10 ++ tcpPut32 v ++ tcpPut32 e
      | none => [])
  match o.sacks with
  | some s => p ++ tcpPutSacks p.length s
  | none => p

/-- tcp_input.c:32-35 -/
def tcpGet16 (p : List UInt8) : Nat := (p.getD 0 0).toNat * 256 + (p.getD 1 0).toNat

/-- tcp_input.c:37-40 -/
def tcpGet32 (p : List UInt8) : UInt32 := UInt32.ofNat (tcpGet16 p * 65536 + tcpGet16 (p.drop 2))

/-- What one option of `optlen` bytes at `cp` adds to `o`.
tcp_input.c:69-87 -/
def tcpDoOption (isSyn : Bool) (cp : List UInt8) (kind optlen : Nat) (o : TcpOpts) : TcpOpts :=
  if kind = 2 ∧ optlen = 4 ∧ isSyn then { o with mss := some (tcpGet16 (cp.drop 2)) }
  else if kind = 3 ∧ optlen = 3 ∧ isSyn then
    { o with wscale := some (min (cp.getD 2 0).toNat tcpMaxWinshift) }
  else if kind = 4 ∧ optlen = 2 ∧ isSyn then { o with sackperm := true }
  else if kind = 8 ∧ optlen = 10 then
    { o with ts := some (tcpGet32 (cp.drop 2), tcpGet32 (cp.drop 6)) }
  else if kind = 5 ∧ 10 ≤ optlen ∧ (optlen - 2) % 8 = 0 ∧ !isSyn then
    { o with sacks := some ((List.range (min ((optlen - 2) / 8) tcpMaxSack)).map fun i =>
        ⟨tcpGet32 (cp.drop (2 + 8 * i)), tcpGet32 (cp.drop (6 + 8 * i))⟩) }
  else o

/-- The option loop; every round consumes at least one byte, so the number
of bytes bounds the rounds.
tcp_input.c:56-91 -/
def tcpDooptionsLoop (isSyn : Bool) : Nat → List UInt8 → TcpOpts → TcpOpts
  | 0, _, o => o
  | _, [], o => o
  | fuel + 1, kind :: rest, o =>
    if kind = 0 then o
    else if kind = 1 then tcpDooptionsLoop isSyn fuel rest o
    else
      match rest with
      | [] => o
      | optlen :: _ =>
        if optlen.toNat < 2 ∨ rest.length + 1 < optlen.toNat then o
        else tcpDooptionsLoop isSyn fuel ((kind :: rest).drop optlen.toNat)
          (tcpDoOption isSyn (kind :: rest) kind.toNat optlen.toNat o)

/-- tcp_input.c:53-92 -/
def tcpDooptions (cp : List UInt8) (isSyn : Bool) : TcpOpts := tcpDooptionsLoop isSyn cp.length cp TcpOpts.empty

end Hermes.L3.Tcp
