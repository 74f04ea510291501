import Hermes.Core.Pieces
import Hermes.Core.QueueTable
import Hermes.L3Net.Packet

/-!
# IPv4 fragments

`ipv4_fragment` and `ipv4_reassemble` of `drivers/net/ipv4/ipv4.c`, with the header that `ipv4_output` puts before the
payload. A fragment is refused when it reaches beyond 65475 bytes, what is left of the longest datagram under the longest
header; a payload under a shorter header may be longer, and then its last fragment is always refused.
-/
namespace Hermes.L3

open QueueTable

abbrev ipv4HeaderLen : Nat := 20
abbrev ipv4MaxHeaderLen : Nat := 60
abbrev ipv4MaxDatagram : Nat := 65535
abbrev ipv4ReassembleMaxQueues : Nat := 16
abbrev ipv4ReassembleMaxFrags : Nat := 64

/-! ## Checksum -/

/-- `inet_sum_raw`: the sum of the 32-bit words, as the machine reads them -/
def inetSumRaw : Bytes → Nat
  | a :: b :: c :: d :: rest => a.toNat + 256 * b.toNat + 65536 * c.toNat + 16777216 * d.toNat + inetSumRaw rest
  | [a, b, c] => a.toNat + 256 * b.toNat + c.toNat
  | [a, b] => a.toNat + 256 * b.toNat
  | [a] => a.toNat
  | [] => 0

/-- `csum_fold` -/
def csumFold (s : Nat) : Nat :=
  let s := s % 2 ^ 32 + s / 2 ^ 32
  let s := s % 2 ^ 32 + s / 2 ^ 32
  let s := s % 65536 + s / 65536
  let s := s % 65536 + s / 65536
  let s := s % 65536 + s / 65536
  (s % 256 * 256 + s / 256) % 65536

/-- `inet_checksum` -/
def inetChecksum (nb : Bytes) : Nat := 65535 - csumFold (inetSumRaw nb)

/-- The header with its lengths, its fragment field and its checksum. -/
def finishHeader (hdr : Bytes) (totalLen fragOff : Nat) : Bytes :=
  let hdr := putBe16 (putBe16 (putBe16 hdr 2 totalLen) 6 fragOff) 10 0
  putBe16 hdr 10 (inetChecksum hdr)

/-! ## Output -/

/-- `struct in_addr`, in network order -/
structure InAddr where
  b0 : UInt8
  b1 : UInt8
  b2 : UInt8
  b3 : UInt8

def InAddr.bytes (a : InAddr) : Bytes := [a.b0, a.b1, a.b2, a.b3]

/-- `struct ipv4_options` -/
structure Ipv4Options where
  ttl : UInt8
  tos : UInt8
  options : Bytes

inductive Ipv4Error
  | einval
  | emsgsize
deriving DecidableEq

/-- The options, filled up to whole words. -/
def paddedOptions (opts : Option Ipv4Options) : Bytes :=
  let options := (opts.map Ipv4Options.options).getD []
  options ++ List.replicate ((options.length + 3) / 4 * 4 - options.length) 0

/-- The header that `ipv4_output_via` makes, without its length and checksum. -/
def outputHeader (opts : Option Ipv4Options) (id : Nat) (src dst : InAddr) (protocol : UInt8) : Bytes :=
  let headerLen := ipv4HeaderLen + (paddedOptions opts).length
  let tos := (opts.map Ipv4Options.tos).getD 0
  let ttl := (opts.map fun o => if o.ttl ≠ 0 then o.ttl else 64).getD 64
  [UInt8.ofNat (0x40 + headerLen / 4), tos, 0, 0, UInt8.ofNat (id / 256), UInt8.ofNat id, 0, 0, ttl, protocol, 0, 0] ++
    src.bytes ++ dst.bytes ++ paddedOptions opts

/-- The datagram that `ipv4_output_via` makes of a payload. With `IPV4_OUTPUT_RAW` it is the payload. -/
def ipv4Datagram (raw : Bool) (opts : Option Ipv4Options) (id : Nat) (src dst : InAddr) (protocol : UInt8) (nb : Bytes) :
    Except Ipv4Error Bytes :=
  if raw then (if nb.length < ipv4HeaderLen then .error .einval else .ok nb)
  else
    let headerLen := ipv4HeaderLen + (paddedOptions opts).length
    if ipv4MaxHeaderLen - ipv4HeaderLen < (paddedOptions opts).length ∨ ipv4MaxDatagram < nb.length + headerLen then
      .error .emsgsize
    else .ok (finishHeader (outputHeader opts id src dst protocol) (nb.length + headerLen) 0 ++ nb)

/-- The length that the header of a packet gives for itself. -/
def ipv4HeaderLenOf (nb : Bytes) : Nat := (byteAt nb 0).toNat % 16 * 4

/-- `frag_off & IPV4_OFFMASK`, in bytes -/
def ipv4Offset (nb : Bytes) : Nat := be16At nb 6 % 8192 * 8

/-- `frag_off & IPV4_MF` -/
def ipv4More (nb : Bytes) : Bool := be16At nb 6 / 8192 % 2 = 1

/-! ## Fragmenting -/

/-- The loop of `ipv4_copied_options`. -/
def copiedOptions : Nat → Bytes → Bytes
  | 0, _ => []
  | _, [] => []
  | n + 1, type :: rest =>
    if type = 0 then []
    else if type = 1 then copiedOptions n rest
    else match rest with
      | [] => []
      | olen :: _ =>
        if olen.toNat < 2 ∨ (type :: rest).length < olen.toNat then []
        else (if 0x80 ≤ type.toNat then (type :: rest).take olen.toNat else []) ++
          copiedOptions n ((type :: rest).drop olen.toNat)

/-- `ipv4_copied_options` -/
def ipv4CopiedOptions (opts : Bytes) : Bytes :=
  let out := copiedOptions opts.length opts
  out ++ List.replicate ((4 - out.length % 4) % 4) 0

/-- The header of a fragment with `chunk` bytes of data at `off`. -/
def fragHeader (h : Bytes) (orig off chunk : Nat) (last : Bool) : Bytes :=
  let mf := if last = false ∨ orig / 8192 % 2 = 1 then 8192 else 0
  finishHeader (h.set 0 (UInt8.ofNat (0x40 + h.length / 4))) (h.length + chunk) ((orig % 8192 + off / 8) ||| mf)

/-- The header of the first fragment, or that of the others. -/
def headerAt (hdr later : Bytes) (off : Nat) : Bytes := if off = 0 then hdr else later

/-- The loop of `ipv4_fragment`, with the data from `off` on; the first argument bounds its turns. -/
def fragmentLoop (hdr later : Bytes) (orig mtu : Nat) : Nat → Nat → Bytes → Option (List Bytes)
  | _, _, [] => some []
  | 0, _, _ :: _ => none
  | n + 1, off, x :: xs =>
    let data := x :: xs
    let h := headerAt hdr later off
    if mtu < h.length + 8 then none
    else
      let chunk := (mtu - h.length) / 8 * 8
      let piece := data.take chunk
      (fragmentLoop hdr later orig mtu n (off + piece.length) (data.drop chunk)).map fun rest =>
        (fragHeader h orig off piece.length (data.length ≤ chunk) ++ piece) :: rest

/-- `ipv4_fragment`, where the buffers it asks for are there -/
def ipv4Fragment (nb : Bytes) (mtu : Nat) : Option (List Bytes) :=
  let hdr := nb.take (ipv4HeaderLenOf nb)
  let later := hdr.take ipv4HeaderLen ++ ipv4CopiedOptions (hdr.drop ipv4HeaderLen)
  let data := nb.drop (ipv4HeaderLenOf nb)
  fragmentLoop hdr later (be16At nb 6) mtu data.length 0 data

/-! ## Reassembly -/

/-- What `ipv4_reassemble_find` compares: identification, protocol, source and destination. -/
def ipv4FragKey (nb : Bytes) : List UInt8 := [4, 5, 9, 12, 13, 14, 15, 16, 17, 18, 19].map (byteAt nb)

/-- `struct ipv4_frag` -/
structure Ipv4Frag where
  nb : Bytes
  offset : Nat
  len : Nat
deriving DecidableEq

/-- `struct ipv4_reassemble` -/
structure Ipv4Queue where
  frags : List Ipv4Frag
  nFrags : Nat
  totalLen : Nat

/-- Whether the two allocations of `ipv4_reassemble` succeed. -/
structure Ipv4Mem where
  queue : Bool
  frag : Bool
deriving DecidableEq

namespace Ipv4Queue

/-- `ipv4_reassemble_complete` -/
def complete (q : Ipv4Queue) : Option Bytes :=
  match q.frags with
  | [] => none
  | first :: rest =>
    if q.totalLen = 0 ∨ first.offset ≠ 0 then none
    else if endOf Ipv4Frag.offset Ipv4Frag.len 0 (first :: rest) ≠ some q.totalLen then none
    else if ipv4MaxDatagram < first.nb.length - first.len + q.totalLen then none
    else
      let head := ((first :: rest).map Ipv4Frag.nb).flatten
      let headerLen := ipv4HeaderLenOf head
      some (finishHeader (head.take headerLen) head.length 0 ++ head.drop headerLen)

/-- What becomes of a queue when a fragment arrives. -/
inductive Step
  | keep (q : Ipv4Queue)
  | drop
  | done (nb : Bytes)

/-- The fragment after the overlap with the one before it is cut off. -/
def trimFront (prev : Option Ipv4Frag) (f : Ipv4Frag) : Option Ipv4Frag :=
  match prev with
  | none => some f
  | some p =>
    if p.offset + p.len ≤ f.offset then some f
    else
      let overlap := p.offset + p.len - f.offset
      if f.len ≤ overlap ∨ f.offset = 0 then none else some ⟨f.nb.drop overlap, f.offset + overlap, f.len - overlap⟩

/-- And the overlap with the one after it. -/
def trimBack (next : Option Ipv4Frag) (f : Ipv4Frag) : Option Ipv4Frag :=
  match next with
  | none => some f
  | some n =>
    if f.offset + f.len ≤ n.offset then some f
    else
      let overlap := f.offset + f.len - n.offset
      if f.len ≤ overlap ∨ n.offset = f.offset then none
      else some { f with nb := f.nb.take (f.nb.length - overlap), len := f.len - overlap }

/-- The fragment joins the queue, or is dropped. -/
def accept (frag : Bool) (q : Ipv4Queue) (f : Ipv4Frag) : Step :=
  let before := q.frags.takeWhile fun c => c.offset < f.offset
  let after := q.frags.dropWhile fun c => c.offset < f.offset
  match (trimFront before.getLast? f).bind (trimBack after.head?) with
  | none => .keep q
  | some f' =>
    if frag = false then .keep q
    else
      let q' : Ipv4Queue := { q with frags := before ++ f' :: after, nFrags := q.nFrags + 1 }
      match q'.complete with
      | some nb => .done nb
      | none => .keep q'

/-- `ipv4_reassemble`, from where it has the queue -/
def step (frag : Bool) (q : Ipv4Queue) (f : Ipv4Frag) (more : Bool) : Step :=
  if more = false ∧ q.totalLen ≠ 0 ∧ q.totalLen ≠ f.offset + f.len then .drop
  else
    let q := if more then q else { q with totalLen := f.offset + f.len }
    if ipv4ReassembleMaxFrags ≤ q.nFrags then .drop else q.accept frag f

end Ipv4Queue

abbrev Ipv4Queues := QueueTable (List UInt8) Ipv4Queue

/-- What the table becomes when a fragment has arrived at the queue of the key `k`. -/
def Ipv4Queue.Step.settle (qs : Ipv4Queues) (k : List UInt8) : Ipv4Queue.Step → Option Bytes × Ipv4Queues
  | .keep q => (none, put qs k q)
  | .drop => (none, remove qs k)
  | .done whole => (some whole, remove qs k)

/-- The fragment of a packet, without its header except in the first. -/
def ipv4FragOf (nb : Bytes) : Ipv4Frag :=
  { nb := if ipv4Offset nb ≠ 0 then nb.drop (ipv4HeaderLenOf nb) else nb
    offset := ipv4Offset nb
    len := nb.length - ipv4HeaderLenOf nb }

/-- The check that `ipv4_reassemble` makes before it looks at its queues. -/
def ipv4Refuses (nb : Bytes) : Bool :=
  let f := ipv4FragOf nb
  (ipv4More nb && (f.len % 8 ≠ 0 || f.len = 0)) || ipv4MaxDatagram - ipv4MaxHeaderLen < f.offset + f.len

/-- `ipv4_reassemble` -/
def ipv4Reassemble (mem : Ipv4Mem) (qs : Ipv4Queues) (nb : Bytes) : Option Bytes × Ipv4Queues :=
  if ipv4Refuses nb then (none, qs)
  else
    let k := ipv4FragKey nb
    let found := lookup qs k
    let qs := room qs k ipv4ReassembleMaxQueues
    if found.isNone ∧ mem.queue = false then (none, qs)
    else ((found.getD ⟨[], 0, 0⟩).step mem.frag (ipv4FragOf nb) (ipv4More nb)).settle qs k

end Hermes.L3
