import Hermes.Core.Pieces
import Hermes.Core.QueueTable
import Hermes.L3Net.Packet

/-!
# IPv6 fragments

`ipv6_fragment` and `ipv6_reassemble` of `drivers/net/ipv6/ipv6.c`. The part of a packet before its fragment header is
repeated in every fragment; reassembly takes it from the first. What is checked against 65535 is the fragmentable part
alone: with extension headers before it the packet can be longer than its length field can say.
-/
namespace Hermes.L3

open QueueTable

abbrev ipv6HeaderLen : Nat := 40
abbrev ipv6MaxPayload : Nat := 65535
abbrev ipv6MaxUnfrag : Nat := 256
abbrev ipv6ReassembleMaxQueues : Nat := 16
abbrev ipv6ReassembleMaxFrags : Nat := 64
/-- `NETBUF_CLUSTER_SIZE - NETBUF_HEADROOM` -/
abbrev ipv6MaxFragment : Nat := 1984
abbrev nhHopopts : UInt8 := 0
abbrev nhRouting : UInt8 := 43
abbrev nhFragment : UInt8 := 44

/-- The length of the extension header at `off`. -/
def extLen (nb : Bytes) (off : Nat) : Nat := ((byteAt nb (off + 1)).toNat + 1) * 8

/-! ## Fragmenting -/

/-- The loop of `ipv6_unfrag_len`: where the fragmentable part starts, and where the next header before it is named. Each
turn goes on by at least eight bytes, so that no more turns are taken than the packet has bytes. -/
def unfragLoop (nb : Bytes) : Nat → UInt8 → Nat → Nat → Nat × Nat
  | 0, _, off, prev => (off, prev)
  | n + 1, nh, off, prev =>
    if (nh = nhHopopts ∨ nh = nhRouting) ∧ off + 2 ≤ nb.length then
      unfragLoop nb n (byteAt nb off) (off + extLen nb off) off
    else (off, prev)

/-- `ipv6_unfrag_len` -/
def ipv6UnfragLen (nb : Bytes) : Nat × Nat := unfragLoop nb nb.length (byteAt nb 6) ipv6HeaderLen 6

/-- The bytes of the fragment header. -/
def ipv6FragHeader (nextHeader : UInt8) (offsetFlags : Nat) (id : Bytes) : Bytes :=
  putBe16 [nextHeader, 0, 0, 0] 2 offsetFlags ++ id

/-- One fragment, with the data `piece` at `off`. -/
def ipv6FragmentAt (hdr : Bytes) (nextHeader : UInt8) (id : Bytes) (off : Nat) (piece : Bytes) (more : Bool) : Bytes :=
  putBe16 hdr 4 (hdr.length - ipv6HeaderLen + 8 + piece.length) ++
    ipv6FragHeader nextHeader (off ||| if more then 1 else 0) id ++ piece

/-- The loop of `ipv6_fragment`, with the data from `off` on; the first argument bounds its turns. -/
def ipv6FragmentLoop (hdr : Bytes) (nextHeader : UInt8) (id : Bytes) (chunk : Nat) : Nat → Nat → Bytes → List Bytes
  | _, _, [] => []
  | 0, _, _ :: _ => []
  | n + 1, off, x :: xs =>
    let data := x :: xs
    ipv6FragmentAt hdr nextHeader id off (data.take chunk) (chunk < data.length) ::
      ipv6FragmentLoop hdr nextHeader id chunk n (off + chunk) (data.drop chunk)

/-- How much data a fragment takes. -/
def ipv6Chunk (mtu unfrag : Nat) : Nat := if unfrag + 8 < mtu then (mtu - unfrag - 8) / 8 * 8 else 0

/-- `ipv6_fragment`, where the buffers it asks for are there. A packet that ends inside its extension headers would need
more buffers than there are. -/
def ipv6Fragment (nb : Bytes) (mtu : Nat) (id : Bytes) : Option (List Bytes) :=
  let (unfrag, prev) := ipv6UnfragLen nb
  let chunk := ipv6Chunk mtu unfrag
  if chunk = 0 ∨ ipv6MaxUnfrag < unfrag ∨ ipv6MaxFragment < mtu ∨ nb.length < unfrag then none
  else
    let hdr := (nb.take unfrag).set prev nhFragment
    let data := nb.drop unfrag
    some (ipv6FragmentLoop hdr (byteAt nb prev) id chunk data.length 0 data)

/-! ## Reassembly -/

/-- A packet that arrives, with the place of its fragment header. -/
structure Ipv6Input where
  nb : Bytes
  fragOffset : Nat
deriving DecidableEq

namespace Ipv6Input

variable (a : Ipv6Input)

/-- `ntohs(fh.offset_flags)` -/
def offsetFlags : Nat := be16At a.nb (a.fragOffset + 2)

def offset : Nat := a.offsetFlags / 8 * 8

def more : Bool := a.offsetFlags % 2 = 1

/-- The data behind the fragment header. -/
def data : Bytes := a.nb.drop (a.fragOffset + 8)

def len : Nat := a.data.length

/-- What `ipv6_reassemble_find` compares: source, destination and identification. -/
def key : List UInt8 :=
  (List.range 32).map (fun i => byteAt a.nb (8 + i)) ++ (List.range 4).map fun i => byteAt a.nb (a.fragOffset + 4 + i)

end Ipv6Input

/-- The loop of `ipv6_find_prev_nh`. -/
def prevNhLoop (nb : Bytes) (target : Nat) : Nat → Nat → Nat → Option Nat
  | 0, off, field => if off = target then some field else none
  | n + 1, off, field =>
    if off < target then prevNhLoop nb target n (off + extLen nb off) off
    else if off = target then some field else none

/-- `ipv6_find_prev_nh` -/
def ipv6FindPrevNh (nb : Bytes) (target : Nat) : Option Nat := prevNhLoop nb target target ipv6HeaderLen 6

/-- `struct ipv6_frag` -/
structure Ipv6Frag where
  nb : Bytes
  offset : Nat
  len : Nat
deriving DecidableEq

/-- `struct ipv6_reassemble`; the unfragmentable part is empty until the first fragment has arrived. -/
structure Ipv6Queue where
  frags : List Ipv6Frag
  nFrags : Nat
  totalLen : Nat
  unfrag : Bytes
  prevNh : Nat
  nextHeader : UInt8

/-- Whether the three allocations of `ipv6_reassemble` succeed. -/
structure Ipv6Mem where
  queue : Bool
  frag : Bool
  head : Bool
deriving DecidableEq

namespace Ipv6Queue

variable (q : Ipv6Queue)

def empty : Ipv6Queue := ⟨[], 0, 0, [], 0, 0⟩

/-- The unfragmentable part as it is put before the data. -/
def patched : Bytes := putBe16 (q.unfrag.set q.prevNh q.nextHeader) 4 (q.unfrag.length - ipv6HeaderLen + q.totalLen)

/-- `ipv6_reassemble_complete` -/
def complete (head : Bool) : Option Bytes × Ipv6Queue :=
  if q.unfrag = [] ∨ q.totalLen = 0 then (none, q)
  else if endOf Ipv6Frag.offset Ipv6Frag.len 0 q.frags ≠ some q.totalLen then (none, q)
  else if head = false then (none, { q with unfrag := q.patched })
  else (some (q.patched ++ (q.frags.map Ipv6Frag.nb).flatten), { q with unfrag := q.patched })

/-- The queue with the total length that a fragment gives. -/
def withTotal (a : Ipv6Input) : Ipv6Queue := if a.more then q else { q with totalLen := a.offset + a.len }

/-- The fragment does not go with those in the queue. -/
def bad (a : Ipv6Input) : Bool :=
  let total := (q.withTotal a).totalLen
  ipv6ReassembleMaxFrags ≤ q.nFrags || (!a.more && q.totalLen ≠ 0 && q.totalLen ≠ a.offset + a.len) ||
    (q.frags.any fun f => (a.offset < f.offset + f.len && f.offset < a.offset + a.len) ||
      (total ≠ 0 && total < f.offset + f.len)) ||
    (total ≠ 0 && total < a.offset + a.len)

/-- The queue with what only the first fragment brings. -/
def withFirst (a : Ipv6Input) (prevNh : Nat) : Ipv6Queue :=
  if a.offset = 0 then
    { q with unfrag := a.nb.take a.fragOffset, prevNh := prevNh, nextHeader := byteAt a.nb a.fragOffset }
  else q

/-- The queue with the fragment. -/
def withFrag (a : Ipv6Input) (prevNh : Nat) : Ipv6Queue :=
  let q := (q.withTotal a).withFirst a prevNh
  { q with frags := insertPiece Ipv6Frag.offset ⟨a.data, a.offset, a.len⟩ q.frags, nFrags := q.nFrags + 1 }

end Ipv6Queue

abbrev Ipv6Queues := QueueTable (List UInt8) Ipv6Queue

/-- The checks that `ipv6_reassemble` makes before it looks at its queues, and the place of the next header. -/
def ipv6Accepts (a : Ipv6Input) : Option Nat :=
  if a.nb.length < a.fragOffset + 8 then none
  else if a.more ∧ (a.len = 0 ∨ a.len % 8 ≠ 0) then none
  else if ipv6MaxPayload < a.offset + a.len then none
  else if ipv6MaxUnfrag < a.fragOffset then none
  else if a.offset = 0 then ipv6FindPrevNh a.nb a.fragOffset else some 0

/-- `ipv6_reassemble` -/
def ipv6Reassemble (mem : Ipv6Mem) (qs : Ipv6Queues) (a : Ipv6Input) : Option Bytes × Ipv6Queues :=
  match ipv6Accepts a with
  | none => (none, qs)
  | some prevNh =>
    let found := lookup qs a.key
    let qs := room qs a.key ipv6ReassembleMaxQueues
    if found.isNone ∧ mem.queue = false then (none, qs)
    else
      let q := found.getD .empty
      if q.bad a ∨ mem.frag = false then (none, remove qs a.key)
      else
        let r := (q.withFrag a prevNh).complete mem.head
        if r.1.isSome then (r.1, remove qs a.key) else (none, put qs a.key r.2)

/-- A packet that arrives, and the memory there is for it. -/
structure Ipv6Arrival extends Ipv6Input where
  mem : Ipv6Mem

/-- The queues after packets have arrived. -/
def ipv6Run (qs : Ipv6Queues) (as : List Ipv6Arrival) : Ipv6Queues :=
  as.foldl (fun qs a => (ipv6Reassemble a.mem qs a.toIpv6Input).2) qs

/-- The packets that `ipv6_reassemble` returns for fragments with the key `k`. -/
def ipv6Delivered (k : List UInt8) : Ipv6Queues → List Ipv6Arrival → List Bytes
  | _, [] => []
  | qs, a :: as =>
    let r := ipv6Reassemble a.mem qs a.toIpv6Input
    (if a.key = k then r.1.toList else []) ++ ipv6Delivered k r.2 as

end Hermes.L3
