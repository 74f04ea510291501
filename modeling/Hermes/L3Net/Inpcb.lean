import Hermes.Core.Buckets
import Hermes.Core.LTS

/-!
# Internet protocol control blocks

The table of `drivers/net/inpcb/inpcb.c`: the ports and addresses of all sockets of one protocol, hashed by local port
and by the whole 4-tuple. `inpcb_connect` on a block without a port looks for one before the foreign address is set, and
with `SO_REUSEADDR` the ports of connected blocks count as free: two blocks can get one 4-tuple.
-/
namespace Hermes.L3

open Option

/-- `struct in6_addr`, as four words in network order. -/
structure In6Addr where
  w0 : UInt32
  w1 : UInt32
  w2 : UInt32
  w3 : UInt32
deriving DecidableEq

namespace In6Addr

def any : In6Addr := ⟨0, 0, 0, 0⟩

/-- `inpcb_addr_is_any` -/
def isAny (a : In6Addr) : Bool := a.w0 ||| a.w1 ||| a.w2 ||| a.w3 = 0

lemma any_isAny : any.isAny = true := by decide

/-- `inpcb_map_v4` -/
def mapV4 (v4 : UInt32) : In6Addr := ⟨0, 0, if v4 ≠ 0 then 0xFFFF0000 else 0, v4⟩

/-- `inpcb_is_v4_mapped` -/
def isV4Mapped (a : In6Addr) : Bool := a.w0 = 0 && a.w1 = 0 && a.w2 = 0xFFFF0000

/-- `in6addr_loopback` -/
def loopback : In6Addr := ⟨0, 0, 0, 0x01000000⟩

end In6Addr

/-- `htons` and `ntohs` -/
def htons (x : UInt16) : UInt16 := x <<< 8 ||| x >>> 8

abbrev inpcbHashSize : Nat := 128
abbrev inpcbPortFirst : UInt32 := 49152
abbrev inpcbPortRange : Nat := 16384

/-- `inpcb_port_hash` -/
def inpcbPortHash (lport : UInt16) : Nat := (htons lport).toNat % inpcbHashSize

/-- Foreign address and port, local address and port. -/
structure Tuple where
  faddr : In6Addr
  fport : UInt16
  laddr : In6Addr
  lport : UInt16
deriving DecidableEq

lemma Tuple.fields_eq {x y : Tuple} (h : x = y) :
    x.faddr = y.faddr ∧ x.fport = y.fport ∧ x.laddr = y.laddr ∧ x.lport = y.lport := by
  subst h
  exact ⟨rfl, rfl, rfl, rfl⟩

/-- `inpcb_hash` -/
def inpcbHash (x : Tuple) : Nat :=
  let turn (h f l : UInt32) : UInt32 := (h ^^^ f ^^^ l) * 0x9E3779B1
  let h := x.fport.toUInt32 <<< 16 ||| x.lport.toUInt32
  let h := turn h x.faddr.w0 x.laddr.w0
  let h := turn h x.faddr.w1 x.laddr.w1
  let h := turn h x.faddr.w2 x.laddr.w2
  let h := turn h x.faddr.w3 x.laddr.w3
  (h >>> 16).toNat % inpcbHashSize

/-- `struct inpcb`, with the one socket option it reads. -/
structure Inpcb extends Tuple where
  ipv6 : Bool
  ipv6Only : Bool
  reusePort : Bool
  inHash : Bool
  /-- `SO_REUSEADDR` of its socket -/
  reuseAddr : Bool
deriving DecidableEq

/-- `struct inpcb_table`. A block is known by its address. -/
structure InpcbTable where
  pcbs : Nat → Option Inpcb
  hash : Nat → List Nat
  portHash : Nat → List Nat

inductive InpcbError
  | einval
  | eafnosupport
  | eaddrnotavail
  | eaddrinuse
  | ehostunreach
deriving DecidableEq

/-- A socket address a process passes in; `short` is one of another family, or too short for its own. -/
inductive SockAddr
  | inet (addr : UInt32) (port : UInt16)
  | inet6 (addr : In6Addr) (port : UInt16)
  | short

/-- What the rest of the stack answers during a call: the addresses that are local, the sources routes choose, and the
random number that the search for a port starts from. -/
structure InpcbEnv where
  local4 : UInt32 → Bool
  local6 : In6Addr → Bool
  source4 : UInt32 → UInt32
  source6 : In6Addr → Option In6Addr
  offset : UInt32

/-- `inpcb_addr_is_local` -/
def InpcbEnv.isLocal (env : InpcbEnv) (a : In6Addr) : Bool :=
  if a.isAny then true else if a.isV4Mapped then env.local4 a.w3 else env.local6 a

/-- `inpcb_select_source` -/
def InpcbEnv.selectSource (env : InpcbEnv) (dst : In6Addr) : Except InpcbError In6Addr :=
  if dst.isV4Mapped then
    if env.source4 dst.w3 = 0 then .error .ehostunreach else .ok (.mapV4 (env.source4 dst.w3))
  else
    match env.source6 dst with
    | none => .error .ehostunreach
    | some a => .ok a

namespace Inpcb

variable (p : Inpcb)

/-- `inpcb_sockaddr_to_in6` -/
def sockaddrToIn6 : SockAddr → Except InpcbError (In6Addr × UInt16)
  | .inet a port => if p.ipv6 then .error .eafnosupport else .ok (.mapV4 a, port)
  | .inet6 a port =>
    if p.ipv6 = false then .error .eafnosupport
    else if a.isV4Mapped ∧ p.ipv6Only then .error .eafnosupport
    else .ok (a, port)
  | .short => .error .einval

/-- `inpcb_default_faddr` -/
def defaultFaddr (faddr : In6Addr) : In6Addr :=
  if faddr.isAny = false then faddr else if p.ipv6 then .loopback else .mapV4 0x0100007F

/-- `inpcb_families_collide` -/
def familiesCollide (q : Inpcb) : Bool := (!p.ipv6Only && !q.ipv6Only) || (p.ipv6 && q.ipv6)

/-- `inpcb_bindings_overlap` -/
def bindingsOverlap (other inp : Inpcb) (laddr : In6Addr) : Bool :=
  other.familiesCollide inp && (other.laddr.isAny || laddr.isAny || other.laddr = laddr)

/-- The block that keeps `inp` from the port. -/
def blocks (other inp : Inpcb) (laddr : In6Addr) (lport : UInt16) : Bool :=
  if other.lport ≠ lport then false
  else if inp.reusePort && other.reusePort then false
  else if inp.reuseAddr && !other.faddr.isAny then false
  else bindingsOverlap other inp laddr

end Inpcb

namespace InpcbTable

variable (t : InpcbTable)

def set (i : Nat) (p : Option Inpcb) : InpcbTable := { t with pcbs := fun j => if j = i then p else t.pcbs j }

/-- `inpcb_hash_insert` of a block with the fields of `p` -/
def hashInsert (i : Nat) (p : Inpcb) : InpcbTable := { t.set i (some { p with inHash := true }) with
    hash := fileIn t.hash (inpcbHash p.toTuple) i
    portHash := fileIn t.portHash (inpcbPortHash p.lport) i }

/-- `inpcb_hash_remove` -/
def hashRemove (i : Nat) (p : Inpcb) : InpcbTable :=
  if p.inHash = false then t
  else
    { t.set i (some { p with inHash := false }) with
      hash := takeOut t.hash (inpcbHash p.toTuple) i
      portHash := takeOut t.portHash (inpcbPortHash p.lport) i }

/-- `inpcb_port_in_use` -/
def portInUse (i : Nat) (p : Inpcb) (laddr : In6Addr) (lport : UInt16) : Bool :=
  (t.portHash (inpcbPortHash lport)).any fun j =>
    j ≠ i && match t.pcbs j with
      | some other => other.blocks p laddr lport
      | none => false

/-- The port that the turn `n` from the end of the search looks at. -/
def ephemeralPort (offset : UInt32) (n : Nat) : UInt16 :=
  htons (inpcbPortFirst + (offset + (UInt32.ofNat (inpcbPortRange - n))) % UInt32.ofNat inpcbPortRange).toUInt16

/-- `inpcb_alloc_ephemeral_port`, with `n` turns left -/
def allocEphemeralPort (i : Nat) (p : Inpcb) (offset : UInt32) : Nat → Except InpcbError UInt16
  | 0 => .error .eaddrinuse
  | n + 1 =>
    let port := ephemeralPort offset (n + 1)
    if t.portInUse i p p.laddr port then allocEphemeralPort i p offset n else .ok port

/-- `inpcb_lookup_exact` -/
def lookupExact (x : Tuple) : Option Nat := (t.hash (inpcbHash x)).find? fun j => match t.pcbs j with
    | some p => p.toTuple = x
    | none => false

/-- `inpcb_alloc` of a block at the address `i`, for a socket of the family -/
def alloc (i : Nat) (ipv6 : Bool) : InpcbTable := t.set i (some ⟨⟨.any, 0, .any, 0⟩, ipv6, false, false, false, false⟩)

/-- `inpcb_free` -/
def free (i : Nat) (p : Inpcb) : InpcbTable := (t.hashRemove i p).set i none

/-- The address and port that `inpcb_bind` is to bind to. -/
def bindAddr (env : InpcbEnv) (p : Inpcb) : Option SockAddr → Except InpcbError (In6Addr × UInt16)
  | none => .ok (.any, 0)
  | some addr => do
    let (laddr, lport) ← p.sockaddrToIn6 addr
    if env.isLocal laddr then .ok (laddr, lport) else .error .eaddrnotavail

/-- `inpcb_bind` -/
def bind (env : InpcbEnv) (i : Nat) (p : Inpcb) (addr : Option SockAddr) : Except InpcbError Unit × InpcbTable :=
  if p.lport ≠ 0 then (.error .einval, t)
  else match bindAddr env p addr with
    | .error e => (.error e, t)
    | .ok (laddr, lport) =>
      if lport ≠ 0 ∧ t.portInUse i p laddr lport then (.error .eaddrinuse, t)
      else if lport ≠ 0 then (.ok (), t.hashInsert i { p with laddr := laddr, lport := lport })
      else match t.allocEphemeralPort i { p with laddr := laddr } env.offset inpcbPortRange with
        | .error e => (.error e, t.set i (some { p with laddr := .any }))
        | .ok port => (.ok (), t.hashInsert i { p with laddr := laddr, lport := port })

/-- The foreign address and port, and the local address, that `inpcb_connect` is to set. -/
def connectAddr (env : InpcbEnv) (p : Inpcb) (addr : SockAddr) : Except InpcbError (In6Addr × UInt16 × In6Addr) := do
  let (faddr, fport) ← p.sockaddrToIn6 addr
  if fport = 0 then .error .eaddrnotavail
  else
    let faddr := p.defaultFaddr faddr
    if p.laddr.isAny then .ok (faddr, fport, ← env.selectSource faddr) else .ok (faddr, fport, p.laddr)

/-- `inpcb_connect` -/
def connect (env : InpcbEnv) (i : Nat) (p : Inpcb) (addr : SockAddr) : Except InpcbError Unit × InpcbTable :=
  match connectAddr env p addr with
  | .error e => (.error e, t)
  | .ok (faddr, fport, laddr) =>
    let dup := t.lookupExact ⟨faddr, fport, laddr, p.lport⟩
    if p.lport ≠ 0 ∧ dup ≠ none ∧ dup ≠ some i then (.error .eaddrinuse, t)
    else
      let u := t.hashRemove i p
      let q := { p with laddr := laddr, inHash := false }
      if p.lport ≠ 0 then (.ok (), u.hashInsert i { q with faddr := faddr, fport := fport })
      else match u.allocEphemeralPort i q env.offset inpcbPortRange with
        | .error e => (.error e, u.set i (some q))
        | .ok port => (.ok (), u.hashInsert i { q with lport := port, faddr := faddr, fport := fport })

/-- `inpcb_disconnect` -/
def disconnect (i : Nat) (p : Inpcb) : InpcbTable :=
  let u := t.hashRemove i p
  let q := { p with faddr := .any, fport := 0, inHash := false }
  if p.lport ≠ 0 then u.hashInsert i q else u.set i (some q)

end InpcbTable

inductive InpcbLabel
  | alloc (i : Nat) (ipv6 : Bool)
  | setReuseAddr (i : Nat) (on : Bool)
  | bind (env : InpcbEnv) (i : Nat) (addr : Option SockAddr)
  | connect (env : InpcbEnv) (i : Nat) (addr : SockAddr)
  | disconnect (i : Nat)
  | free (i : Nat)

namespace InpcbTable

variable (t : InpcbTable)

/-- One call, on a block that exists; a new block gets an address that none has. -/
def exec : InpcbLabel → Option InpcbTable
  | .alloc i ipv6 => if t.pcbs i = none then some (t.alloc i ipv6) else none
  | .setReuseAddr i on => (t.pcbs i).map fun p => t.set i (some { p with reuseAddr := on })
  | .bind env i addr => (t.pcbs i).map fun p => (t.bind env i p addr).2
  | .connect env i addr => (t.pcbs i).map fun p => (t.connect env i p addr).2
  | .disconnect i => (t.pcbs i).map fun p => t.disconnect i p
  | .free i => (t.pcbs i).map fun p => t.free i p

/-- `inpcb_table_init` -/
def empty : InpcbTable := ⟨fun _ => none, fun _ => [], fun _ => []⟩

def system : LTS InpcbTable InpcbLabel := LTS.ofOption (· = empty) exec

/-- A block without a port connects without `SO_REUSEADDR`, and a block is disconnected while no other that is not
connected has its local address and port. -/
def Sole : InpcbLabel → Prop
  | .connect _ i _ => ∀ p, t.pcbs i = some p → p.lport = 0 → p.reuseAddr = false
  | .disconnect i => ∀ p, t.pcbs i = some p → p.lport ≠ 0 → ∀ j q, j ≠ i → t.pcbs j = some q → q.fport = 0 →
      q.laddr = p.laddr → q.lport ≠ p.lport
  | _ => True

def soleRuns : LTS InpcbTable InpcbLabel := system.restrict Sole

end InpcbTable

/-! ## What holds between calls -/

/-- A block between calls. -/
structure Inpcb.Ok (p : Inpcb) : Prop where
  ipv6Only : p.ipv6Only = false
  reusePort : p.reusePort = false
  hashed : p.inHash = true ↔ p.lport ≠ 0
  port : p.lport = 0 → p.fport = 0
  foreign : p.fport = 0 ↔ p.faddr.isAny = true

lemma htons_eq_zero {x : UInt16} (h : htons x = 0) : x = 0 := by
  have h := congrArg UInt16.toNat h
  simp only [htons, UInt16.toNat_or, UInt16.toNat_shiftLeft, UInt16.toNat_shiftRight, UInt16.reduceToNat,
    Nat.or_eq_zero_iff, Nat.reduceMod] at h
  have h0 : x.toNat = 0 := by omega
  exact UInt16.toNat_inj.1 h0

namespace InpcbTable

variable {t u : InpcbTable} {i j : Nat} {p q : Inpcb} {laddr : In6Addr} {port : UInt16}

/-- The bucket of a block in one of the two hash tables, whose key is `f`. -/
def keyBy (t : InpcbTable) (f : Tuple → Nat) (i : Nat) : Option Nat :=
  match t.pcbs i with
  | some p => if p.inHash then some (f p.toTuple) else none
  | none => none

lemma keyBy_of_hashed (h : t.pcbs i = some p) (hp : p.inHash = true) (f : Tuple → Nat) :
    t.keyBy f i = some (f p.toTuple) := by
  simp only [keyBy, h, hp, if_true]

lemma keyBy_of_not_hashed (h : t.pcbs i = some p) (hp : p.inHash = false) (f : Tuple → Nat) : t.keyBy f i = none := by
  simp only [keyBy, h, hp, Bool.false_eq_true, if_false]

lemma keyBy_congr (h : u.pcbs i = t.pcbs i) (f : Tuple → Nat) : u.keyBy f i = t.keyBy f i := by simp only [keyBy, h]

/-- The hash of a local port, as a key of the whole tuple. -/
def portOf (x : Tuple) : Nat := inpcbPortHash x.lport

/-- Every block is in its two buckets, each is as it is between calls, and no two have one tuple. -/
structure Inv (t : InpcbTable) : Prop where
  hash : Filed t.hash (t.keyBy inpcbHash)
  portHash : Filed t.portHash (t.keyBy portOf)
  ok : ∀ i p, t.pcbs i = some p → p.Ok
  unique : ∀ i j p q, t.pcbs i = some p → t.pcbs j = some q → p.lport ≠ 0 → p.toTuple = q.toTuple → i = j

/-- The same of all blocks but `i`, which is in no bucket. -/
structure InvBut (i : Nat) (t : InpcbTable) : Prop where
  hash : Filed t.hash (t.keyBy inpcbHash)
  portHash : Filed t.portHash (t.keyBy portOf)
  out : ∀ f, t.keyBy f i = none
  ok : ∀ j q, j ≠ i → t.pcbs j = some q → q.Ok
  unique : ∀ j k q r, j ≠ i → k ≠ i → t.pcbs j = some q → t.pcbs k = some r → q.lport ≠ 0 →
    q.toTuple = r.toTuple → j = k

lemma set_same (t : InpcbTable) (i : Nat) (x : Option Inpcb) : (t.set i x).pcbs i = x := if_pos rfl

lemma set_ne (t : InpcbTable) {i j : Nat} (x : Option Inpcb) (h : j ≠ i) : (t.set i x).pcbs j = t.pcbs j := if_neg h

lemma hashInsert_same (t : InpcbTable) (i : Nat) (p : Inpcb) :
    (t.hashInsert i p).pcbs i = some { p with inHash := true } := if_pos rfl

lemma hashInsert_ne (t : InpcbTable) (p : Inpcb) (h : j ≠ i) : (t.hashInsert i p).pcbs j = t.pcbs j := if_neg h

lemma hashRemove_ne (t : InpcbTable) (p : Inpcb) (h : j ≠ i) : (t.hashRemove i p).pcbs j = t.pcbs j := by
  unfold hashRemove
  split
  · rfl
  · exact if_neg h

lemma Inv.but (h : t.Inv) (hi : ∀ f, t.keyBy f i = none) : t.InvBut i :=
  ⟨h.hash, h.portHash, hi, fun j q _ => h.ok j q, fun j k q r _ _ => h.unique j k q r⟩

/-- `inpcb_hash_remove` -/
lemma Inv.hashRemove (h : t.Inv) (hp : t.pcbs i = some p) : (t.hashRemove i p).InvBut i := by
  cases hin : p.inHash with
  | false =>
    have ht : t.hashRemove i p = t := if_pos hin
    rw [ht]
    exact h.but fun f => keyBy_of_not_hashed hp hin f
  | true =>
    have hne : ∀ f j, j ≠ i → (t.hashRemove i p).keyBy f j = t.keyBy f j :=
      fun f j hj => keyBy_congr (hashRemove_ne t p hj) f
    have hout : ∀ f, (t.hashRemove i p).keyBy f i = none := by
      intro f
      refine keyBy_of_not_hashed (p := { p with inHash := false }) ?_ rfl f
      simp [InpcbTable.hashRemove, hin, set]
    have hhash : (t.hashRemove i p).hash = takeOut t.hash (inpcbHash p.toTuple) i := by
      simp [InpcbTable.hashRemove, hin]
    have hport : (t.hashRemove i p).portHash = takeOut t.portHash (portOf p.toTuple) i := by
      simp [InpcbTable.hashRemove, hin, portOf]
    refine ⟨?_, ?_, hout, ?_, ?_⟩
    · rw [hhash]
      exact h.hash.takeOut (keyBy_of_hashed hp hin _) (hout _) (hne _)
    · rw [hport]
      exact h.portHash.takeOut (keyBy_of_hashed hp hin _) (hout _) (hne _)
    · intro j q hj hq
      rw [hashRemove_ne t p hj] at hq
      exact h.ok j q hq
    · intro j k q r hj hk hq hr
      rw [hashRemove_ne t p hj] at hq
      rw [hashRemove_ne t p hk] at hr
      exact h.unique j k q r hq hr

/-- `inpcb_hash_insert` of a block whose tuple no other has -/
lemma InvBut.hashInsert (h : t.InvBut i) (hok : ({ p with inHash := true } : Inpcb).Ok)
    (hnew : ∀ j q, j ≠ i → t.pcbs j = some q → q.toTuple ≠ p.toTuple) : (t.hashInsert i p).Inv := by
  have hne : ∀ f j, j ≠ i → (t.hashInsert i p).keyBy f j = t.keyBy f j :=
    fun f j hj => keyBy_congr (hashInsert_ne t p hj) f
  have hin : ∀ f, (t.hashInsert i p).keyBy f i = some (f p.toTuple) :=
    fun f => keyBy_of_hashed (hashInsert_same t i p) rfl f
  have hcases : ∀ j q, (t.hashInsert i p).pcbs j = some q → j = i ∧ q = { p with inHash := true } ∨
      j ≠ i ∧ t.pcbs j = some q := by
    intro j q hq
    by_cases hj : j = i
    · rw [hj, hashInsert_same] at hq
      cases hq
      exact .inl ⟨hj, rfl⟩
    · exact .inr ⟨hj, (hashInsert_ne t p hj).symm.trans hq⟩
  refine ⟨h.hash.fileIn (h.out _) (hin _) (hne _), h.portHash.fileIn (h.out _) (hin _) (hne _), ?_, ?_⟩
  · intro j q hq
    rcases hcases j q hq with ⟨-, rfl⟩ | ⟨hj, hq⟩
    · exact hok
    · exact h.ok j q hj hq
  · intro j k q r hq hr hport he
    rcases hcases j q hq with ⟨hj, rfl⟩ | ⟨hj, hq⟩ <;> rcases hcases k r hr with ⟨hk, rfl⟩ | ⟨hk, hr⟩
    · rw [hj, hk]
    · exact absurd he.symm (hnew k r hk hr)
    · exact absurd he (hnew j q hj hq)
    · exact h.unique j k q r hj hk hq hr hport he

/-- The block gets fields with which it is in no bucket, or goes. -/
lemma InvBut.set {x : Option Inpcb} (h : t.InvBut i) (hx : ∀ q, x = some q → q.Ok ∧ q.lport = 0) : (t.set i x).Inv := by
  have hne : ∀ f j, j ≠ i → (t.set i x).keyBy f j = t.keyBy f j := fun f j hj => keyBy_congr (set_ne t x hj) f
  have hkey : ∀ f j, (t.set i x).keyBy f j = t.keyBy f j := by
    intro f j
    by_cases hj : j = i
    · subst hj
      rw [h.out f]
      cases x with
      | none => simp only [keyBy, set_same]
      | some q =>
        have hout : q.inHash = false := by
          rw [← Bool.not_eq_true, (hx q rfl).1.hashed, not_not]
          exact (hx q rfl).2
        exact keyBy_of_not_hashed (set_same t j (some q)) hout f
    · exact hne f j hj
  refine ⟨h.hash.congr (hkey _), h.portHash.congr (hkey _), ?_, ?_⟩
  · intro j q hq
    by_cases hj : j = i
    · subst hj
      rw [set_same] at hq
      exact (hx q hq).1
    · rw [set_ne t x hj] at hq
      exact h.ok j q hj hq
  intro j k q r hq hr hport he
  have hrport : r.lport ≠ 0 := by
    have := congrArg Tuple.lport he
    rwa [← this]
  have hnot : ∀ {k r}, (t.set i x).pcbs k = some r → r.lport ≠ 0 → k ≠ i := by
    intro k r hr hport hk
    subst hk
    rw [set_same] at hr
    exact hport (hx r hr).2
  have hj := hnot hq hport
  have hk := hnot hr hrport
  rw [set_ne t x hj] at hq
  rw [set_ne t x hk] at hr
  exact h.unique j k q r hj hk hq hr hport he

/-- `SO_REUSEADDR` of a socket -/
lemma Inv.setReuseAddr (h : t.Inv) (hp : t.pcbs i = some p) (on : Bool) :
    (t.set i (some { p with reuseAddr := on })).Inv := by
  have hsame : ∀ j q, (t.set i (some { p with reuseAddr := on })).pcbs j = some q →
      ∃ r, t.pcbs j = some r ∧ r.toTuple = q.toTuple ∧ (r.Ok → q.Ok) := by
    intro j q hq
    by_cases hj : j = i
    · subst hj
      rw [set_same] at hq
      cases hq
      exact ⟨p, hp, rfl, fun hok => ⟨hok.1, hok.2, hok.3, hok.4, hok.5⟩⟩
    · rw [set_ne t _ hj] at hq
      exact ⟨q, hq, rfl, id⟩
  have hkey : ∀ f j, (t.set i (some { p with reuseAddr := on })).keyBy f j = t.keyBy f j := by
    intro f j
    by_cases hj : j = i
    · subst hj
      simp only [keyBy, set_same, hp]
    · exact keyBy_congr (set_ne t _ hj) f
  refine ⟨h.hash.congr (hkey _), h.portHash.congr (hkey _), ?_, ?_⟩
  · intro j q hq
    obtain ⟨r, hr, -, hok⟩ := hsame j q hq
    exact hok (h.ok j r hr)
  intro j k q r hq hr hport he
  obtain ⟨q', hq', hqt, -⟩ := hsame j q hq
  obtain ⟨r', hr', hrt, -⟩ := hsame k r hr
  have hl : q'.lport ≠ 0 := by
    have := congrArg Tuple.lport hqt
    rwa [this]
  exact h.unique j k q' r' hq' hr' hl (by rw [hqt, he, hrt])

/-! ## The checks -/

/-- `inpcb_lookup_exact` finds the block that has the tuple. -/
lemma Inv.lookupExact (h : t.Inv) (hp : t.pcbs i = some p) (hport : p.lport ≠ 0) : t.lookupExact p.toTuple = some i := by
  have hin : i ∈ t.hash (inpcbHash p.toTuple) :=
    (h.hash.mem_iff _ i).2 (keyBy_of_hashed hp ((h.ok i p hp).hashed.2 hport) _)
  obtain ⟨j, hj⟩ : ∃ j, t.lookupExact p.toTuple = some j := by
    refine isSome_iff_exists.1 (List.find?_isSome.2 ⟨i, hin, ?_⟩)
    simp [hp]
  have hmatch := List.find?_some hj
  rw [hj]
  split at hmatch
  · rename_i q hq
    have he : q.toTuple = p.toTuple := by simpa using hmatch
    rw [h.unique i j p q hp hq hport he.symm]
  · cases hmatch

/-- A port that is not in use is that of no block with the same local address, unless the block is connected and
`SO_REUSEADDR` is set. -/
lemma InvBut.not_inUse (h : t.InvBut i) (hok : p.ipv6Only = false ∧ p.reusePort = false)
    (hfree : t.portInUse i p laddr port = false) (hport : port ≠ 0) (hj : j ≠ i) (hq : t.pcbs j = some q)
    (hreuse : p.reuseAddr = false ∨ q.faddr.isAny = true) : ¬ (q.laddr = laddr ∧ q.lport = port) := by
  rintro ⟨rfl, rfl⟩
  have hqok := h.ok j q hj hq
  have hin : j ∈ t.portHash (inpcbPortHash q.lport) :=
    (h.portHash.mem_iff _ j).2 (keyBy_of_hashed hq (hqok.hashed.2 hport) _)
  have hblocks : q.blocks p q.laddr q.lport = true := by
    have hr : (p.reuseAddr && !q.faddr.isAny) = false := by
      rcases hreuse with hr | hr <;> simp [hr]
    simp [Inpcb.blocks, hok.2, hr, Inpcb.bindingsOverlap, Inpcb.familiesCollide, hok.1, hqok.ipv6Only]
  have huse : t.portInUse i p q.laddr q.lport = true := by
    refine List.any_eq_true.2 ⟨j, hin, ?_⟩
    simp [hj, hq, hblocks]
  rw [huse] at hfree
  cases hfree

lemma ephemeralPort_ne_zero (offset : UInt32) (n : Nat) : ephemeralPort offset n ≠ 0 := by
  intro h
  have h := congrArg UInt16.toNat (htons_eq_zero h)
  simp only [UInt32.toNat_toUInt16, UInt32.toNat_add, UInt32.toNat_mod, UInt32.reduceToNat, UInt32.toNat_ofNat',
    UInt16.reduceToNat, inpcbPortFirst, inpcbPortRange, Nat.reduceMod, Nat.reducePow] at h
  omega

lemma allocEphemeralPort_spec {offset : UInt32} {n : Nat} (h : t.allocEphemeralPort i p offset n = .ok port) :
    port ≠ 0 ∧ t.portInUse i p p.laddr port = false := by
  induction n with
  | zero => cases h
  | succ n ih =>
    simp only [allocEphemeralPort] at h
    split at h
    · exact ih h
    rename_i hfree
    cases h
    exact ⟨ephemeralPort_ne_zero offset (n + 1), by simpa using hfree⟩

/-! ## The calls -/

lemma Inv.but_of_unbound (h : t.Inv) (hp : t.pcbs i = some p) (hport : p.lport = 0) : t.InvBut i := by
  have hout : p.inHash = false := by
    rw [← Bool.not_eq_true, (h.ok i p hp).hashed, not_not]
    exact hport
  exact h.but fun f => keyBy_of_not_hashed hp hout f

/-- A block without a port is bound to one that is not in use. -/
lemma Inv.bindTo (h : t.Inv) (hp : t.pcbs i = some p) (hport : p.lport = 0) (hne : port ≠ 0)
    (hfree : t.portInUse i p laddr port = false) : (t.hashInsert i { p with laddr := laddr, lport := port }).Inv := by
  have hok := h.ok i p hp
  have hbut := h.but_of_unbound hp hport
  refine hbut.hashInsert ?_ ?_
  · exact ⟨hok.ipv6Only, hok.reusePort, ⟨fun _ => hne, fun _ => rfl⟩, fun h0 => absurd h0 hne, hok.foreign⟩
  intro j q hj hq he
  obtain ⟨hfaddr, -, hladdr, hlport⟩ := Tuple.fields_eq he
  have hany : q.faddr.isAny = true := by
    rw [hfaddr]
    exact hok.foreign.1 (hok.port hport)
  exact hbut.not_inUse ⟨hok.ipv6Only, hok.reusePort⟩ hfree hne hj hq (.inr hany) ⟨hladdr, hlport⟩

lemma Inv.bind (h : t.Inv) (hp : t.pcbs i = some p) (env : InpcbEnv) (addr : Option SockAddr) :
    (t.bind env i p addr).2.Inv := by
  unfold InpcbTable.bind
  split
  · exact h
  rename_i hport
  have hport : p.lport = 0 := not_not.1 hport
  split
  · exact h
  split
  · exact h
  rename_i _ huse
  split
  · rename_i hne
    refine h.bindTo hp hport hne ?_
    rw [← Bool.not_eq_true]
    exact fun hu => huse ⟨hne, hu⟩
  split
  · -- the port is not found, and the address is taken back
    have hok := h.ok i p hp
    refine (h.but_of_unbound hp hport).set fun q hq => ?_
    cases hq
    exact ⟨⟨hok.1, hok.2, hok.3, hok.4, hok.5⟩, hport⟩
  · rename_i hport'
    obtain ⟨hne, hfree⟩ := allocEphemeralPort_spec hport'
    exact h.bindTo hp hport hne hfree

lemma defaultFaddr_isAny (p : Inpcb) (faddr : In6Addr) : (p.defaultFaddr faddr).isAny = false := by
  unfold Inpcb.defaultFaddr
  split
  · assumption
  split <;> decide

variable {faddr : In6Addr} {fport : UInt16}

lemma connectAddr_spec {env : InpcbEnv} {addr : SockAddr} (h : connectAddr env p addr = .ok (faddr, fport, laddr)) :
    (fport ≠ 0 ∧ faddr.isAny = false) ∧ (p.laddr.isAny = false → laddr = p.laddr) := by
  unfold connectAddr at h
  cases ha : p.sockaddrToIn6 addr with
  | error e =>
    rw [ha] at h
    cases h
  | ok x =>
    obtain ⟨f, n⟩ := x
    rw [ha] at h
    change (if n = 0 then _ else _) = _ at h
    split at h
    · cases h
    rename_i hn
    split at h
    · rename_i hany
      cases hs : env.selectSource (p.defaultFaddr f) with
      | error e =>
        rw [hs] at h
        cases h
      | ok l =>
        rw [hs] at h
        cases h
        exact ⟨⟨hn, defaultFaddr_isAny p f⟩, fun hl => absurd hany (Bool.eq_false_iff.1 hl)⟩
    · cases h
      exact ⟨⟨hn, defaultFaddr_isAny p f⟩, fun _ => rfl⟩

/-- A block that is connected, with a port and a tuple that is its own. -/
lemma InvBut.connectTo (h : t.InvBut i) (hok : p.Ok) (hf : fport ≠ 0 ∧ faddr.isAny = false) (hport : port ≠ 0)
    (hnew : ∀ j q, j ≠ i → t.pcbs j = some q → q.toTuple ≠ ⟨faddr, fport, laddr, port⟩) :
    (t.hashInsert i { p with laddr := laddr, inHash := false, lport := port, faddr := faddr, fport := fport }).Inv := by
  refine h.hashInsert ?_ hnew
  refine ⟨hok.ipv6Only, hok.reusePort, ⟨fun _ => hport, fun _ => rfl⟩, fun h0 => absurd h0 hport, ?_⟩
  constructor
  · exact fun h0 => absurd h0 hf.1
  intro h0
  rw [hf.2] at h0
  cases h0

lemma Inv.connect (h : t.Inv) (hp : t.pcbs i = some p) (env : InpcbEnv) (addr : SockAddr)
    (hsole : p.lport = 0 → p.reuseAddr = false) : (t.connect env i p addr).2.Inv := by
  have hok := h.ok i p hp
  have hbut := h.hashRemove hp
  unfold InpcbTable.connect
  split
  · exact h
  rename_i haddr
  have hf := (connectAddr_spec haddr).1
  dsimp only
  split
  · exact h
  rename_i hdup
  split <;> rename_i hport
  · -- the port is there, and the lookup has found no other block with the tuple
    refine hbut.connectTo hok hf hport fun j q hj hq he => hdup ⟨hport, ?_⟩
    rw [hashRemove_ne t p hj] at hq
    obtain ⟨-, -, -, hlport⟩ := Tuple.fields_eq he
    rw [← he, h.lookupExact hq (by rwa [hlport])]
    exact ⟨nofun, fun hi => hj (Option.some.inj hi)⟩
  have hport : p.lport = 0 := not_not.1 hport
  split
  · refine hbut.set fun q hq => ?_
    cases hq
    refine ⟨⟨hok.ipv6Only, hok.reusePort, ?_, hok.port, hok.foreign⟩, hport⟩
    exact ⟨nofun, fun hne => absurd hport hne⟩
  rename_i hport'
  obtain ⟨hne, hfree⟩ := allocEphemeralPort_spec hport'
  refine hbut.connectTo hok hf hne fun j q hj hq he => ?_
  obtain ⟨-, -, hladdr, hlport⟩ := Tuple.fields_eq he
  exact hbut.not_inUse ⟨hok.ipv6Only, hok.reusePort⟩ hfree hne hj hq (.inl (hsole hport)) ⟨hladdr, hlport⟩

lemma Inv.disconnect (h : t.Inv) (hp : t.pcbs i = some p)
    (hsole : p.lport ≠ 0 → ∀ j q, j ≠ i → t.pcbs j = some q → q.fport = 0 → q.laddr = p.laddr → q.lport ≠ p.lport) :
    (t.disconnect i p).Inv := by
  have hok := h.ok i p hp
  have hbut := h.hashRemove hp
  unfold InpcbTable.disconnect
  split <;> rename_i hport
  · refine hbut.hashInsert ?_ ?_
    · exact ⟨hok.ipv6Only, hok.reusePort, ⟨fun _ => hport, fun _ => rfl⟩, fun _ => rfl,
        ⟨fun _ => In6Addr.any_isAny, fun _ => rfl⟩⟩
    intro j q hj hq he
    rw [hashRemove_ne t p hj] at hq
    obtain ⟨-, hfport, hladdr, hlport⟩ := Tuple.fields_eq he
    exact hsole hport j q hj hq hfport hladdr hlport
  · have hport : p.lport = 0 := not_not.1 hport
    refine hbut.set fun q hq => ?_
    cases hq
    refine ⟨⟨hok.ipv6Only, hok.reusePort, ?_, fun _ => rfl, ⟨fun _ => In6Addr.any_isAny, fun _ => rfl⟩⟩, hport⟩
    exact ⟨nofun, fun hne => absurd hport hne⟩

lemma Inv.exec (h : t.Inv) {l : InpcbLabel} (hs : t.Sole l) (hu : t.exec l = some u) : u.Inv := by
  cases l with try obtain ⟨p, hp, rfl⟩ := map_eq_some_iff.1 hu
  | alloc i ipv6 =>
    simp only [InpcbTable.exec] at hu
    split at hu
    · rename_i hi
      cases hu
      refine (h.but fun f => by simp only [keyBy, hi]).set fun q hq => ?_
      cases hq
      exact ⟨⟨rfl, rfl, ⟨nofun, fun hne => absurd rfl hne⟩, fun _ => rfl, ⟨fun _ => In6Addr.any_isAny, fun _ => rfl⟩⟩, rfl⟩
    · cases hu
  | setReuseAddr i on => exact h.setReuseAddr hp on
  | bind env i addr => exact h.bind hp env addr
  | connect env i addr => exact h.connect hp env addr (hs p hp)
  | disconnect i => exact h.disconnect hp (hs p hp)
  | free i => exact (h.hashRemove hp).set fun q hq => nomatch hq

lemma soleRuns_inv (hr : soleRuns.Reachable t) : t.Inv := by
  refine LTS.Inductive.reachable ⟨?_, ?_⟩ hr
  · rintro t rfl
    have hfiled : ∀ f, Filed (fun _ => []) (empty.keyBy f) := fun f => ⟨fun _ => List.nodup_nil, by simp [empty, keyBy]⟩
    exact ⟨hfiled _, hfiled _, fun i p hp => (nomatch hp), fun i j p q hp => (nomatch hp)⟩
  · rintro t l u h ⟨hs, hu⟩
    exact h.exec hs hu

/-- No two connected blocks have one 4-tuple, every hashed block is in its two buckets and in no other, and
`inpcb_lookup_exact` finds it. -/
theorem connections_unique (hr : soleRuns.Reachable t) :
    (∀ i j p q, t.pcbs i = some p → t.pcbs j = some q → p.fport ≠ 0 → p.toTuple = q.toTuple → i = j) ∧
    (∀ i p, t.pcbs i = some p → p.inHash = true →
      (∀ b, i ∈ t.hash b ↔ b = inpcbHash p.toTuple) ∧ (∀ b, i ∈ t.portHash b ↔ b = inpcbPortHash p.lport) ∧
        t.lookupExact p.toTuple = some i) := by
  have h := soleRuns_inv hr
  refine ⟨fun i j p q hp hq hf he => ?_, fun i p hp hin => ⟨fun b => ?_, fun b => ?_, ?_⟩⟩
  · exact h.unique i j p q hp hq (fun h0 => hf ((h.ok i p hp).port h0)) he
  · rw [h.hash.mem_iff, keyBy_of_hashed hp hin, Option.some.injEq, eq_comm]
  · rw [h.portHash.mem_iff, keyBy_of_hashed hp hin, Option.some.injEq, eq_comm, portOf]
  · exact h.lookupExact hp ((h.ok i p hp).hashed.1 hin)

/-- Routes send everything from 10.0.0.1, and the search for a port starts at the first. -/
def oneSource : InpcbEnv := ⟨fun _ => true, fun _ => true, fun _ => 0x0100000A, fun _ => none, 0⟩

/-- A block connects to port 80 of 10.0.0.2. -/
theorem connections_unique_oneConnect : ∃ t p, soleRuns.Reachable t ∧ t.pcbs 1 = some p ∧ p.fport = 0x5000 ∧
    t.lookupExact p.toTuple = some 1 := by
  have h : ((empty.alloc 1 false).exec (.connect oneSource 1 (.inet 0x0200000A 0x5000))).map (fun t => t.pcbs 1) =
      some (some ⟨⟨.mapV4 0x0200000A, 0x5000, .mapV4 0x0100000A, 0x00C0⟩, false, false, false, true, false⟩) := by
    decide +kernel
  obtain ⟨t, ht, h1⟩ := map_eq_some_iff.1 h
  have hr : soleRuns.Reachable t := by
    refine ⟨empty, [.alloc 1 false, .connect oneSource 1 (.inet 0x0200000A 0x5000)], rfl, ?_⟩
    refine .cons ⟨trivial, rfl⟩ (.cons ⟨?_, ht⟩ (.nil t))
    intro p hp _
    cases hp
    rfl
  exact ⟨t, _, hr, h1, rfl, ((connections_unique hr).2 1 _ h1 rfl).2.2⟩

/-- Two blocks with `SO_REUSEADDR` connect to port 80 of 10.0.0.2. -/
def twoConnects : List InpcbLabel := [.alloc 1 false, .alloc 2 false, .setReuseAddr 1 true, .setReuseAddr 2 true,
    .connect oneSource 1 (.inet 0x0200000A 0x5000), .connect oneSource 2 (.inet 0x0200000A 0x5000)]

theorem connect_tuple_twice : ∃ t p q, system.Reachable t ∧ t.pcbs 1 = some p ∧ t.pcbs 2 = some q ∧ p.fport ≠ 0 ∧
    p.toTuple = q.toTuple ∧ t.lookupExact q.toTuple = some 1 := by
  have h : (twoConnects.foldlM exec empty).map (fun t => (t.pcbs 1, t.pcbs 2,
      t.lookupExact ⟨.mapV4 0x0200000A, 0x5000, .mapV4 0x0100000A, 0x00C0⟩)) =
      some (some ⟨⟨.mapV4 0x0200000A, 0x5000, .mapV4 0x0100000A, 0x00C0⟩, false, false, false, true, true⟩,
        some ⟨⟨.mapV4 0x0200000A, 0x5000, .mapV4 0x0100000A, 0x00C0⟩, false, false, false, true, true⟩, some 1) := by
    decide +kernel
  obtain ⟨t, hrun, he⟩ := map_eq_some_iff.1 h
  simp only [Prod.mk.injEq] at he
  obtain ⟨h1, h2, h3⟩ := he
  exact ⟨t, _, _, ⟨_, _, rfl, LTS.run_ofOption hrun⟩, h1, h2, by decide, rfl, h3⟩

end InpcbTable

end Hermes.L3
