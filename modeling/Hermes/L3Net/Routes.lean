import Mathlib

/-!
# Addresses and routes

The address lists of `ipv4.c` and `ipv6.c` over the route tables of `core/route.c`, and the DHCP client that configures
both. A route is known by its prefix alone: the default route is one entry for all interfaces, and an address that goes
takes the route of its prefix with it. An address here is the number its bytes spell.
-/
namespace Hermes.L3

open Function

variable {w : Nat}

/-- `struct route_entry`, under its prefix -/
structure Route (w : Nat) where
  flags : UInt32
  nif : Nat
  gw : BitVec w
deriving DecidableEq

/-- `struct ipv4_ifaddr` and `struct ipv6_ifaddr`, under their addresses -/
structure IfAddr where
  nif : Nat
  prefixLen : Nat
  flags : UInt32
  preferredUntil : UInt64
  validUntil : UInt64
deriving DecidableEq

/-- The addresses and the routes of one family, of all interfaces. -/
structure AddrTable (w : Nat) where
  addrs : BitVec w → Option IfAddr
  routes : BitVec w × Nat → Option (Route w)

inductive NetError
  | einval
  | enomem
  | eexist
  | esrch
  | eaddrnotavail
deriving DecidableEq

abbrev routeUp : UInt32 := 0x01
abbrev routeGateway : UInt32 := 0x02
abbrev routeHost : UInt32 := 0x04
abbrev routeStatic : UInt32 := 0x08

/-- A prefix as `route_find4` and `route_find6` compare it, cut by `route_mask4` and `route_mask6`. -/
def routeKey (dst : BitVec w) (prefixLen : Nat) : BitVec w × Nat :=
  (dst &&& BitVec.allOnes w <<< (w - prefixLen), prefixLen)

namespace AddrTable

variable (s : AddrTable w)

def empty : AddrTable w := ⟨fun _ => none, fun _ => none⟩

/-- `route_add4` and `route_add6`, where `mem` says whether there is memory for an entry -/
def routeAdd (mem : Bool) (dst : BitVec w) (prefixLen : Nat) (gw : BitVec w) (nif : Nat) (flags : UInt32) :
    Except NetError Unit × AddrTable w :=
  let key := routeKey dst prefixLen
  if prefixLen > w then (.error .einval, s)
  else if s.routes key = none ∧ mem = false then (.error .enomem, s)
  else
    let flags := flags ||| routeUp ||| (if gw ≠ 0 then routeGateway else 0) ||| (if prefixLen = w then routeHost else 0)
    (.ok (), { s with routes := update s.routes key (some ⟨flags, nif, gw⟩) })

/-- `route_del4` and `route_del6` -/
def routeDel (dst : BitVec w) (prefixLen : Nat) : Except NetError Unit × AddrTable w :=
  let key := routeKey dst prefixLen
  if s.routes key = none then (.error .esrch, s) else (.ok (), { s with routes := update s.routes key none })

lemma routeDel_snd (dst : BitVec w) (n : Nat) :
    (s.routeDel dst n).2 = { s with routes := update s.routes (routeKey dst n) none } := by
  unfold routeDel
  dsimp only
  split
  · rename_i h
    rw [← h, update_eq_self]
  · rfl

end AddrTable

/-- What the two families do differently: the addresses they refuse, the flags of a new one (on the loopback interface or
another), and whether an address has a route. -/
structure Family (w : Nat) where
  refuses : BitVec w → Bool
  newFlags : Bool → BitVec w → UInt32 → UInt32
  wantsRoute : IfAddr → Bool

namespace Family

variable (F : Family w) (s : AddrTable w)

/-- `ipv4_addr_add` and `ipv6_addr_add`, where `mem` says whether there is memory for the address and for its route -/
def addrAdd (mem : Bool × Bool) (loopback : Bool) (addr : BitVec w) (ia : IfAddr) : Except NetError Unit × AddrTable w :=
  let ia := { ia with flags := F.newFlags loopback addr ia.flags }
  let t := { s with addrs := update s.addrs addr (some ia) }
  if ia.prefixLen > w ∨ F.refuses addr then (.error .einval, s)
  else if mem.1 = false then (.error .enomem, s)
  else if s.addrs addr ≠ none then (.error .eexist, s)
  else if F.wantsRoute ia then
    match t.routeAdd mem.2 addr ia.prefixLen 0 ia.nif 0 with
    | (.error e, u) => (.error e, { u with addrs := update u.addrs addr none })
    | (.ok (), u) => (.ok (), u)
  else (.ok (), t)

/-- `ipv4_addr_del` and `ipv6_addr_del` -/
def addrDel (nif : Nat) (addr : BitVec w) : Except NetError Unit × AddrTable w :=
  match s.addrs addr with
  | none => (.error .eaddrnotavail, s)
  | some ia =>
    let t := { s with addrs := update s.addrs addr none }
    if ia.nif ≠ nif then (.error .eaddrnotavail, s)
    else (.ok (), if F.wantsRoute ia then (t.routeDel addr ia.prefixLen).2 else t)

/-- `t` is `s` but for the address and, where it wants one, its route. -/
structure Changed (t : AddrTable w) (addr : BitVec w) (ia : IfAddr) (x : Option IfAddr) (y : Option (Route w)) : Prop where
  addrs : ∀ a, t.addrs a = if a = addr then x else s.addrs a
  routes : ∀ k, t.routes k = if F.wantsRoute ia ∧ k = routeKey addr ia.prefixLen then y else s.routes k

lemma addrDel_spec (nif : Nat) (addr : BitVec w) :
    ((F.addrDel s nif addr).2 = s ∧ ∀ ia, s.addrs addr = some ia → ia.nif ≠ nif) ∨ ∃ ia, s.addrs addr = some ia ∧
      ia.nif = nif ∧ F.Changed s (F.addrDel s nif addr).2 addr ia none none := by
  unfold addrDel
  cases ha : s.addrs addr with
  | none => exact .inl ⟨rfl, nofun⟩
  | some ia =>
    dsimp only
    split <;> rename_i hnif
    · exact .inl ⟨rfl, fun ib hib => by cases hib; exact hnif⟩
    refine .inr ⟨ia, rfl, not_not.1 hnif, ?_⟩
    rw [AddrTable.routeDel_snd]
    split <;> rename_i hw
    · exact ⟨update_apply _ _ _, fun k => by simp [hw, update_apply]⟩
    · exact ⟨update_apply _ _ _, fun k => by simp [hw]⟩

end Family

def ipv4 : Family 32 := ⟨fun _ => false, fun _ _ flags => flags, fun _ => true⟩

abbrev ipv6AddrTentative : UInt32 := 0x01
abbrev ipv6AddrAutoconf : UInt32 := 0x08
abbrev ipv6AddrLinklocal : UInt32 := 0x20

def ipv6 : Family 128 where
  refuses addr := addr >>> 120 = 0xFF || addr = 0
  newFlags loopback addr flags :=
    let flags := flags ||| if addr >>> 118 = 0x3FA then ipv6AddrLinklocal else 0
    if loopback then flags &&& ~~~ipv6AddrTentative else flags
  wantsRoute ia := ia.flags &&& (ipv6AddrAutoconf ||| ipv6AddrLinklocal) = 0 && ia.prefixLen < 128

/-- `struct dhcp_lease` -/
structure DhcpLease where
  addr : BitVec 32
  netmask : BitVec 32
  router : BitVec 32

/-- `struct dhcp_client`, without its timers -/
structure DhcpClient where
  nif : Nat
  lease : DhcpLease
  configured : Bool
  defaultRoute : Bool

/-- `dhcp_mask_to_prefix`, with `n` turns left -/
def dhcpMaskToPrefix : Nat → BitVec 32 → Nat
  | 0, _ => 0
  | n + 1, m => if m.msb then dhcpMaskToPrefix n (m <<< 1) + 1 else 0

namespace DhcpClient

variable (c : DhcpClient) (s : AddrTable 32)

/-- `dhcp_apply_lease` of a lease that is good until `expire` -/
def applyLease (mem : Bool × Bool × Bool) (expire : UInt64) : Except NetError Unit × DhcpClient × AddrTable 32 :=
  let addr := c.lease.addr
  if c.configured then
    -- `ipv4_addr_set_expiry`
    (.ok (), c, { s with addrs := update s.addrs addr ((s.addrs addr).map ({ · with validUntil := expire })) })
  else match ipv4.addrAdd s (mem.1, mem.2.1) false addr ⟨c.nif, dhcpMaskToPrefix 32 c.lease.netmask, 0, 0, expire⟩ with
    | (.error e, t) => (.error e, c, t)
    | (.ok (), t) =>
      if c.lease.router = 0 then (.ok (), { c with configured := true }, t)
      else
        -- `route_set_default4`
        let u := t.routeAdd mem.2.2 0 0 c.lease.router c.nif routeStatic
        (.ok (), { c with configured := true, defaultRoute := u.1.isOk }, u.2)

/-- `dhcp_remove_lease` -/
def removeLease : DhcpClient × AddrTable 32 :=
  if c.configured = false then (c, s)
  else
    let t := if c.defaultRoute then (s.routeDel 0 0).2 else s
    ({ c with defaultRoute := false, configured := false }, (ipv4.addrDel t c.nif c.lease.addr).2)

end DhcpClient

/-- The tables, and two ghosts: the interface whose client's `dhcp_apply_lease` made an address or a route, where one did. -/
structure DhcpNet where
  table : AddrTable 32
  addrOwner : BitVec 32 → Option Nat
  routeOwner : BitVec 32 × Nat → Option Nat

namespace DhcpClient

variable (c : DhcpClient) (s : AddrTable 32) (n : DhcpNet)

/-- `dhcp_apply_lease`, with what it makes from now on its own -/
def apply (mem : Bool × Bool × Bool) (expire : UInt64) : DhcpClient × DhcpNet :=
  let r := c.applyLease n.table mem expire
  let key := routeKey c.lease.addr (dhcpMaskToPrefix 32 c.lease.netmask)
  if c.configured || !r.1.isOk then (r.2.1, { n with table := r.2.2 })
  else
    let owner := update n.routeOwner key (some c.nif)
    (r.2.1, ⟨r.2.2, update n.addrOwner c.lease.addr (some c.nif),
      if r.2.1.defaultRoute then update owner (routeKey 0 0) (some c.nif) else owner⟩)

/-- The routes that `dhcp_remove_lease` takes away. -/
def Routes (k : BitVec 32 × Nat) : Prop := (c.defaultRoute = true ∧ k = routeKey 0 0) ∨
    ∃ ia, s.addrs c.lease.addr = some ia ∧ ia.nif = c.nif ∧ k = routeKey c.lease.addr ia.prefixLen

/-- Nothing has changed but what the client made, and that is gone. -/
structure RemovesOwn (t : AddrTable 32) : Prop where
  addrs : ∀ a, t.addrs a = n.table.addrs a ∨ t.addrs a = none ∧ n.addrOwner a = some c.nif
  routes : ∀ k, t.routes k = n.table.routes k ∨ t.routes k = none ∧ n.routeOwner k = some c.nif

variable {c s n}

/-- What `dhcp_remove_lease` of a configured client leaves. -/
lemma removeLease_spec (hc : c.configured = true) :
    (∀ a, ((c.removeLease s).2.addrs a = none ∧ a = c.lease.addr ∧ ∃ ia, s.addrs a = some ia ∧ ia.nif = c.nif) ∨
      (c.removeLease s).2.addrs a = s.addrs a ∧ ¬ (a = c.lease.addr ∧ ∃ ia, s.addrs a = some ia ∧ ia.nif = c.nif)) ∧
    ∀ k, ((c.removeLease s).2.routes k = none ∧ c.Routes s k) ∨
      (c.removeLease s).2.routes k = s.routes k ∧ ¬ c.Routes s k := by
  unfold removeLease
  rw [if_neg (by rw [hc]; decide)]
  dsimp only
  -- the table without the default route
  generalize ht : (if c.defaultRoute then (s.routeDel 0 0).2 else s) = t
  have haddrs : t.addrs = s.addrs := by rw [← ht, AddrTable.routeDel_snd, apply_ite AddrTable.addrs, ite_self]
  have hdefault : ∀ k, t.routes k = if c.defaultRoute = true ∧ k = routeKey 0 0 then none else s.routes k := by
    intro k
    rw [← ht, AddrTable.routeDel_snd]
    cases c.defaultRoute <;> simp [update_apply]
  rcases ipv4.addrDel_spec t c.nif c.lease.addr with ⟨he, hno⟩ | ⟨ia, ha, hnif, hch⟩
  · rw [he, haddrs]
    rw [haddrs] at hno
    refine ⟨fun a => .inr ⟨rfl, ?_⟩, fun k => ?_⟩
    · rintro ⟨rfl, ia, hia, hn⟩
      exact hno ia hia hn
    rw [hdefault]
    split <;> rename_i hk
    · exact .inl ⟨rfl, .inl hk⟩
    · refine .inr ⟨rfl, ?_⟩
      rintro (hd | ⟨ia, hia, hn, -⟩)
      · exact hk hd
      · exact hno ia hia hn
  rw [haddrs] at ha
  refine ⟨fun a => ?_, fun k => ?_⟩
  · rw [hch.addrs, haddrs]
    split <;> rename_i hae
    · exact .inl ⟨rfl, hae, ia, hae ▸ ha, hnif⟩
    · exact .inr ⟨rfl, fun h => hae h.1⟩
  rw [hch.routes, hdefault]
  split <;> rename_i hk
  · exact .inl ⟨rfl, .inr ⟨ia, ha, hnif, hk.2⟩⟩
  split <;> rename_i hd
  · exact .inl ⟨rfl, .inl hd⟩
  refine .inr ⟨rfl, ?_⟩
  rintro (h | ⟨ib, hib, -, hkey⟩)
  · exact hd h
  · cases ha.symm.trans hib
    exact hk ⟨rfl, hkey⟩

/-- **The frame of `dhcp_remove_lease`.** It takes away only what its client made exactly if the client is not configured, or
it made the address of the lease, where that is there on its interface, and each route that goes with the lease, where that
is there. -/
theorem removeLease_frame : c.RemovesOwn n (c.removeLease n.table).2 ↔ (c.configured = true →
    (∀ ia, n.table.addrs c.lease.addr = some ia → ia.nif = c.nif → n.addrOwner c.lease.addr = some c.nif) ∧
    ∀ k, c.Routes n.table k → n.table.routes k ≠ none → n.routeOwner k = some c.nif) := by
  constructor
  · intro h hc
    obtain ⟨hspecA, hspecR⟩ := @removeLease_spec c n.table hc
    refine ⟨fun ia hia hn => ?_, fun k hk hne => ?_⟩
    · rcases hspecA c.lease.addr with ⟨hgone, -⟩ | ⟨-, hno⟩
      · exact ((h.addrs _).resolve_left fun he => by cases (hgone.symm.trans he).trans hia).2
      · exact absurd ⟨rfl, ia, hia, hn⟩ hno
    · rcases hspecR k with ⟨hgone, -⟩ | ⟨-, hno⟩
      · exact ((h.routes k).resolve_left fun he => hne (he.symm.trans hgone)).2
      · exact absurd hk hno
  intro h
  cases hc : c.configured with
  | false => exact ⟨fun _ => .inl (by rw [removeLease, if_pos hc]), fun _ => .inl (by rw [removeLease, if_pos hc])⟩
  | true =>
    obtain ⟨hown, hroutes⟩ := h hc
    obtain ⟨hspecA, hspecR⟩ := @removeLease_spec c n.table hc
    refine ⟨fun a => ?_, fun k => ?_⟩
    · rcases hspecA a with ⟨hgone, rfl, ia, hia, hn⟩ | ⟨hsame, -⟩
      · exact .inr ⟨hgone, hown ia hia hn⟩
      · exact .inl hsame
    · rcases hspecR k with ⟨hgone, hk⟩ | ⟨hsame, -⟩
      · by_cases hne : n.table.routes k = none
        · exact .inl (hgone.trans hne.symm)
        · exact .inr ⟨hgone, hroutes k hk hne⟩
      · exact .inl hsame

/-- Interface 1 gets 10.0.0.5 and the router 10.0.0.1, and nothing else is configured. -/
def oneLease : DhcpClient × DhcpNet :=
  apply ⟨1, ⟨0x0A000005, 0xFFFFFF00, 0x0A000001⟩, false, false⟩ ⟨.empty, fun _ => none, fun _ => none⟩ (true, true, true) 9

/-- Then interface 2 gets 10.0.1.5 and the router 10.0.1.1. -/
def twoLeases : DhcpClient × DhcpNet :=
  apply ⟨2, ⟨0x0A000105, 0xFFFFFF00, 0x0A000101⟩, false, false⟩ oneLease.2 (true, true, true) 9

/-- The second client takes away only what it made, the default route that it took over from the first included. -/
theorem removeLease_frame_twoLeases :
    twoLeases.1.RemovesOwn twoLeases.2 (twoLeases.1.removeLease twoLeases.2.table).2 := by
  refine removeLease_frame.2 fun _ => ⟨fun _ _ _ => by decide +kernel, ?_⟩
  rintro k (⟨-, rfl⟩ | ⟨ia, hia, -, rfl⟩) -
  · decide +kernel
  · cases hia
    decide +kernel

/-- The first client takes the default route of the second with it. -/
theorem removeLease_takes_default : oneLease.1.configured = true ∧ twoLeases.2.routeOwner (0, 0) = some 2 ∧
    twoLeases.2.table.routes (0, 0) = some ⟨routeStatic ||| routeUp ||| routeGateway, 2, 0x0A000101⟩ ∧
    (oneLease.1.removeLease twoLeases.2.table).2.routes (0, 0) = none ∧
    ¬ oneLease.1.RemovesOwn twoLeases.2 (oneLease.1.removeLease twoLeases.2.table).2 := by
  refine ⟨by decide +kernel, by decide +kernel, by decide +kernel, by decide +kernel, fun h => ?_⟩
  exact absurd (h.routes (0, 0)) (by decide +kernel)

end DhcpClient

end Hermes.L3
