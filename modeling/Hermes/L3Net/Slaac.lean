import Hermes.L3Net.Routes

/-!
# Lifetimes of autoconfigured addresses

`nd6_slaac_refresh` of `drivers/net/ipv6/nd6.c`, by which a router advertisement sets the deadlines of an address it
concerns. A deadline of zero stands for none. An advertisement can only shorten the rest of a lifetime to two hours.
-/
namespace Hermes.L3

/-- `ticks_from_ms`, at `hz` ticks a second -/
def ticksFromMs (hz : UInt32) (ms : UInt64) : UInt64 :=
  let t := ms * hz.toUInt64 / 1000
  if t ≠ 0 then t else 1

abbrev nd6Infinite : UInt32 := 0xFFFFFFFF
abbrev nd6TwoHoursS : UInt32 := 7200
abbrev ipv6AddrDeprecated : UInt32 := 0x04

/-- `nd6_ms` of a number of seconds -/
def nd6Ticks (hz seconds : UInt32) : UInt64 := ticksFromMs hz (seconds.toUInt64 * 1000)

/-- `nd6_lifetime` -/
def nd6Lifetime (hz seconds : UInt32) (now : UInt64) : UInt64 :=
  if seconds = nd6Infinite then 0 else now + nd6Ticks hz seconds

/-- `struct nd6_slaac_lifetimes` -/
structure SlaacLifetimes where
  now : UInt64
  valid : UInt32
  preferred : UInt32

/-- `nd6_slaac_refresh` -/
def nd6SlaacRefresh (hz : UInt32) (ifa : IfAddr) (l : SlaacLifetimes) : IfAddr :=
  if ifa.flags &&& ipv6AddrAutoconf = 0 then ifa
  else
    let flags := if l.preferred ≠ 0 then ifa.flags &&& ~~~ipv6AddrDeprecated else ifa.flags
    let twoHours := l.now + nd6Ticks hz nd6TwoHoursS
    let proposed := nd6Lifetime hz l.valid l.now
    let validUntil :=
      if proposed = 0 ∨ l.valid > nd6TwoHoursS ∨ (ifa.validUntil ≠ 0 ∧ proposed > ifa.validUntil) then proposed
      else if ifa.validUntil = 0 ∨ ifa.validUntil > twoHours then twoHours
      else ifa.validUntil
    { ifa with flags := flags, preferredUntil := nd6Lifetime hz l.preferred l.now, validUntil := validUntil }

/-- The ticks from `now` that an address stays valid, by the test of `ipv6_addr_expire`. -/
def IfAddr.remaining (ifa : IfAddr) (now : UInt64) : ℕ∞ :=
  if ifa.validUntil = 0 then ⊤ else ((ifa.validUntil.toNat - now.toNat : Nat) : ℕ∞)

/-- The tick counter is far enough from its end for every lifetime. -/
def Fits (hz : UInt32) (now : UInt64) : Prop := now.toNat + 2 ^ 32 * 1000 * (hz.toNat + 1) < 2 ^ 64

lemma IfAddr.le_remaining {ifa : IfAddr} {now : UInt64} {n : Nat}
    (h : ifa.validUntil = 0 ∨ n ≤ ifa.validUntil.toNat - now.toNat) : (n : ℕ∞) ≤ ifa.remaining now := by
  unfold remaining
  split
  · exact le_top
  rename_i h0
  exact Nat.cast_le.2 (h.resolve_left h0)

section

variable {hz : UInt32} {now : UInt64} (h : Fits hz now)

include h

lemma nd6Ticks_toNat (s : UInt32) : (nd6Ticks hz s).toNat = max 1 (s.toNat * 1000 * hz.toNat / 1000) := by
  have hs := s.toNat_lt
  have hle : s.toNat * 1000 * hz.toNat ≤ 2 ^ 32 * 1000 * hz.toNat := by gcongr
  have h1000 : (1000 : UInt64).toNat = 1000 := rfl
  unfold Fits at h
  have hms : (s.toUInt64 * 1000).toNat = s.toNat * 1000 := by
    rw [UInt64.toNat_mul, UInt32.toNat_toUInt64, h1000, Nat.mod_eq_of_lt (by omega)]
  have hprod : (s.toUInt64 * 1000 * hz.toUInt64 / 1000).toNat = s.toNat * 1000 * hz.toNat / 1000 := by
    rw [UInt64.toNat_div, UInt64.toNat_mul, hms, UInt32.toNat_toUInt64, h1000, Nat.mod_eq_of_lt (by omega)]
  unfold nd6Ticks ticksFromMs
  dsimp only
  split <;> rename_i h0
  · have hpos : (s.toUInt64 * 1000 * hz.toUInt64 / 1000).toNat ≠ 0 := fun he => h0 (UInt64.toNat_inj.1 he)
    omega
  rw [← hprod, not_not.1 h0]
  rfl

lemma toNat_add_nd6Ticks (s : UInt32) : (now + nd6Ticks hz s).toNat = now.toNat + (nd6Ticks hz s).toNat := by
  have hs := s.toNat_lt
  have hle : s.toNat * 1000 * hz.toNat ≤ 2 ^ 32 * 1000 * hz.toNat := by gcongr
  rw [UInt64.toNat_add]
  refine Nat.mod_eq_of_lt ?_
  rw [nd6Ticks_toNat h]
  unfold Fits at h
  omega

/-- A longer lifetime does not end sooner. -/
lemma nd6Lifetime_le {s t : UInt32} (hst : s ≤ t) :
    nd6Lifetime hz t now = 0 ∨ now.toNat + (nd6Ticks hz s).toNat ≤ (nd6Lifetime hz t now).toNat := by
  unfold nd6Lifetime
  split
  · exact .inl rfl
  refine .inr ?_
  have hle : s.toNat * 1000 * hz.toNat / 1000 ≤ t.toNat * 1000 * hz.toNat / 1000 := by
    have := UInt32.le_iff_toNat_le.1 hst
    gcongr
  rw [toNat_add_nd6Ticks h, nd6Ticks_toNat h, nd6Ticks_toNat h]
  omega

end

variable {hz : UInt32}

/-- Seen from a moment before it arrives, an advertisement leaves the rest of the lifetime or two hours. -/
lemma refresh_remaining (ifa : IfAddr) {l : SlaacLifetimes} {t : UInt64} (ht : t ≤ l.now) (h : Fits hz l.now) :
    min (ifa.remaining t) (nd6Ticks hz nd6TwoHoursS).toNat ≤ (nd6SlaacRefresh hz ifa l).remaining t := by
  have ht := UInt64.le_iff_toNat_le.1 ht
  unfold nd6SlaacRefresh
  split
  · exact min_le_left ..
  dsimp only
  generalize (if l.preferred ≠ 0 then _ else _) = flags
  split
  · rename_i hcond
    rcases hcond with h0 | hlong | ⟨hfin, hlater⟩
    · exact (min_le_right ..).trans (IfAddr.le_remaining (.inl h0))
    · refine (min_le_right ..).trans (IfAddr.le_remaining ?_)
      exact (nd6Lifetime_le h (UInt32.le_of_lt hlong)).imp_right fun hle => by dsimp only; omega
    refine (min_le_left ..).trans ?_
    rw [IfAddr.remaining, if_neg hfin]
    have := UInt64.lt_iff_toNat_lt.1 hlater
    exact IfAddr.le_remaining (.inr (by dsimp only; omega))
  · split
    · refine (min_le_right ..).trans (IfAddr.le_remaining (.inr ?_))
      rw [toNat_add_nd6Ticks h]
      omega
    · exact min_le_left ..

/-- Whatever advertisements arrive from `t` on, the rest of the lifetime at `t`, or two hours, is left. -/
theorem two_hour_rule (ifa : IfAddr) (t : UInt64) (ls : List SlaacLifetimes) (h : ∀ l ∈ ls, t ≤ l.now ∧ Fits hz l.now) :
    min (ifa.remaining t) (nd6Ticks hz nd6TwoHoursS).toNat ≤ (ls.foldl (nd6SlaacRefresh hz) ifa).remaining t := by
  induction ls generalizing ifa with
  | nil => exact min_le_left ..
  | cons l ls ih =>
    obtain ⟨ht, hl⟩ := h l List.mem_cons_self
    have hrest := ih (nd6SlaacRefresh hz ifa l) fun m hm => h m (List.mem_cons_of_mem l hm)
    exact (le_min (refresh_remaining ifa ht hl) (min_le_right ..)).trans hrest

/-- An address without a deadline, at 100 ticks a second, and one advertisement of no lifetime. -/
theorem two_hour_rule_zero : 720000 ≤
    (([⟨5, 0, 0⟩] : List SlaacLifetimes).foldl (nd6SlaacRefresh 100) ⟨1, 64, ipv6AddrAutoconf, 0, 0⟩).remaining 5 := by
  refine (le_min le_top le_rfl).trans (@two_hour_rule 100 ⟨1, 64, ipv6AddrAutoconf, 0, 0⟩ 5 [⟨5, 0, 0⟩] fun l hl => ?_)
  cases List.mem_singleton.1 hl
  exact ⟨by decide, by unfold Fits; decide⟩

/-- At the end of the tick counter two hours wrap round. -/
theorem two_hours_wrap : (⟨1, 64, ipv6AddrAutoconf, 0, 0⟩ : IfAddr).remaining (2 ^ 64 - 2) = ⊤ ∧
    (nd6SlaacRefresh 100 ⟨1, 64, ipv6AddrAutoconf, 0, 0⟩ ⟨2 ^ 64 - 2, 0, 0⟩).remaining (2 ^ 64 - 2) = 0 := by
  have h : (nd6SlaacRefresh 100 ⟨1, 64, ipv6AddrAutoconf, 0, 0⟩ ⟨2 ^ 64 - 2, 0, 0⟩).validUntil = 719998 := by decide +kernel
  have hpast : (719998 : UInt64).toNat - (2 ^ 64 - 2 : UInt64).toNat = 0 := by decide +kernel
  refine ⟨if_pos rfl, ?_⟩
  rw [IfAddr.remaining, h, if_neg (by decide), hpast, Nat.cast_zero]

end Hermes.L3
