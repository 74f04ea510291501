import Hermes.Core.LTS
import Hermes.L3Net.Routes

/-!
# Connected routes

Over the calls that configure and remove addresses, in any order and on any interfaces. As long as an address that goes
was the last one that wanted the route of its prefix, every prefix that is wanted has a route, to an interface with an
address in it, and no other prefix has one. Otherwise the first address that goes takes the route of the others.
-/
namespace Hermes.L3

open Function

variable {w : Nat}

inductive AddrLabel (w : Nat)
  | add (mem : Bool × Bool) (loopback : Bool) (addr : BitVec w) (ia : IfAddr)
  | del (nif : Nat) (addr : BitVec w)

namespace Family

variable (F : Family w) (s : AddrTable w)

def exec : AddrLabel w → AddrTable w
  | .add mem loopback addr ia => (F.addrAdd s mem loopback addr ia).2
  | .del nif addr => (F.addrDel s nif addr).2

/-- The address wants a route for the prefix `k`. -/
def Wants (a : BitVec w) (ia : IfAddr) (k : BitVec w × Nat) : Prop :=
  s.addrs a = some ia ∧ F.wantsRoute ia = true ∧ k = routeKey a ia.prefixLen

/-- The address that goes shares its prefix with no other. -/
def Last : AddrLabel w → Prop
  | .add .. => True
  | .del _ addr => ∀ ia k a ib, F.Wants s addr ia k → F.Wants s a ib k → a = addr

structure Connected : Prop where
  route : ∀ a ia k, F.Wants s a ia k → s.routes k ≠ none
  addr : ∀ k r, s.routes k = some r → ∃ a ia, F.Wants s a ia k ∧ ia.nif = r.nif

section

variable {F s} {t : AddrTable w} {addr a : BitVec w} {ia ib : IfAddr} {x : Option IfAddr} {y : Option (Route w)}
  {k : BitVec w × Nat}

lemma Changed.wants_iff (h : F.Changed s t addr ia x y) (ha : a ≠ addr) : F.Wants t a ib k ↔ F.Wants s a ib k := by
  unfold Wants
  rw [h.addrs, if_neg ha]

lemma addrAdd_spec (mem : Bool × Bool) (loopback : Bool) (addr : BitVec w) (ia : IfAddr) :
    (F.addrAdd s mem loopback addr ia).2 = s ∨ s.addrs addr = none ∧ ∃ ib r,
      F.Changed s (F.addrAdd s mem loopback addr ia).2 addr ib (some ib) (some r) ∧ r.nif = ib.nif := by
  unfold addrAdd
  generalize { ia with flags := F.newFlags loopback addr ia.flags } = ib
  dsimp only
  split
  · exact .inl rfl
  rename_i hok
  split
  · exact .inl rfl
  split
  · exact .inl rfl
  rename_i hnone
  have hnone : s.addrs addr = none := not_not.1 hnone
  split <;> rename_i hw
  · have hback : ({ s with addrs := update (update s.addrs addr (some ib)) addr none } : AddrTable w) = s := by
      rw [update_idem, ← hnone, update_eq_self]
    unfold AddrTable.routeAdd
    dsimp only
    rw [if_neg fun hlen => hok (.inl hlen)]
    split <;> rename_i hadd
    · split at hadd
      · cases hadd
        exact .inl hback
      · cases hadd
    split at hadd
    · cases hadd
    cases hadd
    exact .inr ⟨hnone, ib, _, ⟨update_apply _ _ _,
      fun k => (update_apply _ _ _ k).trans (if_congr (iff_and_self.2 fun _ => hw) rfl rfl)⟩, rfl⟩
  · exact .inr ⟨hnone, ib, ⟨0, ib.nif, 0⟩, ⟨update_apply _ _ _, fun k => by simp [hw]⟩, rfl⟩

lemma Connected.addrAdd (h : F.Connected s) (mem : Bool × Bool) (loopback : Bool) (addr : BitVec w) (ia : IfAddr) :
    F.Connected (F.addrAdd s mem loopback addr ia).2 := by
  rcases addrAdd_spec mem loopback addr ia with he | ⟨hnone, ib, r, hc, hnif⟩
  · rwa [he]
  have hnew := (hc.addrs addr).trans (if_pos rfl)
  refine ⟨fun a ia k hw => ?_, fun k r' hr => ?_⟩
  · rw [hc.routes]
    split
    · exact Option.some_ne_none r
    rename_i hk
    refine h.route a ia k ((hc.wants_iff ?_).1 hw)
    rintro rfl
    cases hnew.symm.trans hw.1
    exact hk hw.2
  rw [hc.routes] at hr
  split at hr
  · rename_i hk
    cases hr
    exact ⟨addr, ib, ⟨hnew, hk⟩, hnif.symm⟩
  obtain ⟨a, ia, hw, hn⟩ := h.addr k r' hr
  refine ⟨a, ia, (hc.wants_iff ?_).2 hw, hn⟩
  rintro rfl
  cases hnone.symm.trans hw.1

lemma Connected.addrDel (h : F.Connected s) {nif : Nat} (hlast : F.Last s (.del nif addr)) :
    F.Connected (F.addrDel s nif addr).2 := by
  rcases F.addrDel_spec s nif addr with ⟨he, -⟩ | ⟨ia, ha, -, hc⟩
  · rwa [he]
  refine ⟨fun a ib k hw => ?_, fun k r hr => ?_⟩
  · have hne : a ≠ addr := by
      rintro rfl
      cases ((hc.addrs a).trans (if_pos rfl)).symm.trans hw.1
    have hw := (hc.wants_iff hne).1 hw
    rw [hc.routes, if_neg fun hk => hne (hlast ia k a ib ⟨ha, hk⟩ hw)]
    exact h.route a ib k hw
  rw [hc.routes] at hr
  split at hr
  · cases hr
  rename_i hk
  obtain ⟨a, ib, hw, hn⟩ := h.addr k r hr
  refine ⟨a, ib, (hc.wants_iff ?_).2 hw, hn⟩
  rintro rfl
  cases ha.symm.trans hw.1
  exact hk hw.2

end

end Family

/-- The tables of both families, and the calls of either. -/
def addrExec (s : AddrTable 32 × AddrTable 128) : AddrLabel 32 ⊕ AddrLabel 128 → AddrTable 32 × AddrTable 128
  | .inl l => (ipv4.exec s.1 l, s.2)
  | .inr l => (s.1, ipv6.exec s.2 l)

def addrSystem : LTS (AddrTable 32 × AddrTable 128) (AddrLabel 32 ⊕ AddrLabel 128) := .ofFn (· = (.empty, .empty)) addrExec

/-- No address goes that shares its prefix. -/
def Unshared (s : AddrTable 32 × AddrTable 128) : AddrLabel 32 ⊕ AddrLabel 128 → Prop :=
  Sum.elim (ipv4.Last s.1) (ipv6.Last s.2)

lemma Family.Connected.exec {F : Family w} {s : AddrTable w} (h : F.Connected s) {l : AddrLabel w} (hl : F.Last s l) :
    F.Connected (F.exec s l) := by
  cases l with
  | add mem loopback addr ia => exact h.addrAdd mem loopback addr ia
  | del nif addr => exact h.addrDel hl

theorem connected_routes {s : AddrTable 32 × AddrTable 128} (hr : (addrSystem.restrict Unshared).Reachable s) :
    ipv4.Connected s.1 ∧ ipv6.Connected s.2 := by
  have hempty : ∀ {w : Nat} (F : Family w), F.Connected .empty := fun F =>
    ⟨fun _ _ _ hw => absurd hw.1 (Option.some_ne_none _).symm, fun _ _ he => absurd he (Option.some_ne_none _).symm⟩
  refine LTS.Inductive.reachable (I := fun s => ipv4.Connected s.1 ∧ ipv6.Connected s.2) ⟨?_, ?_⟩ hr
  · rintro s rfl
    exact ⟨hempty ipv4, hempty ipv6⟩
  rintro s l t h ⟨hl, rfl⟩
  cases l with
  | inl l => exact ⟨h.1.exec hl, h.2⟩
  | inr l => exact ⟨h.1, h.2.exec hl⟩

/-- 10.0.0.1 and 10.0.0.2 of one prefix on interface 1. -/
def twoAddrs : List (AddrLabel 32 ⊕ AddrLabel 128) :=
  [.inl (.add (true, true) false 0x0A000001 ⟨1, 24, 0, 0, 0⟩), .inl (.add (true, true) false 0x0A000002 ⟨1, 24, 0, 0, 0⟩)]

/-- 10.0.1.1 of another prefix comes and goes. -/
def threeAddrs : List (AddrLabel 32 ⊕ AddrLabel 128) :=
  twoAddrs ++ [.inl (.add (true, true) false 0x0A000101 ⟨1, 24, 0, 0, 0⟩), .inl (.del 1 0x0A000101)]

theorem connected_routes_threeAddrs : (threeAddrs.foldl addrExec (.empty, .empty)).1.addrs 0x0A000101 = none ∧
    (threeAddrs.foldl addrExec (.empty, .empty)).1.routes (0x0A000000, 24) ≠ none := by
  have hr : (addrSystem.restrict Unshared).Reachable (threeAddrs.foldl addrExec (.empty, .empty)) := by
    refine LTS.reachable_ofFn rfl ⟨trivial, trivial, trivial, fun ia k a ib h1 h2 => ?_, trivial⟩
    obtain rfl : k = (0x0A000100, 24) := by
      obtain ⟨ha, -, hk⟩ := h1
      obtain rfl := Option.some.inj ha.symm
      exact hk.trans (by decide +kernel)
    by_contra hne
    obtain ⟨ha, -, hk⟩ := h2
    change update (update (update (fun _ => none) 0x0A000001 _) 0x0A000002 _) 0x0A000101 _ a = some ib at ha
    rw [update_of_ne hne] at ha
    have hone : ib = ⟨1, 24, 0, 0, 0⟩ ∧ (a = 0x0A000001 ∨ a = 0x0A000002) := by
      simp only [update_apply] at ha
      split at ha
      · exact ⟨(Option.some.inj ha).symm, .inr ‹_›⟩
      split at ha
      · exact ⟨(Option.some.inj ha).symm, .inl ‹_›⟩
      · cases ha
    obtain ⟨rfl, rfl | rfl⟩ := hone <;> revert hk <;> decide +kernel
  exact ⟨by decide +kernel,
    (connected_routes hr).1.route 0x0A000001 ⟨1, 24, 0, 0, 0⟩ _ ⟨by decide +kernel, rfl, by decide +kernel⟩⟩

/-- The second goes, and the first has no route. -/
theorem shared_route_gone : ∃ s, addrSystem.Reachable s ∧ ipv4.Wants s.1 0x0A000001 ⟨1, 24, 0, 0, 0⟩ (0x0A000000, 24) ∧
    s.1.routes (0x0A000000, 24) = none := by
  refine ⟨_, ⟨_, _, rfl, LTS.run_ofFn _ _ (twoAddrs ++ [.inl (.del 1 0x0A000002)]) _⟩, ⟨?_, rfl, ?_⟩, ?_⟩
  · decide +kernel
  · decide +kernel
  · decide +kernel

end Hermes.L3
