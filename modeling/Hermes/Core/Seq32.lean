import Mathlib

/-!
# 32-bit serial-number arithmetic

Sequence numbers are `UInt32` and compared through the sign of their
difference (the usual `(int)(a - b) < 0`), so the order is only an order
inside a window of `2^31` numbers. Proofs here never argue about wrapped
comparisons: every number is measured by its forward distance `dist u x`
from one base `u`, and the lemmas below turn each comparison and each
addition into the same fact about distances, which are plain naturals.
-/
namespace Hermes.Seq32

/-- A 32-bit word read as two's complement. -/
def int32 (x : UInt32) : Int := if x.toNat < 2 ^ 31 then x.toNat else (x.toNat : Int) - 2 ^ 32

def lt (a b : UInt32) : Bool := decide (int32 (a - b) < 0)
def leq (a b : UInt32) : Bool := decide (int32 (a - b) ≤ 0)
def gt (a b : UInt32) : Bool := decide (int32 (a - b) > 0)
def geq (a b : UInt32) : Bool := decide (int32 (a - b) ≥ 0)

/-- How far `b` lies ahead of `a`. -/
def dist (a b : UInt32) : Nat := (b - a).toNat

lemma dist_eq (a b : UInt32) : dist a b = (2 ^ 32 - a.toNat + b.toNat) % 2 ^ 32 := by simp [dist, UInt32.toNat_sub]

@[simp] lemma dist_self (a : UInt32) : dist a a = 0 := by simp [dist]

variable {a b u : UInt32}

lemma dist_eq_zero : dist a b = 0 ↔ a = b := by
  constructor
  · intro h
    have ha := a.toNat_lt
    have hb := b.toNat_lt
    rw [dist_eq] at h
    exact UInt32.toNat_inj.1 (by omega)
  · rintro rfl; exact dist_self a

lemma dist_inj (h : dist u a = dist u b) : a = b := by
  have ha := a.toNat_lt
  have hb := b.toNat_lt
  rw [dist_eq, dist_eq] at h
  exact UInt32.toNat_inj.1 (by omega)

/-- Moving a number forward moves its distance, while it stays below `2^32`. -/
lemma dist_add {n : UInt32} (h : dist u a + n.toNat < 2 ^ 32) : dist u (a + n) = dist u a + n.toNat := by
  rw [dist_eq] at h ⊢
  rw [dist_eq, UInt32.toNat_add]
  omega

lemma dist_add_self (u n : UInt32) : dist u (u + n) = n.toNat := by
  have hn := n.toNat_lt
  rw [dist_add (by rw [dist_self]; omega), dist_self, zero_add]

/-- The difference of two numbers is the difference of their distances. -/
lemma toNat_sub (h : dist u a ≤ dist u b) : (b - a).toNat = dist u b - dist u a := by
  have ha := a.toNat_lt
  rw [dist_eq, dist_eq] at h ⊢
  rw [UInt32.toNat_sub]
  omega

/-- Changing the base. -/
lemma dist_rebase (h : dist u a ≤ dist u b) : dist a b = dist u b - dist u a := toNat_sub h

lemma int32_sub (ha : dist u a < 2 ^ 31) (hb : dist u b < 2 ^ 31) : int32 (a - b) = (dist u a : Int) - dist u b := by
  have h2 := b.toNat_lt
  rw [dist_eq] at ha hb
  rw [dist_eq, dist_eq, int32, UInt32.toNat_sub]
  split <;> omega

section Window

variable {u a b : UInt32} (ha : dist u a < 2 ^ 31) (hb : dist u b < 2 ^ 31)
include ha hb

lemma lt_iff : lt a b = true ↔ dist u a < dist u b := by rw [lt, decide_eq_true_iff, int32_sub ha hb]; omega

lemma leq_iff : leq a b = true ↔ dist u a ≤ dist u b := by rw [leq, decide_eq_true_iff, int32_sub ha hb]; omega

lemma gt_iff : gt a b = true ↔ dist u b < dist u a := by rw [gt, decide_eq_true_iff, int32_sub ha hb]; omega

end Window

/-- A number ahead of `u` and not ahead of `m`, where `m` is within `2^31`
of `u`, lies in the interval from `u` to `m`. -/
lemma dist_of_gt_leq {m : UInt32} (hm : dist u m < 2 ^ 31) (h1 : gt a u = true)
    (h2 : gt a m = false) : 0 < dist u a ∧ dist u a ≤ dist u m := by
  have hb := m.toNat_lt
  rw [gt, decide_eq_true_iff] at h1
  rw [gt, decide_eq_false_iff_not] at h2
  rw [dist_eq] at hm ⊢
  rw [dist_eq]
  rw [int32, UInt32.toNat_sub] at h1 h2
  split at h1 <;> split at h2 <;> omega

/-- A number that does not lie behind `u` is at most `2^31` ahead of it. -/
lemma dist_lt_of_not_lt (h : lt a u = false) : dist u a < 2 ^ 31 := by
  have := (a - u).toNat_lt
  rw [lt, decide_eq_false_iff_not, int32] at h
  unfold dist
  split at h <;> omega

/-! ## Clamping, as C code writes it -/

lemma toNat_ite_lt (a b : UInt32) : (if a < b then a else b).toNat = min a.toNat b.toNat := by
  split <;> rename_i h <;> rw [UInt32.lt_iff_toNat_lt] at h <;> omega

lemma toNat_ite_gt (a b : UInt32) : (if a > b then b else a).toNat = min a.toNat b.toNat := by
  split <;> rename_i h <;> rw [gt_iff_lt, UInt32.lt_iff_toNat_lt] at h <;> omega

lemma toNat_ite_sub (a b : UInt32) : (if a > b then a - b else 0).toNat = a.toNat - b.toNat := by
  split
  · rename_i h
    exact UInt32.toNat_sub_of_le _ _ (UInt32.le_of_lt h)
  · rename_i h; rw [gt_iff_lt, UInt32.lt_iff_toNat_lt] at h; rw [UInt32.toNat_zero]; omega

end Hermes.Seq32
