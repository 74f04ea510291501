import Mathlib

/-!
# `memcpy`, `memset` and `memmove`

The memory primitives of `hardware/memory/alloc.c`. Memory is a function from addresses, which do not wrap around, to
bytes; a word is the function from its byte indices to its bytes, since what is loaded is stored again unchanged.
-/
namespace Hermes.L2.Memops

abbrev Mem := Nat → UInt8

/-- The word at `a`. -/
def load (m : Mem) (a : Nat) : Nat → UInt8 := fun j => m (a + j)

/-- A word of `k` bytes is stored at `a`. -/
def store (m : Mem) (a k : Nat) (w : Nat → UInt8) : Mem := fun x => if a ≤ x ∧ x < a + k then w (x - a) else m x

/-- The word that goes to an offset, from the memory as it is then. -/
abbrev Source := Mem → Nat → Nat → UInt8

/-- `rep movsb` and `rep stosb`, upwards -/
def rep (src : Source) (d : Nat) : Nat → Nat → Mem → Mem
  | _, 0, m => m
  | i, n + 1, m => rep src d (i + 1) n (store m (d + i) 1 (src m i))

/-- `rep movsb` downwards, from the last of the bytes at `d` and at `s` -/
def repDown (d s : Nat) : Nat → Mem → Mem
  | 0, m => m
  | n + 1, m => repDown d s n (store m (d + n) 1 (load m (s + n)))

/-- The loop of `memcpy` and `memset`: `while (d < last)`, where `i` is how far `d` and `s` have come. -/
def words (src : Source) (last d i : Nat) (m : Mem) : Mem :=
  if d + i < last then words src last d (i + 8) (store m (d + i) 8 (src m i)) else m
termination_by last - (d + i)

/-- The first and the last `k` bytes, both loaded before one is stored. -/
def ends (src : Source) (m : Mem) (d size k : Nat) : Mem :=
  let head := src m 0
  let tail := src m (size - k)
  store (store m d k head) (d + size - k) k tail

/-- The branches of `memcpy` and `memset` up to their `REP_THRESHOLD`. -/
def short (src : Source) (m : Mem) (d size : Nat) : Mem :=
  if 16 < size then
    let tail := src m (size - 8)
    let last := d + size - 8
    store (words src last d 0 m) last 8 tail
  else if 8 ≤ size then ends src m d size 8
  else if 4 ≤ size then ends src m d size 4
  else if 2 ≤ size then ends src m d size 2
  else if size ≠ 0 then store m d 1 (src m 0)
  else m

/-- The bytes at `s`. -/
def bytesAt (s : Nat) : Source := fun m i => load m (s + i)

/-- The bytes of a `uint64_t`, and of what a cast to a shorter type leaves of it. -/
def bytesOf (w : UInt64) : Nat → UInt8 := fun j => (w >>> (8 * j).toUInt64).toUInt8

/-- `MEMCPY_REP_THRESHOLD` and `MEMSET_REP_THRESHOLD` -/
abbrev repThreshold : Nat := 512

def memcpy (m : Mem) (d s size : Nat) : Mem :=
  if repThreshold < size then rep (bytesAt s) d 0 size m else short (bytesAt s) m d size

def memset (m : Mem) (d : Nat) (value : Int32) (size : Nat) : Mem :=
  let v := value.toUInt32.toUInt8
  let pattern := v.toUInt64 * 0x0101010101010101
  if repThreshold < size then rep (fun _ _ _ => v) d 0 size m else short (fun _ _ => bytesOf pattern) m d size

def memmove (m : Mem) (d s size : Nat) : Mem :=
  if d ≤ s ∨ s + size ≤ d then rep (bytesAt s) d 0 size m
  else if size ≠ 0 then repDown d s size m
  else m

/-- What was in the `n` bytes at `s` is in those at `d`, and the other bytes are unchanged. -/
def moved (m : Mem) (d s n : Nat) : Mem := fun x => if d ≤ x ∧ x < d + n then m (s + (x - d)) else m x

/-- The `n` bytes at `d` are `v`, and the others are unchanged. -/
def filled (m : Mem) (d n : Nat) (v : UInt8) : Mem := fun x => if d ≤ x ∧ x < d + n then v else m x

variable {m : Mem} {d s n k i : Nat} {w w' : Nat → UInt8} {src : Source}

lemma store_zero : store m d 0 w = m := by
  funext x
  exact if_neg (by omega)

/-- A word that begins inside or right behind what has been stored. -/
lemma store_over {a b : Nat} (h1 : b ≤ a) (h2 : a ≤ b + k) (hw : ∀ j < k, w' j = w (b + j)) :
    store (store m d a w) (d + b) k w' = store m d (b + k) w := by
  funext x
  simp only [store]
  split_ifs with hx
  · rw [hw _ (by omega)]
    congr 1
    omega
  all_goals first | omega | rfl

/-- After the bytes before it have been stored, the source still has the word of every offset. -/
def Feeds (src : Source) (m : Mem) (d n : Nat) (w : Nat → UInt8) : Prop :=
  ∀ a i j, a ≤ i → i + j < n → j < 8 → src (store m d a w) i j = w (i + j)

lemma Feeds.start (h : Feeds src m d n w) {j : Nat} (hn : i + j < n) (hj : j < 8) : src m i j = w (i + j) := by
  have := h 0 i j (Nat.zero_le i) hn hj
  rwa [store_zero] at this

lemma Feeds.step (h : Feeds src m d n w) (hk : k ≤ 8) (hn : i + k ≤ n) :
    store (store m d i w) (d + i) k (src (store m d i w) i) = store m d (i + k) w :=
  store_over (le_refl i) (by omega) fun j hj => h i i j (le_refl i) (by omega) (by omega)

lemma Feeds.rep (h : Feeds src m d n w) (hk : i + k = n) : rep src d i k (store m d i w) = store m d n w := by
  induction k generalizing i with
  | zero => rw [← hk, Memops.rep, Nat.add_zero]
  | succ k ih =>
    rw [Memops.rep, h.step (by decide) (by omega)]
    exact ih (by omega)

/-- The loop ends in the last word. -/
lemma Feeds.words (h : Feeds src m d n w) (hi : i ≤ n) : ∃ a, n - 8 ≤ a ∧ a ≤ n ∧
    words src (d + n - 8) d i (store m d i w) = store m d a w := by
  generalize hm : store m d i w = m'
  fun_induction Memops.words src (d + n - 8) d i m' with
  | case1 i m' hlt ih =>
    subst hm
    exact ih (by omega) (h.step (le_refl 8) (by omega)).symm
  | case2 i m' hlt => exact ⟨i, by omega, hi, hm.symm⟩

/-- The last word overlaps what has been stored before it. -/
lemma Feeds.last {a : Nat} (h : Feeds src m d n w) (hk : k ≤ n) (h8 : k ≤ 8) (h1 : n - k ≤ a) (h2 : a ≤ n) :
    store (store m d a w) (d + n - k) k (src m (n - k)) = store m d n w := by
  have hs := store_over (m := m) (d := d) h1 (by omega) fun j (hj : j < k) => h.start (i := n - k) (by omega) (by omega)
  rwa [Nat.sub_add_cancel hk, ← Nat.add_sub_assoc hk] at hs

lemma Feeds.first (h : Feeds src m d n w) (hk : k ≤ n) (h8 : k ≤ 8) : store m d k (src m 0) = store m d k w := by
  have := h.step (i := 0) h8 (by omega)
  rwa [store_zero, Nat.zero_add] at this

lemma Feeds.ends (h : Feeds src m d n w) (hk : k ≤ n) (h8 : k ≤ 8) (hn : n ≤ 2 * k) :
    ends src m d n k = store m d n w := by
  rw [Memops.ends, h.first hk h8]
  exact h.last hk h8 (by omega) hk

lemma Feeds.short (h : Feeds src m d n w) : short src m d n = store m d n w := by
  unfold Memops.short
  split
  · obtain ⟨a, h1, h2, hw⟩ := h.words (Nat.zero_le n)
    rw [store_zero] at hw
    dsimp only
    rw [hw]
    exact h.last (by omega) (le_refl 8) h1 h2
  split
  · exact h.ends (by omega) (by decide) (by omega)
  split
  · exact h.ends (by omega) (by decide) (by omega)
  split
  · exact h.ends (by omega) (by decide) (by omega)
  split
  · rw [h.first (by omega) (by decide), show n = 1 by omega]
  · rw [show n = 0 by omega, store_zero]

lemma feeds_bytesAt (h : d ≤ s ∨ s + n ≤ d) : Feeds (bytesAt s) m d n (load m s) := by
  intro a i j ha hn _
  simp only [bytesAt, load, store]
  rw [if_neg (by omega), Nat.add_assoc]

lemma bytesOf_pattern (v : UInt8) : ∀ j < 8, bytesOf (v.toUInt64 * 0x0101010101010101) j = v := by
  have h : ∀ i < 256, ∀ j < 8, bytesOf ((UInt8.ofNat i).toUInt64 * 0x0101010101010101) j = UInt8.ofNat i := by
    decide +kernel
  intro j hj
  have := h v.toNat v.toNat_lt j hj
  rwa [UInt8.ofNat_toNat] at this

lemma repDown_eq (h : s ≤ d) : repDown d s n m = store m d n (load m s) := by
  induction n generalizing m with
  | zero => exact store_zero.symm
  | succ n ih =>
    rw [repDown, ih]
    funext x
    simp only [store, load]
    split_ifs <;> first | omega | (congr 1; omega) | rfl

lemma rep_eq (h : Feeds src m d n w) : rep src d 0 n m = store m d n w := by
  have := h.rep (Nat.zero_add n)
  rwa [store_zero] at this

/-- **The memory primitives.** `memcpy` of ranges that do not overlap and `memmove` of any two move the bytes as through
a copy of them, `memset` fills them with the low byte of its value; no other byte changes. -/
theorem memory_primitives (m : Mem) (d s n : Nat) (value : Int32) :
    (s + n ≤ d ∨ d + n ≤ s → memcpy m d s n = moved m d s n) ∧
    memmove m d s n = moved m d s n ∧ memset m d value n = filled m d n value.toUInt32.toUInt8 := by
  refine ⟨fun h => ?_, ?_, ?_⟩
  · unfold memcpy
    split
    · exact rep_eq (feeds_bytesAt (by omega))
    · exact (feeds_bytesAt (by omega)).short
  · unfold memmove
    split
    · rename_i h
      exact rep_eq (feeds_bytesAt h)
    split
    · exact repDown_eq (by omega)
    · rw [show n = 0 by omega]
      exact (store_zero (w := load m s)).symm
  · unfold memset
    dsimp only
    split
    · exact rep_eq (w := fun _ => _) fun _ _ _ _ _ _ => rfl
    · exact Feeds.short (w := fun _ => _) fun _ _ j _ _ hj => bytesOf_pattern _ j hj

theorem memory_primitives_apart : memcpy (fun x => UInt8.ofNat x) 100 0 20 = moved (fun x => UInt8.ofNat x) 100 0 20 :=
  (memory_primitives _ 100 0 20 0).1 (by decide)

end Hermes.L2.Memops
