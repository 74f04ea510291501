import Mathlib

/-!
# Packets as bytes

A `struct netbuf` chain is the list of the bytes it holds: `netbuf_copydata` reads at an offset, `netbuf_adj` drops bytes
at one end, `netbuf_cat` appends.
-/
namespace Hermes.L3

abbrev Bytes := List UInt8

/-- The byte at an offset; there is none past the end. -/
def byteAt (nb : Bytes) (i : Nat) : UInt8 := nb.getD i 0

/-- The 16-bit field at an offset, in network order. -/
def be16At (nb : Bytes) (i : Nat) : Nat := (byteAt nb i).toNat * 256 + (byteAt nb (i + 1)).toNat

def putBe16 (nb : Bytes) (i v : Nat) : Bytes := (nb.set i (UInt8.ofNat (v / 256))).set (i + 1) (UInt8.ofNat v)

variable {nb nb' : Bytes} {i j v : Nat}

@[simp] lemma length_putBe16 (nb : Bytes) (i v : Nat) : (putBe16 nb i v).length = nb.length := by simp [putBe16]

lemma byteAt_set (nb : Bytes) (i j : Nat) (x : UInt8) :
    byteAt (nb.set i x) j = if i = j ∧ i < nb.length then x else byteAt nb j := by
  simp only [byteAt]
  by_cases hij : i = j
  · subst hij
    by_cases hi : i < nb.length <;> simp [hi]
  · simp [hij]

lemma byteAt_set_ne (nb : Bytes) {i j : Nat} (x : UInt8) (h : j ≠ i) : byteAt (nb.set i x) j = byteAt nb j := by
  rw [byteAt_set, if_neg fun hij => h hij.1.symm]

lemma byteAt_putBe16_ne (nb : Bytes) (v : Nat) (h : j ≠ i) (h' : j ≠ i + 1) : byteAt (putBe16 nb i v) j = byteAt nb j := by
  rw [putBe16, byteAt_set_ne _ _ h', byteAt_set_ne _ _ h]

/-- The field has sixteen bits. -/
lemma be16At_putBe16 (h : i + 1 < nb.length) (v : Nat) : be16At (putBe16 nb i v) i = v % 65536 := by
  have h0 : byteAt (putBe16 nb i v) i = UInt8.ofNat (v / 256) := by
    rw [putBe16, byteAt_set_ne _ _ (by omega), byteAt_set, if_pos ⟨rfl, by omega⟩]
  have h1 : byteAt (putBe16 nb i v) (i + 1) = UInt8.ofNat v := by
    rw [putBe16, byteAt_set, if_pos ⟨rfl, by simpa using h⟩]
  rw [be16At, h0, h1, UInt8.toNat_ofNat', UInt8.toNat_ofNat']
  omega

lemma be16At_putBe16_same (h : i + 1 < nb.length) (hv : v < 65536) : be16At (putBe16 nb i v) i = v := by
  rw [be16At_putBe16 h, Nat.mod_eq_of_lt hv]

lemma be16At_putBe16_ne (nb : Bytes) (v : Nat) (h : j + 1 < i ∨ i + 1 < j) : be16At (putBe16 nb i v) j = be16At nb j := by
  rw [be16At, be16At, byteAt_putBe16_ne _ _ (by omega) (by omega), byteAt_putBe16_ne _ _ (by omega) (by omega)]

lemma be16At_lt (nb : Bytes) (i : Nat) : be16At nb i < 65536 := by
  have h0 := (byteAt nb i).toNat_lt
  have h1 := (byteAt nb (i + 1)).toNat_lt
  unfold be16At
  omega

lemma byteAt_append_left (nb' : Bytes) (h : i < nb.length) : byteAt (nb ++ nb') i = byteAt nb i := by
  simp [byteAt, List.getElem?_append_left h]

lemma byteAt_append_right (nb' : Bytes) (h : nb.length ≤ i) : byteAt (nb ++ nb') i = byteAt nb' (i - nb.length) := by
  simp [byteAt, List.getElem?_append_right h]

lemma be16At_append_left (nb' : Bytes) (h : i + 1 < nb.length) : be16At (nb ++ nb') i = be16At nb i := by
  rw [be16At, be16At, byteAt_append_left _ (by omega), byteAt_append_left _ h]

lemma byteAt_take (nb : Bytes) {n : Nat} (h : i < n) : byteAt (nb.take n) i = byteAt nb i := by simp [byteAt, h]

/-- Bytes of the same length that agree everywhere. -/
lemma ext_byteAt (hlen : nb.length = nb'.length) (h : ∀ i < nb.length, byteAt nb i = byteAt nb' i) : nb = nb' := by
  refine List.ext_getElem hlen fun i hi hi' => ?_
  have := h i hi
  rwa [byteAt, byteAt, List.getD_eq_getElem _ _ hi, List.getD_eq_getElem _ _ hi'] at this

lemma byteAt_eq_of_be16At (h : be16At nb i = be16At nb' i) :
    byteAt nb i = byteAt nb' i ∧ byteAt nb (i + 1) = byteAt nb' (i + 1) := by
  have h0 := (byteAt nb (i + 1)).toNat_lt
  have h1 := (byteAt nb' (i + 1)).toNat_lt
  unfold be16At at h
  exact ⟨UInt8.toNat_inj.1 (by omega), UInt8.toNat_inj.1 (by omega)⟩

end Hermes.L3
