import Mathlib

/-!
# Pieces that arrive in any order

Something is cut into pieces, each with an offset and a length. They arrive in any order and are kept sorted by their
offset; when they follow one another without a gap from the start to the end, the whole is there. `Tiles` is such a cut,
and what has arrived of it is a `filter` of the list of its pieces.
-/
namespace Hermes

open Function List

section Pieces

variable {β γ : Type*} (off len : β → Nat)

/-- Where the pieces end if they follow one another from `e` without a gap. -/
def endOf : Nat → List β → Option Nat
  | e, [] => some e
  | e, b :: bs => if off b = e then endOf (e + len b) bs else none

/-- The pieces cover what is between `a` and `z`, one after another, and none is empty. -/
def Tiles : Nat → List β → Nat → Prop
  | a, [], z => a = z
  | a, b :: bs, z => off b = a ∧ 0 < len b ∧ Tiles (a + len b) bs z

/-- A piece goes before the first that does not start earlier. -/
def insertPiece (b : β) (bs : List β) : List β :=
  bs.takeWhile (fun c => off c < off b) ++ b :: bs.dropWhile fun c => off c < off b

variable {off len} {a z : Nat} {bs : List β} {b c : β}

lemma endOf_map {off len : γ → Nat} (f : β → γ) (e : Nat) (bs : List β) :
    endOf off len e (bs.map f) = endOf (off ∘ f) (len ∘ f) e bs := by
  induction bs generalizing e with
  | nil => rfl
  | cons b bs ih => simp only [map_cons, endOf, comp_apply, ih]

lemma insertPiece_map {off : γ → Nat} (f : β → γ) (b : β) (bs : List β) :
    insertPiece off (f b) (bs.map f) = (insertPiece (off ∘ f) b bs).map f := by
  simp only [insertPiece, takeWhile_map, dropWhile_map, map_append, map_cons, comp_def]

variable {α : Type*}

/-- Pieces that follow one another without a gap, put together: what is at a place comes from the piece that covers it. -/
lemma flatten_of_endOf {data : β → List α} (hlen : ∀ b ∈ bs, (data b).length = len b)
    (h : endOf off len a bs = some z) : a ≤ z ∧ (bs.map data).flatten.length = z - a ∧ ∀ k, a ≤ k → k < z → ∃ b ∈ bs,
    off b ≤ k ∧ k < off b + len b ∧ (bs.map data).flatten[k - a]? = (data b)[k - off b]? := by
  induction bs generalizing a with
  | nil =>
    obtain rfl : a = z := Option.some.inj h
    exact ⟨le_rfl, by simp, fun k hak hka => absurd hka (by omega)⟩
  | cons b bs ih =>
    rw [endOf] at h
    split at h
    swap
    · cases h
    rename_i hb
    obtain ⟨hle, htotal, hat⟩ := ih (fun c hc => hlen c (mem_cons_of_mem b hc)) h
    have hb' := hlen b mem_cons_self
    rw [map_cons, flatten_cons]
    refine ⟨by omega, by rw [length_append, htotal, hb']; omega, fun k hak hkz => ?_⟩
    by_cases hk : k < a + len b
    · refine ⟨b, mem_cons_self, by omega, by omega, ?_⟩
      rw [List.getElem?_append_left (by omega), hb]
    obtain ⟨c, hc, hck, hkc, he⟩ := hat k (by omega) hkz
    refine ⟨c, mem_cons_of_mem b hc, hck, hkc, ?_⟩
    rw [List.getElem?_append_right (by omega), hb', Nat.sub_sub]
    exact he

lemma mem_insertPiece : c ∈ insertPiece off b bs ↔ c = b ∨ c ∈ bs := by
  rw [insertPiece, mem_append, mem_cons, or_left_comm, ← mem_append, takeWhile_append_dropWhile]

lemma length_insertPiece : (insertPiece off b bs).length = bs.length + 1 := by
  rw [insertPiece, length_append, length_cons, ← add_assoc, ← length_append, takeWhile_append_dropWhile]

namespace Tiles

section

variable (h : Tiles off len a bs z)
include h

lemma endOf_eq : endOf off len a bs = some z := by
  induction bs generalizing a with
  | nil => exact congrArg some h
  | cons b bs ih =>
    obtain ⟨hb, -, h⟩ := h
    rw [endOf, if_pos hb]
    exact ih h

lemma le : a ≤ z := by
  induction bs generalizing a with
  | nil => exact le_of_eq h
  | cons b bs ih =>
    have := ih h.2.2
    omega

lemma mem_le (hb : b ∈ bs) : a ≤ off b ∧ 0 < len b ∧ off b + len b ≤ z := by
  induction bs generalizing a with
  | nil => cases hb
  | cons c bs ih =>
    obtain ⟨hc, hpos, h⟩ := h
    rcases mem_cons.1 hb with rfl | hb
    · have := h.le
      omega
    have := ih h hb
    omega

lemma eq_or_apart (hb : b ∈ bs) (hc : c ∈ bs) : b = c ∨ off b + len b ≤ off c ∨ off c + len c ≤ off b := by
  induction bs generalizing a with
  | nil => cases hb
  | cons d bs ih =>
    obtain ⟨hd, hpos, h⟩ := h
    rcases mem_cons.1 hb with rfl | hb'
    · rcases mem_cons.1 hc with rfl | hc'
      · exact .inl rfl
      have := h.mem_le hc'
      omega
    rcases mem_cons.1 hc with rfl | hc'
    · have := h.mem_le hb'
      omega
    · exact ih h hb' hc'

/-- Of two pieces the one that starts first ends before the other starts. -/
lemma apart (hb : b ∈ bs) (hc : c ∈ bs) (hlt : off b < off c) : off b + len b ≤ off c := by
  rcases h.eq_or_apart hb hc with rfl | hbc | hcb
  · omega
  · exact hbc
  · omega

lemma eq_of_off (hb : b ∈ bs) (hc : c ∈ bs) (he : off b = off c) : b = c := by
  have := h.mem_le hb
  have := h.mem_le hc
  exact (h.eq_or_apart hb hc).resolve_right (by omega)

end

/-- A piece that starts where a later one does not lie. -/
lemma not_mem_tail (h : Tiles off len a (b :: bs) z) : b ∉ bs := by
  intro hb
  have := h.2.2.mem_le hb
  have := h.1
  omega

variable {P : β → Bool}

section

variable (h : Tiles off len a bs z)
include h

lemma nodup : bs.Nodup := by
  induction bs generalizing a with
  | nil => exact nodup_nil
  | cons b bs ih => exact nodup_cons.2 ⟨h.not_mem_tail, ih h.2.2⟩

/-- The last piece ends where all do. -/
lemma exists_stop (hne : bs ≠ []) : ∃ b ∈ bs, off b + len b = z := by
  induction bs generalizing a with
  | nil => exact absurd rfl hne
  | cons b bs ih =>
    obtain ⟨hb, -, h⟩ := h
    by_cases hbs : bs = []
    · subst hbs
      have hz : a + len b = z := h
      exact ⟨b, mem_cons_self, by omega⟩
    · obtain ⟨c, hc, hstop⟩ := ih h hbs
      exact ⟨c, mem_cons_of_mem b hc, hstop⟩

/-- Where pieces that have arrived reach the end, all have. -/
lemma of_endOf_filter (he : endOf off len a (bs.filter P) = some z) : ∀ b ∈ bs, P b = true := by
  induction bs generalizing a with
  | nil =>
    intro b hb
    cases hb
  | cons c bs ih =>
    obtain ⟨hc, hpos, h⟩ := h
    cases hP : P c with
    | true =>
      rw [filter_cons_of_pos hP, endOf, if_pos hc] at he
      intro b hb
      rcases mem_cons.1 hb with rfl | hb
      · exact hP
      · exact ih h he b hb
    | false =>
      -- the gap that `c` leaves is not closed by a later piece
      rw [filter_cons_of_neg (by simp [hP])] at he
      cases hf : bs.filter P with
      | nil =>
        rw [hf] at he
        have hz : a = z := Option.some.inj he
        have := h.le
        omega
      | cons d ds =>
        have hd : d ∈ bs := (mem_filter.1 (hf ▸ mem_cons_self)).1
        have := h.mem_le hd
        rw [hf, endOf, if_neg (by omega)] at he
        cases he

/-- The pieces before which one that has not arrived goes all end before it, and the others start after it. -/
lemma dropWhile_filter (hb : b ∈ bs) (hP : P b = false) :
    ∀ c ∈ ((bs.filter P).dropWhile fun c => off c < off b).head?, off b + len b ≤ off c := by
  intro c hc
  have hmem : c ∈ bs.filter P := (dropWhile_sublist _).subset (mem_of_mem_head? hc)
  have hcb := mem_filter.1 hmem
  have hge : ¬ off c < off b := by
    have := List.head?_dropWhile_not (fun c => decide (off c < off b)) (bs.filter P)
    rw [Option.mem_def.1 hc] at this
    simpa using this
  have hne : off c ≠ off b := by
    intro he
    rw [h.eq_of_off hcb.1 hb he, hP] at hcb
    cases hcb.2
  exact h.apart hb hcb.1 (by omega)

lemma takeWhile_filter (hb : b ∈ bs) :
    ∀ c ∈ (bs.filter P).takeWhile fun c => off c < off b, off c + len c ≤ off b := by
  intro c hc
  have hlt : off c < off b := by simpa using mem_takeWhile_imp hc
  exact h.apart (mem_filter.1 ((takeWhile_sublist _).subset hc)).1 hb hlt

/-- The first piece that does not start before one that has arrived is that one. -/
lemma dropWhile_filter_of_arrived (hb : b ∈ bs) (hP : P b = true) :
    ((bs.filter P).dropWhile fun c => off c < off b).head? = some b := by
  induction bs generalizing a with
  | nil => cases hb
  | cons c bs ih =>
    obtain ⟨hc, hpos, htail⟩ := id h
    rcases mem_cons.1 hb with rfl | hmem
    · rw [filter_cons_of_pos hP, dropWhile_cons_of_neg (by simp)]
      rfl
    have hlt : off c < off b := by
      have := htail.mem_le hmem
      omega
    cases hPc : P c with
    | true =>
      rw [filter_cons_of_pos hPc, dropWhile_cons_of_pos (by simpa using hlt)]
      exact ih htail hmem
    | false =>
      rw [filter_cons_of_neg (by simp [hPc])]
      exact ih htail hmem

end

variable [DecidableEq β]

/-- A piece that had not arrived is put in its place. -/
lemma insertPiece_filter (h : Tiles off len a bs z) (hb : b ∈ bs) (hP : P b = false) :
    insertPiece off b (bs.filter P) = bs.filter fun c => P c || c = b := by
  induction bs generalizing a with
  | nil => cases hb
  | cons c bs ih =>
    obtain ⟨hc, hpos, htail⟩ := id h
    rcases mem_cons.1 hb with rfl | hmem
    · -- all later pieces start after it
      have hhead : ∀ d ∈ bs.filter P, ¬ off d < off b := by
        intro d hd
        have := htail.mem_le (mem_filter.1 hd).1
        omega
      have hrest : (bs.filter fun c => P c || c = b) = bs.filter P := by
        refine filter_congr fun d hd => ?_
        have hdb : d ≠ b := fun e => h.not_mem_tail (e ▸ hd)
        simp [hdb]
      rw [filter_cons_of_neg (by simp [hP]), filter_cons_of_pos (by simp), hrest, insertPiece]
      cases hf : bs.filter P with
      | nil => rfl
      | cons d ds =>
        have hd := hhead d (hf ▸ mem_cons_self)
        rw [takeWhile_cons_of_neg (by simpa using hd), dropWhile_cons_of_neg (by simpa using hd)]
        rfl
    · have hcb : c ≠ b := fun e => h.not_mem_tail (e ▸ hmem)
      have hlt : off c < off b := by
        have := htail.mem_le hmem
        omega
      cases hPc : P c with
      | true =>
        rw [filter_cons_of_pos hPc, filter_cons_of_pos (by simp [hPc]), ← ih htail hmem]
        simp only [insertPiece]
        rw [takeWhile_cons_of_pos (by simpa using hlt), dropWhile_cons_of_pos (by simpa using hlt)]
        rfl
      | false =>
        rw [filter_cons_of_neg (by simp [hPc]), filter_cons_of_neg (by simp [hPc, hcb])]
        exact ih htail hmem

omit [DecidableEq β] in
/-- The pieces of a list, put together. -/
lemma flatten_eq (xs : List α) (h : Tiles off len a bs z) :
    (bs.map fun b => (xs.drop (off b)).take (len b)).flatten = (xs.drop a).take (z - a) := by
  induction bs generalizing a with
  | nil =>
    have hz : a = z := h
    simp [hz]
  | cons b bs ih =>
    obtain ⟨hb, -, h⟩ := h
    have hle := h.le
    rw [map_cons, flatten_cons, ih h, hb, show z - a = len b + (z - (a + len b)) by omega, take_add, drop_drop]

end Tiles

end Pieces

/-! ## Delivery -/

section Deliveries

variable {β : Type*} [DecidableEq β] {all r bs : List β}

/-- Items arrive, `r` having arrived before. When all of `all` have arrived they are delivered and forgotten; for each
arrival, whether it completes a delivery. -/
def deliveries (all : List β) : List β → List β → List Bool
  | _, [] => []
  | r, b :: bs => if all ⊆ b :: r then true :: deliveries all [] bs else false :: deliveries all (b :: r) bs

lemma deliveries_none (h : ¬ all ⊆ r ++ bs) : (deliveries all r bs).count true = 0 := by
  induction bs generalizing r with
  | nil => rfl
  | cons b bs ih =>
    have hsub : b :: (r ++ bs) ⊆ r ++ b :: bs := perm_middle.symm.subset
    have hb : ¬ all ⊆ b :: r := fun hs => h (List.Subset.trans (List.Subset.trans hs (subset_append_left _ bs)) hsub)
    rw [deliveries, if_neg hb]
    exact ih fun hs => h (List.Subset.trans hs hsub)

/-- There is one delivery if all arrive, and not all again after they have. -/
lemma deliveries_once (h : all ⊆ r ++ bs) (hr : ¬ all ⊆ r)
    (hlast : ∀ pre post, bs = pre ++ post → all ⊆ r ++ pre → ¬ all ⊆ post) : (deliveries all r bs).count true = 1 := by
  induction bs generalizing r with
  | nil => exact absurd (by simpa using h) hr
  | cons b bs ih =>
    by_cases hb : all ⊆ b :: r
    · have hpost : ¬ all ⊆ bs := hlast [b] bs rfl (List.Subset.trans hb (perm_append_singleton b r).symm.subset)
      rw [deliveries, if_pos hb, count_cons_self, deliveries_none (by simpa using hpost)]
    rw [deliveries, if_neg hb]
    refine ih (List.Subset.trans h perm_middle.subset) hb fun pre post he hpre => ?_
    exact hlast (b :: pre) post (by rw [he]; rfl) (List.Subset.trans hpre perm_middle.symm.subset)

/-- Not all arrive again if one arrives only once. -/
lemma not_twice_of_count {b : β} (hb : b ∈ all) (h : bs.count b ≤ 1) :
    ∀ pre post, bs = pre ++ post → all ⊆ pre → ¬ all ⊆ post := by
  intro pre post he hpre hpost
  have h1 := count_pos_iff.2 (hpre hb)
  have h2 := count_pos_iff.2 (hpost hb)
  rw [he, count_append] at h
  omega

end Deliveries

end Hermes
