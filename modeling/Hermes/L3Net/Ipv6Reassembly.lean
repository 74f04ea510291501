import Hermes.L3Net.Ipv6Frag

/-!
# What comes of arbitrary IPv6 fragments

Whatever arrives, a queue holds only what fragments with its key brought (`Ipv6Queue.From`). A packet that is returned
has the headers of a first fragment, and each of its other bytes is that of a fragment which covers its place
(`Ipv6Sound`). Its length field is right where no first and last fragment of one packet are together too long for it.
-/
namespace Hermes.L3

open QueueTable List

/-! ## The place of the next header -/

lemma extLen_ge (nb : Bytes) (off : Nat) : 8 ≤ extLen nb off := by
  unfold extLen
  omega

lemma extLen_mod (nb : Bytes) (off : Nat) : extLen nb off % 8 = 0 := Nat.mul_mod_left _ _

/-- Where a next header is named: in the fixed header, or at the start of an extension header. -/
def NhField (field off : Nat) : Prop := (field = 6 ∧ off = 40) ∨ (40 ≤ field ∧ field % 8 = 0 ∧ field + 8 ≤ off)

variable {field off target prev : Nat} {nb w : Bytes}

lemma NhField.lt (h : NhField field off) : field < off := by
  unfold NhField at h
  omega

lemma prevNhLoop_field {n : Nat} (ho : 40 ≤ off ∧ off % 8 = 0) (hf : NhField field off)
    (h : prevNhLoop nb target n off field = some prev) : 40 ≤ target ∧ NhField prev target := by
  induction n generalizing off field with
  | zero =>
    rw [prevNhLoop] at h
    split at h
    · rename_i he
      cases h
      exact ⟨by omega, he ▸ hf⟩
    · cases h
  | succ n ih =>
    rw [prevNhLoop] at h
    have hge := extLen_ge nb off
    have hmod := extLen_mod nb off
    split at h
    · exact ih (by omega) (.inr (by omega)) h
    split at h
    · rename_i he
      cases h
      exact ⟨by omega, he ▸ hf⟩
    · cases h

lemma ipv6FindPrevNh_field (h : ipv6FindPrevNh nb target = some prev) : 40 ≤ target ∧ NhField prev target :=
  prevNhLoop_field (by decide) (.inl ⟨rfl, rfl⟩) h

/-! ## What a queue holds -/

/-- The first fragment of a packet, with the place of the next header that names the fragment header. -/
structure Ipv6First (a : Ipv6Input) (prevNh : Nat) : Prop where
  offset : a.offset = 0
  header : 40 ≤ a.fragOffset
  prev : ipv6FindPrevNh a.nb a.fragOffset = some prevNh

/-- The bytes are those of the first fragment but for the fields that are set anew. -/
def SameHeader (a : Ipv6Input) (prevNh : Nat) (hdr : Bytes) : Prop :=
  ∀ i < a.fragOffset, i ≠ 4 → i ≠ 5 → i ≠ prevNh → byteAt hdr i = byteAt a.nb i

/-- All that the queue with the key `k` holds was brought by fragments with that key. -/
structure Ipv6Queue.From (P : Ipv6Input → Prop) (k : List UInt8) (q : Ipv6Queue) : Prop where
  frags : ∀ f ∈ q.frags, ∃ a, P a ∧ a.key = k ∧ f = ⟨a.data, a.offset, a.len⟩
  first : q.unfrag = [] ∨ ∃ a, P a ∧ a.key = k ∧ Ipv6First a q.prevNh ∧ q.unfrag.length = a.fragOffset ∧
    q.nextHeader = byteAt a.nb a.fragOffset ∧ SameHeader a q.prevNh q.unfrag
  total : q.totalLen = 0 ∨ ∃ a, P a ∧ a.key = k ∧ a.more = false ∧ q.totalLen = a.offset + a.len

section Queue

variable {P : Ipv6Input → Prop} {k : List UInt8} {q : Ipv6Queue} {a : Ipv6Input} {prevNh : Nat}

namespace Ipv6Queue.From

lemma empty : Ipv6Queue.empty.From P k where
  frags _ hf := nomatch hf
  first := .inl rfl
  total := .inl rfl

lemma withTotal (h : q.From P k) (ha : P a) (hk : a.key = k) : (q.withTotal a).From P k := by
  unfold Ipv6Queue.withTotal
  split
  · exact h
  rename_i hm
  exact ⟨h.frags, h.first, .inr ⟨a, ha, hk, by simpa using hm, rfl⟩⟩

end Ipv6Queue.From

/-- What an accepted packet is like. -/
lemma ipv6Accepts_some (h : ipv6Accepts a = some prevNh) :
    a.fragOffset + 8 ≤ a.nb.length ∧ a.offset + a.len ≤ ipv6MaxPayload ∧ a.fragOffset ≤ ipv6MaxUnfrag ∧
      (a.offset = 0 → ipv6FindPrevNh a.nb a.fragOffset = some prevNh) := by
  unfold ipv6Accepts at h
  split at h
  · cases h
  split at h
  · cases h
  split at h
  · cases h
  split at h
  · cases h
  refine ⟨by omega, by omega, by omega, fun h0 => ?_⟩
  rw [if_pos h0] at h
  exact h

namespace Ipv6Queue.From

lemma withFirst (h : q.From P k) (ha : P a) (hk : a.key = k) (hacc : ipv6Accepts a = some prevNh) :
    (q.withFirst a prevNh).From P k := by
  obtain ⟨hlen, -, -, hprev⟩ := ipv6Accepts_some hacc
  unfold Ipv6Queue.withFirst
  split
  · rename_i h0
    refine ⟨h.frags, .inr ⟨a, ha, hk, ⟨h0, (ipv6FindPrevNh_field (hprev h0)).1, hprev h0⟩, ?_, rfl, ?_⟩, h.total⟩
    · exact length_take_of_le (by omega)
    · exact fun i hi _ _ _ => byteAt_take _ hi
  · exact h

lemma withFrag (h : q.From P k) (ha : P a) (hk : a.key = k) (hacc : ipv6Accepts a = some prevNh) :
    (q.withFrag a prevNh).From P k := by
  have hq := (h.withTotal ha hk).withFirst ha hk hacc
  refine ⟨fun f hf => ?_, hq.first, hq.total⟩
  rcases mem_insertPiece.1 hf with rfl | hf
  · exact ⟨a, ha, hk, rfl⟩
  · exact hq.frags f hf

end Ipv6Queue.From

@[simp] lemma Ipv6Queue.length_patched (q : Ipv6Queue) : q.patched.length = q.unfrag.length := by
  simp [Ipv6Queue.patched]

/-- The headers before the data are still those of the first fragment. -/
lemma SameHeader.patched (h : SameHeader a q.prevNh q.unfrag) : SameHeader a q.prevNh q.patched := by
  intro i hi h4 h5 hp
  rw [Ipv6Queue.patched, byteAt_putBe16_ne _ _ h4 h5, byteAt_set_ne _ _ hp]
  exact h i hi h4 h5 hp

lemma Ipv6Queue.From.patched (h : q.From P k) : Ipv6Queue.From P k { q with unfrag := q.patched } where
  __ := h
  first := by
    rcases h.first with he | ⟨a, ha, hk, hfirst, hlen, hnext, hsame⟩
    · have hnil : q.patched.length = 0 := by rw [q.length_patched, he, length_nil]
      exact .inl (eq_nil_of_length_eq_zero hnil)
    · exact .inr ⟨a, ha, hk, hfirst, by simpa using hlen, hnext, hsame.patched⟩

/-- The packet `w` is made of the headers of `a` and the data of received fragments, of which `b` is the last. -/
structure Ipv6MadeOf (P : Ipv6Input → Prop) (k : List UInt8) (a b : Ipv6Input) (prevNh : Nat) (w : Bytes) : Prop where
  received : P a ∧ a.key = k
  first : Ipv6First a prevNh
  last : P b ∧ b.key = k ∧ b.more = false
  length : w.length = a.fragOffset + (b.offset + b.len)
  field : be16At w 4 = (a.fragOffset - ipv6HeaderLen + (b.offset + b.len)) % 65536
  header : SameHeader a prevNh w
  next : byteAt w prevNh = byteAt a.nb a.fragOffset
  data : ∀ j < b.offset + b.len, ∃ c, P c ∧ c.key = k ∧ c.offset ≤ j ∧ j < c.offset + c.len ∧
    byteAt w (a.fragOffset + j) = byteAt c.data (j - c.offset)

/-- What `ipv6_reassemble_complete` returns, and leaves. -/
lemma Ipv6Queue.From.complete (h : q.From P k) (head : Bool) :
    (q.complete head).2.From P k ∧ ∀ w, (q.complete head).1 = some w → ∃ a b, Ipv6MadeOf P k a b q.prevNh w := by
  unfold Ipv6Queue.complete
  split
  · exact ⟨h, nofun⟩
  rename_i hne
  obtain ⟨hunfrag, htotal⟩ := not_or.1 hne
  split
  · exact ⟨h, nofun⟩
  rename_i hend
  split
  · exact ⟨h.patched, nofun⟩
  refine ⟨h.patched, fun w hw => ?_⟩
  cases hw
  obtain ⟨a, ha, hka, hfirst, hlen, hnext, hsame⟩ := h.first.resolve_left hunfrag
  obtain ⟨b, hb, hkb, hlast, hstop⟩ := h.total.resolve_left htotal
  have hfield := (ipv6FindPrevNh_field hfirst.prev).2
  have hhdr := hfirst.header
  have hpl : q.patched.length = a.fragOffset := q.length_patched.trans hlen
  have hdata : ∀ f ∈ q.frags, f.nb.length = f.len := by
    intro f hf
    obtain ⟨c, -, -, rfl⟩ := h.frags f hf
    rfl
  obtain ⟨-, hflat, hat⟩ := flatten_of_endOf hdata (not_not.1 hend)
  refine ⟨a, b, ⟨ha, hka⟩, hfirst, ⟨hb, hkb, hlast⟩, ?_, ?_, ?_, ?_, ?_⟩
  · rw [length_append, hpl, hflat, hstop, Nat.sub_zero]
  · rw [be16At_append_left _ (by omega), Ipv6Queue.patched, be16At_putBe16 (by rw [length_set]; omega), hlen, hstop]
  · intro i hi h4 h5 hp
    rw [byteAt_append_left _ (by omega)]
    exact hsame.patched i hi h4 h5 hp
  · -- the next header is not in the length field
    have hlt := hfield.lt
    have h45 : q.prevNh ≠ 4 ∧ q.prevNh ≠ 4 + 1 := by
      unfold NhField at hfield
      omega
    rw [byteAt_append_left _ (by omega), Ipv6Queue.patched, byteAt_putBe16_ne _ _ h45.1 h45.2, byteAt_set,
      if_pos ⟨rfl, by omega⟩, hnext]
  · intro j hj
    obtain ⟨f, hf, hle, hlt, he⟩ := hat j (Nat.zero_le j) (by omega)
    obtain ⟨c, hc, hkc, rfl⟩ := h.frags f hf
    refine ⟨c, hc, hkc, hle, hlt, ?_⟩
    rw [byteAt_append_right _ (by omega), hpl, Nat.add_sub_cancel_left]
    rw [Nat.sub_zero] at he
    simp only [byteAt, getD_eq_getElem?_getD, he]

end Queue

/-! ## What a run returns -/

/-- Every queue of the table holds what was received with its key. -/
def Ipv6Holds (P : Ipv6Input → Prop) (qs : Ipv6Queues) : Prop := ∀ x ∈ qs, x.2.From P x.1

section Run

variable {P : Ipv6Input → Prop} {qs : Ipv6Queues} {a : Ipv6Input} {mem : Ipv6Mem}

lemma Ipv6Holds.queue (h : Ipv6Holds P qs) (k : List UInt8) : ((lookup qs k).getD .empty).From P k := by
  cases hq : lookup qs k with
  | none => exact .empty
  | some q => exact h _ (mem_of_lookup hq)

/-- A packet arrives. -/
lemma Ipv6Holds.reassemble (h : Ipv6Holds P qs) (ha : P a) : Ipv6Holds P (ipv6Reassemble mem qs a).2 ∧
      ∀ w, (ipv6Reassemble mem qs a).1 = some w → ∃ c b prevNh, Ipv6MadeOf P a.key c b prevNh w := by
  have hroom : Ipv6Holds P (room qs a.key ipv6ReassembleMaxQueues) := fun x hx => h x (mem_room hx)
  unfold ipv6Reassemble
  split
  · exact ⟨h, by simp⟩
  rename_i hacc
  dsimp only
  split
  · exact ⟨hroom, by simp⟩
  split
  · exact ⟨fun x hx => hroom x (mem_remove hx), by simp⟩
  obtain ⟨hleft, hmade⟩ := ((h.queue a.key).withFrag ha rfl hacc).complete mem.head
  split
  · refine ⟨fun x hx => hroom x (mem_remove hx), fun w hw => ?_⟩
    obtain ⟨c, b, hcb⟩ := hmade w hw
    exact ⟨c, b, _, hcb⟩
  refine ⟨fun x hx => ?_, by simp⟩
  rcases mem_put hx with rfl | hx
  · exact hleft
  · exact hroom x hx

/-- Any packets arrive. -/
lemma Ipv6Holds.run {as : List Ipv6Arrival} (h : Ipv6Holds P qs) (has : ∀ a ∈ as, P a.toIpv6Input) :
    Ipv6Holds P (ipv6Run qs as) := by
  induction as generalizing qs with
  | nil => exact h
  | cons a as ih =>
    exact ih (h.reassemble (has a mem_cons_self)).1 fun b hb => has b (mem_cons_of_mem a hb)

end Run

/-- No first and last fragment of one packet are together too long for the length field. -/
def Ipv6Fits (rs : List Ipv6Input) : Prop := ∀ a ∈ rs, ∀ b ∈ rs, a.key = b.key → a.offset = 0 → b.more = false →
    a.fragOffset - ipv6HeaderLen + (b.offset + b.len) ≤ ipv6MaxPayload

/-- A packet that is as long as it says, and made of received fragments. -/
structure Ipv6Sound (rs : List Ipv6Input) (k : List UInt8) (w : Bytes) : Prop where
  field : be16At w 4 = w.length - ipv6HeaderLen
  short : w.length - ipv6HeaderLen ≤ ipv6MaxPayload
  made : ∃ a b prevNh, Ipv6MadeOf (· ∈ rs) k a b prevNh w

lemma Ipv6MadeOf.sound {rs : List Ipv6Input} {k : List UInt8} {a b : Ipv6Input} {prevNh : Nat}
    (h : Ipv6MadeOf (· ∈ rs) k a b prevNh w) (hfits : Ipv6Fits rs) : Ipv6Sound rs k w := by
  have hle : a.fragOffset - 40 + (b.offset + b.len) ≤ 65535 :=
    hfits a h.received.1 b h.last.1 (h.received.2.trans h.last.2.1.symm) h.first.offset h.last.2.2
  have hlen := h.length
  have hhdr := h.first.header
  refine ⟨?_, ?_, a, b, prevNh, h⟩
  · rw [h.field]
    simp only [ipv6HeaderLen]
    omega
  · simp only [ipv6HeaderLen, ipv6MaxPayload]
    omega

/-- A packet that is returned after any fragments have arrived. -/
lemma reassembled_sound {as : List Ipv6Arrival} {a : Ipv6Arrival}
    (hfits : Ipv6Fits ((as ++ [a]).map Ipv6Arrival.toIpv6Input))
    (h : (ipv6Reassemble a.mem (ipv6Run [] as) a.toIpv6Input).1 = some w) :
    Ipv6Sound ((as ++ [a]).map Ipv6Arrival.toIpv6Input) a.key w := by
  have hempty : Ipv6Holds (· ∈ (as ++ [a]).map Ipv6Arrival.toIpv6Input) [] := fun x hx => (nomatch hx)
  have hrun := hempty.run fun b hb => mem_map_of_mem (mem_append_left [a] hb)
  have ha : a.toIpv6Input ∈ (as ++ [a]).map Ipv6Arrival.toIpv6Input := by simp
  obtain ⟨c, b, prevNh, hmade⟩ := (hrun.reassemble ha).2 w h
  exact hmade.sound hfits

end Hermes.L3
