import Hermes.L3Net.Ipv6Reassembly

/-!
# Fragmenting and reassembling an IPv6 packet

The fragments of `ipv6_fragment` cut the part behind the extension headers into pieces (`Ipv6Cut`). While some of them
have arrived, the queue holds exactly those (`Ipv6Held`), and with the last of them the packet is there again.

* `Ipv6Whole.ipv6Fragment`: what `ipv6_fragment` (ipv6.c:817) cuts.
* `ipv6_fragments_restored`: what `ipv6_reassemble` (ipv6.c:676) makes of the pieces, in any order and number.
-/
namespace Hermes.L3

open QueueTable List

/-! ## The extension headers -/

variable {prev n mtu : Nat} {as : List Ipv6Arrival}

lemma unfragLoop_field (nb : Bytes) (n : Nat) (nh : UInt8) {off : Nat} (ho : 40 ≤ off ∧ off % 8 = 0)
    (hf : NhField prev off) : off ≤ (unfragLoop nb n nh off prev).1 ∧
      NhField (unfragLoop nb n nh off prev).2 (unfragLoop nb n nh off prev).1 := by
  induction n generalizing nh off prev with
  | zero => exact ⟨le_rfl, hf⟩
  | succ n ih =>
    rw [unfragLoop]
    have hge := extLen_ge nb off
    have hmod := extLen_mod nb off
    split
    · have hnext : NhField off (off + extLen nb off) := .inr (by omega)
      have hrest := ih (byteAt nb off) (by omega) hnext
      exact ⟨by omega, hrest.2⟩
    · exact ⟨le_rfl, hf⟩

/-- The walk over the headers of a fragment finds what the walk over those of the packet found: the two differ in the
next header alone, and no length is there. -/
lemma prevNhLoop_unfragLoop {nb f : Bytes} {m off : Nat} {nh : UInt8} (ho : 40 ≤ off ∧ off % 8 = 0)
    (hf : NhField prev off) (hm : (unfragLoop nb n nh off prev).1 - off ≤ m)
    (hsame : ∀ o, 40 ≤ o → o % 8 = 0 → o + 1 < (unfragLoop nb n nh off prev).1 → byteAt f (o + 1) = byteAt nb (o + 1)) :
    prevNhLoop f (unfragLoop nb n nh off prev).1 m off prev = some (unfragLoop nb n nh off prev).2 := by
  induction n generalizing m nh off prev with
  | zero =>
    cases m with
    | zero => exact if_pos rfl
    | succ m => rw [prevNhLoop, unfragLoop, if_neg (lt_irrefl off), if_pos rfl]
  | succ n ih =>
    have hge := extLen_ge nb off
    have hmod := extLen_mod nb off
    rw [unfragLoop] at hm hsame ⊢
    split at hm <;> rename_i hc
    · rw [if_pos hc] at hsame ⊢
      have hnext : NhField off (off + extLen nb off) := .inr (by omega)
      have hle := (unfragLoop_field nb n (byteAt nb off) (by omega) hnext).1
      obtain ⟨m, rfl⟩ : ∃ m', m = m' + 1 := ⟨m - 1, by omega⟩
      have hext : extLen f off = extLen nb off := by
        unfold extLen
        rw [hsame off ho.1 ho.2 (by omega)]
      rw [prevNhLoop, if_pos (by omega), hext]
      exact ih (by omega) hnext (by omega) hsame
    · rw [if_neg hc]
      cases m with
      | zero => exact if_pos rfl
      | succ m => rw [prevNhLoop, if_neg (lt_irrefl off), if_pos rfl]

lemma ipv6UnfragLen_field (nb : Bytes) :
    40 ≤ (ipv6UnfragLen nb).1 ∧ NhField (ipv6UnfragLen nb).2 (ipv6UnfragLen nb).1 :=
  unfragLoop_field nb nb.length (byteAt nb 6) (by decide) (.inl ⟨rfl, rfl⟩)

/-! ## The fragments -/

/-- A packet whose length field is right. -/
structure Ipv6Whole (d : Bytes) : Prop where
  header : ipv6HeaderLen ≤ d.length
  field : be16At d 4 = d.length - ipv6HeaderLen

/-- The part of a packet that is cut. -/
def ipv6Payload (d : Bytes) : Bytes := d.drop (ipv6UnfragLen d).1

/-- The key of the fragments of a packet. -/
def ipv6Key (d id : Bytes) : List UInt8 :=
  (List.range 32).map (fun i => byteAt d (8 + i)) ++ (List.range 4).map fun i => byteAt id i

/-- A fragment of the packet `d`, with its fragment header behind the extension headers. -/
structure Ipv6FragmentOf (d id : Bytes) (a : Ipv6Input) : Prop where
  place : a.fragOffset = (ipv6UnfragLen d).1
  inside : a.fragOffset + 8 ≤ a.nb.length
  header : SameHeader a (ipv6UnfragLen d).2 d
  next : byteAt a.nb a.fragOffset = byteAt d (ipv6UnfragLen d).2
  key : a.key = ipv6Key d id
  more : a.more = decide (a.offset + a.len < (ipv6Payload d).length)
  units : a.more = true → a.len % 8 = 0
  data : a.data = ((ipv6Payload d).drop a.offset).take a.len

section FragmentAt

variable {hdr id piece : Bytes} {nh : UInt8} {off : Nat} {more : Bool}

lemma length_ipv6FragHeader (hid : id.length = 4) (v : Nat) : (ipv6FragHeader nh v id).length = 8 := by
  simp [ipv6FragHeader, hid]

/-- The bytes before the data of a fragment. -/
lemma byteAt_ipv6FragmentAt {i : Nat} (hi : i < hdr.length) (h4 : i ≠ 4) (h5 : i ≠ 5) :
    byteAt (ipv6FragmentAt hdr nh id off piece more) i = byteAt hdr i := by
  have hlen : i < (putBe16 hdr 4 (hdr.length - ipv6HeaderLen + 8 + piece.length)).length := by simpa using hi
  rw [ipv6FragmentAt, append_assoc, byteAt_append_left _ hlen, byteAt_putBe16_ne _ _ h4 h5]

lemma byteAt_ipv6FragmentAt_frag (hid : id.length = 4) {i : Nat} (hi : i < 8) :
    byteAt (ipv6FragmentAt hdr nh id off piece more) (hdr.length + i) =
      byteAt (ipv6FragHeader nh (off ||| if more then 1 else 0) id) i := by
  rw [ipv6FragmentAt, append_assoc, byteAt_append_right _ (by simp), length_putBe16, Nat.add_sub_cancel_left,
    byteAt_append_left _ (by rw [length_ipv6FragHeader hid]; exact hi)]

lemma offsetFlags_ipv6FragmentAt (hid : id.length = 4) (h8 : off % 8 = 0) (hlt : off < 65536) :
    be16At (ipv6FragmentAt hdr nh id off piece more) (hdr.length + 2) = off + if more then 1 else 0 := by
  have hor : (off ||| if more then 1 else 0) = off + if more then 1 else 0 := by
    have hb : (if more then 1 else 0) < 2 ^ 3 := by split <;> decide
    rw [← Nat.div_mul_cancel (Nat.dvd_of_mod_eq_zero h8), mul_comm (off / 8) 8]
    exact (Nat.two_pow_add_eq_or_of_lt hb (off / 8)).symm
  have hfield : be16At (ipv6FragHeader nh (off ||| if more then 1 else 0) id) 2 = off + if more then 1 else 0 := by
    have hv : (off + if more then 1 else 0) < 65536 := by split <;> omega
    rw [ipv6FragHeader, be16At_append_left _ (by simp), hor, be16At_putBe16_same (by simp) hv]
  rw [← hfield, be16At, be16At, byteAt_ipv6FragmentAt_frag hid (by decide), add_assoc,
    byteAt_ipv6FragmentAt_frag hid (by decide)]

lemma data_ipv6FragmentAt (hid : id.length = 4) :
    (ipv6FragmentAt hdr nh id off piece more).drop (hdr.length + 8) = piece := by
  refine drop_left' ?_
  rw [length_append, length_putBe16, length_ipv6FragHeader hid]

end FragmentAt

variable {d id : Bytes} {off : Nat} {frags : List Bytes}

/-- What the loop makes at `off` is a fragment. -/
lemma ipv6FragmentAt_fragmentOf (piece : Bytes) (hu : (ipv6UnfragLen d).1 ≤ d.length)
    (hmax : (ipv6Payload d).length < 65536) (hid : id.length = 4) (h8 : off % 8 = 0) (hoff : off < (ipv6Payload d).length)
    (hpiece : piece = ((ipv6Payload d).drop off).take piece.length)
    (hunits : off + piece.length < (ipv6Payload d).length → piece.length % 8 = 0) {a : Ipv6Input}
    (ha : a = ⟨ipv6FragmentAt ((d.take (ipv6UnfragLen d).1).set (ipv6UnfragLen d).2 nhFragment)
      (byteAt d (ipv6UnfragLen d).2) id off piece (off + piece.length < (ipv6Payload d).length), (ipv6UnfragLen d).1⟩) :
    Ipv6FragmentOf d id a ∧ a.offset = off ∧ a.len = piece.length := by
  set hdr := (d.take (ipv6UnfragLen d).1).set (ipv6UnfragLen d).2 nhFragment with hhdr
  have hlen : hdr.length = (ipv6UnfragLen d).1 := by
    rw [hhdr, length_set]
    exact length_take_of_le hu
  rw [← hlen] at ha
  obtain ⟨h40, hfield⟩ := ipv6UnfragLen_field d
  have hflags : a.offsetFlags = off + if off + piece.length < (ipv6Payload d).length then 1 else 0 := by
    rw [ha, Ipv6Input.offsetFlags]
    simpa using @offsetFlags_ipv6FragmentAt hdr id piece (byteAt d (ipv6UnfragLen d).2) off
      (off + piece.length < (ipv6Payload d).length) hid h8 (by omega)
  have hoffset : a.offset = off := by
    rw [Ipv6Input.offset, hflags]
    split <;> omega
  have hdata : a.data = piece := by
    rw [ha]
    exact data_ipv6FragmentAt hid
  have halen : a.len = piece.length := congrArg List.length hdata
  have hmore : a.more = decide (off + piece.length < (ipv6Payload d).length) := by
    rw [Ipv6Input.more, hflags]
    by_cases h : off + piece.length < (ipv6Payload d).length
    · rw [if_pos h]
      exact decide_eq_decide.2 (by omega)
    rw [if_neg h]
    exact decide_eq_decide.2 (by omega)
  have hat : ∀ i < hdr.length, i ≠ 4 → i ≠ 5 → byteAt a.nb i = byteAt hdr i := by
    intro i hi h4 h5
    rw [ha]
    exact byteAt_ipv6FragmentAt hi h4 h5
  have hsame : SameHeader a (ipv6UnfragLen d).2 d := by
    intro i hi h4 h5 hp
    have hi : i < hdr.length := by rwa [ha] at hi
    rw [hat i hi h4 h5, hhdr, byteAt_set_ne _ _ hp, byteAt_take _ (by omega)]
  have hfo : a.fragOffset = hdr.length := by rw [ha]
  refine ⟨⟨hfo.trans hlen, ?_, hsame, ?_, ?_, ?_, ?_, ?_⟩, hoffset, halen⟩
  · rw [ha]
    simp only [ipv6FragmentAt, length_append, length_putBe16, length_ipv6FragHeader hid]
    omega
  · rw [hfo, ha]
    exact byteAt_ipv6FragmentAt_frag (i := 0) hid (by decide)
  · -- the addresses and the identification are neither the length nor a next header
    unfold Ipv6Input.key ipv6Key
    congr 1
    · refine map_congr_left fun i hi => ?_
      have hi := mem_range.1 hi
      refine (hsame (8 + i) (by omega) (by omega) (by omega) ?_).symm
      unfold NhField at hfield
      omega
    refine map_congr_left fun i hi => ?_
    have hi := mem_range.1 hi
    rw [hfo, ha, add_assoc, byteAt_ipv6FragmentAt_frag hid (by omega), ipv6FragHeader, byteAt_append_right _ (by simp)]
    simp
  · rw [hmore, hoffset, halen]
  · intro hm
    rw [hmore, decide_eq_true_eq] at hm
    rw [halen]
    exact hunits hm
  · rw [hdata, hoffset, halen]
    exact hpiece

/-- The fragments of a packet. -/
structure Ipv6Cut (d id : Bytes) (frags : List Ipv6Input) : Prop where
  whole : Ipv6Whole d
  inside : (ipv6UnfragLen d).1 ≤ d.length
  unfrag : (ipv6UnfragLen d).1 ≤ ipv6MaxUnfrag
  fragments : ∀ a ∈ frags, Ipv6FragmentOf d id a
  tiles : Tiles Ipv6Input.offset Ipv6Input.len 0 frags (ipv6Payload d).length

/-- The fragments as they arrive. -/
def ipv6Inputs (d : Bytes) (frags : List Bytes) : List Ipv6Input := frags.map fun f => ⟨f, (ipv6UnfragLen d).1⟩

/-- The loop, from `off` on. -/
lemma ipv6FragmentLoop_cut {data : Bytes} {chunk : Nat} (hu : (ipv6UnfragLen d).1 ≤ d.length)
    (hmax : (ipv6Payload d).length < 65536) (hid : id.length = 4) (hchunk : 0 < chunk ∧ chunk % 8 = 0)
    (h8 : off % 8 = 0) (hoff : off ≤ (ipv6Payload d).length) (hdata : data = (ipv6Payload d).drop off)
    (hn : data.length ≤ n)
    (hfrags : frags = ipv6FragmentLoop ((d.take (ipv6UnfragLen d).1).set (ipv6UnfragLen d).2 nhFragment)
      (byteAt d (ipv6UnfragLen d).2) id chunk n off data) :
    (∀ a ∈ ipv6Inputs d frags, Ipv6FragmentOf d id a) ∧
      Tiles Ipv6Input.offset Ipv6Input.len off (ipv6Inputs d frags) (ipv6Payload d).length := by
  have hlen : data.length = (ipv6Payload d).length - off := by rw [hdata, length_drop]
  induction n generalizing off data frags with
  | zero =>
    obtain rfl : data = [] := eq_nil_of_length_eq_zero (by omega)
    subst hfrags
    refine ⟨fun a ha => (nomatch ha), ?_⟩
    rw [length_nil] at hlen
    exact show off = _ by omega
  | succ n ih =>
    cases hcons : data with
    | nil =>
      rw [hcons, ipv6FragmentLoop] at hfrags
      subst hfrags
      refine ⟨fun a ha => (nomatch ha), ?_⟩
      rw [hcons, length_nil] at hlen
      exact show off = _ by omega
    | cons x xs =>
      have hpos : 0 < data.length := by rw [hcons]; exact Nat.succ_pos _
      rw [hcons, ipv6FragmentLoop, ← hcons] at hfrags
      have htake : (data.take chunk).length = min chunk data.length := length_take
      have hmore : (chunk < data.length) = (off + (data.take chunk).length < (ipv6Payload d).length) := by
        rw [htake]
        exact propext (by omega)
      obtain ⟨hfrag, hoffset, halen⟩ := ipv6FragmentAt_fragmentOf (data.take chunk) hu hmax hid h8
        (by omega) (by rw [htake, ← hdata, take_eq_take_iff]; omega) (by omega) rfl
      have hlt : 0 < (data.take chunk).length := by omega
      by_cases hlast : data.length ≤ chunk
      · -- the last fragment: nothing is left
        rw [drop_eq_nil_of_le hlast, ipv6FragmentLoop] at hfrags
        simp only [hmore] at hfrags
        subst hfrags
        refine ⟨fun a ha => ?_, hoffset, hlt.trans_eq halen.symm, ?_⟩
        · obtain rfl := mem_singleton.1 ha
          exact hfrag
        · exact (congrArg (off + ·) halen).trans (by omega)
      obtain ⟨hrest, htiles⟩ := ih (show (off + chunk) % 8 = 0 by omega) (by omega)
        (show data.drop chunk = _ by rw [hdata, drop_drop]) (by rw [length_drop]; omega) rfl (by rw [length_drop]; omega)
      simp only [hmore] at hfrags
      subst hfrags
      refine ⟨fun a ha => ?_, hoffset, hlt.trans_eq halen.symm, ?_⟩
      · rcases mem_cons.1 ha with rfl | ha
        · exact hfrag
        · exact hrest a ha
      · rw [halen, htake, min_eq_left (by omega)]
        exact htiles

/-- What `ipv6_fragment` makes of a packet. -/
lemma Ipv6Whole.ipv6Fragment (hd : Ipv6Whole d) (hid : id.length = 4)
    (h : ipv6Fragment d mtu id = some frags) : Ipv6Cut d id (ipv6Inputs d frags) := by
  unfold L3.ipv6Fragment at h
  dsimp only at h
  split at h
  · cases h
  rename_i hok
  simp only [not_or] at hok
  obtain ⟨hchunk, hunfrag, -, hin⟩ := hok
  have h40 := (ipv6UnfragLen_field d).1
  have hfield := be16At_lt d 4
  have hpay : (ipv6Payload d).length = d.length - (ipv6UnfragLen d).1 := length_drop
  have hmax : (ipv6Payload d).length < 65536 := by
    have hl := hd.field
    simp only [ipv6HeaderLen] at hl
    omega
  have hmod : ipv6Chunk mtu (ipv6UnfragLen d).1 % 8 = 0 := by
    unfold ipv6Chunk
    split <;> omega
  obtain ⟨hfragments, htiles⟩ := ipv6FragmentLoop_cut (by omega) hmax hid ⟨pos_of_ne_zero hchunk, hmod⟩ (by decide)
    (Nat.zero_le _) rfl le_rfl (Option.some.inj h).symm
  exact ⟨hd, by omega, by omega, hfragments, htiles⟩

/-! ## The queue while fragments arrive -/

/-- The piece that a fragment brings. -/
def Ipv6Input.piece (a : Ipv6Input) : Ipv6Frag := ⟨a.data, a.offset, a.len⟩

/-- The queue has the fragments that are in `r`. -/
structure Ipv6Held (d : Bytes) (frags r : List Ipv6Input) (q : Ipv6Queue) : Prop where
  queued : q.frags = (frags.filter (· ∈ r)).map Ipv6Input.piece
  count : q.nFrags = (frags.filter (· ∈ r)).length
  total : q.totalLen = 0 ∨ q.totalLen = (ipv6Payload d).length
  last : ∀ a ∈ frags, a ∈ r → a.more = false → q.totalLen = (ipv6Payload d).length
  first : ∀ a ∈ frags, a ∈ r → a.offset = 0 → q.unfrag = a.nb.take a.fragOffset ∧
    q.prevNh = (ipv6UnfragLen d).2 ∧ q.nextHeader = byteAt a.nb a.fragOffset

section Queue

variable {d id : Bytes} {frags r : List Ipv6Input} {a : Ipv6Input} {q : Ipv6Queue}

lemma Ipv6Held.empty (d : Bytes) (frags : List Ipv6Input) : Ipv6Held d frags [] .empty :=
  ⟨by simp [Ipv6Queue.empty], by simp [Ipv6Queue.empty], .inl rfl, fun _ _ h => (nomatch h), fun _ _ h => (nomatch h)⟩

namespace Ipv6Cut

lemma length_payload (hc : Ipv6Cut d id frags) :
    (ipv6Payload d).length = d.length - (ipv6UnfragLen d).1 ∧ (ipv6Payload d).length ≤ 65535 := by
  have hpay : (ipv6Payload d).length = d.length - (ipv6UnfragLen d).1 := length_drop
  have h40 := (ipv6UnfragLen_field d).1
  have hfield := be16At_lt d 4
  have hl : be16At d 4 = d.length - 40 := hc.whole.field
  omega

/-- `ipv6_reassemble` takes every fragment, and finds the next header before it. -/
lemma accepts (hc : Ipv6Cut d id frags) (ha : a ∈ frags) :
    ipv6Accepts a = some (if a.offset = 0 then (ipv6UnfragLen d).2 else 0) := by
  have hfrag := hc.fragments a ha
  have htile := hc.tiles.mem_le ha
  have hpay := hc.length_payload.2
  have hunfrag := hc.unfrag
  have hplace := hfrag.place
  obtain ⟨h40, hfield⟩ := ipv6UnfragLen_field d
  have hprev : ipv6FindPrevNh a.nb a.fragOffset = some (ipv6UnfragLen d).2 := by
    rw [ipv6FindPrevNh, hplace]
    refine prevNhLoop_unfragLoop (by decide) (.inl ⟨rfl, rfl⟩) (Nat.sub_le _ _) fun o ho h8 hlt => ?_
    refine (hfrag.header (o + 1) (hplace ▸ hlt) (by omega) (by omega) ?_).symm
    unfold NhField at hfield
    omega
  have hunits : ¬ (a.more = true ∧ (a.len = 0 ∨ a.len % 8 ≠ 0)) := by
    rintro ⟨hm, hlen | hlen⟩
    · omega
    · exact hlen (hfrag.units hm)
  unfold ipv6Accepts
  rw [if_neg (Nat.not_lt.2 hfrag.inside), if_neg hunits, if_neg (by simp only [ipv6MaxPayload]; omega),
    if_neg (by omega), hprev]
  split <;> rfl

lemma stop_of_last (hc : Ipv6Cut d id frags) (ha : a ∈ frags) (hm : a.more = false) :
    a.offset + a.len = (ipv6Payload d).length := by
  have hle := (hc.tiles.mem_le ha).2.2
  rw [(hc.fragments a ha).more, decide_eq_false_iff_not] at hm
  omega

end Ipv6Cut

/-- The total length after a fragment. -/
lemma Ipv6Held.withTotal (hc : Ipv6Cut d id frags) (h : Ipv6Held d frags r q) (ha : a ∈ frags) :
    ((q.withTotal a).totalLen = 0 ∨ (q.withTotal a).totalLen = (ipv6Payload d).length) ∧
      (a.more = false ∨ q.totalLen = (ipv6Payload d).length → (q.withTotal a).totalLen = (ipv6Payload d).length) := by
  unfold Ipv6Queue.withTotal
  split <;> rename_i hm
  · exact ⟨h.total, fun ht => ht.resolve_left (by simp [hm])⟩
  have hstop := hc.stop_of_last ha (by simpa using hm)
  exact ⟨.inr hstop, fun _ => hstop⟩

/-- Fewer are in the queue than there are where one is missing. -/
lemma Ipv6Held.count_lt (h : Ipv6Held d frags r q) (ha : a ∈ frags) (hr : a ∉ r) : q.nFrags < frags.length := by
  rw [h.count]
  exact length_filter_lt_length_iff_exists.2 ⟨a, ha, by simpa using hr⟩

section

variable (hc : Ipv6Cut d id frags)
include hc

/-- A fragment that has not arrived goes with those that have, as long as there are not too many. -/
lemma Ipv6Held.not_bad (h : Ipv6Held d frags r q) (hcount : q.nFrags < ipv6ReassembleMaxFrags)
    (ha : a ∈ frags) (hr : a ∉ r) : q.bad a = false := by
  have htile := hc.tiles.mem_le ha
  have htotal := (h.withTotal hc ha).1
  have hapart : ∀ f ∈ q.frags, (a.offset + a.len ≤ f.offset ∨ f.offset + f.len ≤ a.offset) ∧
      f.offset + f.len ≤ (ipv6Payload d).length := by
    intro f hf
    rw [h.queued] at hf
    obtain ⟨b, hb, rfl⟩ := mem_map.1 hf
    obtain ⟨hb, hbr⟩ := mem_filter.1 hb
    refine ⟨?_, (hc.tiles.mem_le hb).2.2⟩
    rcases lt_trichotomy a.offset b.offset with hlt | he | hlt
    · exact .inl (hc.tiles.apart ha hb hlt)
    · rw [← hc.tiles.eq_of_off ha hb he] at hbr
      exact absurd (by simpa using hbr) hr
    · exact .inr (hc.tiles.apart hb ha hlt)
  have hlast : a.more = false → q.totalLen = 0 ∨ q.totalLen = a.offset + a.len := by
    intro hm
    rw [hc.stop_of_last ha hm]
    exact h.total
  unfold Ipv6Queue.bad
  simp only [Bool.or_eq_false_iff, decide_eq_false_iff_not, any_eq_false, Bool.and_eq_true, Bool.or_eq_true,
    decide_eq_true_eq, Bool.and_eq_false_iff]
  refine ⟨⟨⟨by omega, ?_⟩, fun f hf => ?_⟩, ?_⟩
  · cases hm : a.more with
    | true => exact .inl (.inl rfl)
    | false =>
      rcases hlast hm with h0 | h0
      · exact .inl (.inr (by simpa using h0))
      · exact .inr (by simpa using h0)
  · have := hapart f hf
    omega
  · rcases htotal with h0 | h0
    · exact .inl (by simpa using h0)
    · exact .inr (by omega)

/-- A fragment that has not arrived is added. -/
lemma Ipv6Held.withFrag (h : Ipv6Held d frags r q) (ha : a ∈ frags) (hr : a ∉ r) :
    Ipv6Held d frags (a :: r) (q.withFrag a (if a.offset = 0 then (ipv6UnfragLen d).2 else 0)) := by
  have hfilter : (frags.filter fun b => decide (b ∈ r) || decide (b = a)) = frags.filter (· ∈ a :: r) := by
    refine filter_congr fun b _ => ?_
    simp [Bool.or_comm]
  have hinsert := hc.tiles.insertPiece_filter (P := fun b => decide (b ∈ r)) ha (by simpa using hr)
  rw [hfilter] at hinsert
  have hkept : ((q.withTotal a).withFirst a (if a.offset = 0 then (ipv6UnfragLen d).2 else 0)).frags = q.frags ∧
      ((q.withTotal a).withFirst a (if a.offset = 0 then (ipv6UnfragLen d).2 else 0)).nFrags = q.nFrags ∧
      ((q.withTotal a).withFirst a (if a.offset = 0 then (ipv6UnfragLen d).2 else 0)).totalLen =
        (q.withTotal a).totalLen := by
    unfold Ipv6Queue.withFirst Ipv6Queue.withTotal
    split <;> split <;> exact ⟨rfl, rfl, rfl⟩
  obtain ⟨hfrags, hnum, htot⟩ := hkept
  obtain ⟨htotal, hset⟩ := h.withTotal hc ha
  refine ⟨?_, ?_, ?_, ?_, ?_⟩
  · have hmap := @insertPiece_map _ _ Ipv6Frag.offset Ipv6Input.piece a (frags.filter (· ∈ r))
    rw [← hinsert]
    refine Eq.trans ?_ hmap
    rw [← h.queued, ← hfrags]
    rfl
  · rw [← hinsert, length_insertPiece, ← h.count, ← hnum]
    rfl
  · rw [← htot] at htotal
    exact htotal
  · intro b hb hbr hm
    refine htot.trans (hset ?_)
    rcases mem_cons.1 hbr with rfl | hbr
    · exact .inl hm
    · exact .inr (h.last b hb hbr hm)
  · intro b hb hbr h0
    rcases mem_cons.1 hbr with rfl | hbr
    · simp [Ipv6Queue.withFrag, Ipv6Queue.withFirst, h0]
    -- the first fragment had arrived before
    have hne : a.offset ≠ 0 := by
      intro he
      rw [hc.tiles.eq_of_off ha hb (he.trans h0.symm)] at hr
      exact hr hbr
    have hold := h.first b hb hbr h0
    unfold Ipv6Queue.withFrag Ipv6Queue.withFirst Ipv6Queue.withTotal
    simp only [if_neg hne]
    split <;> exact hold

/-- The headers that are put before the data are those of the packet. -/
lemma Ipv6Held.patched (h : Ipv6Held d frags r q) (ha : a ∈ frags) (hr : a ∈ r)
    (h0 : a.offset = 0) (htotal : q.totalLen = (ipv6Payload d).length) : q.patched = d.take (ipv6UnfragLen d).1 := by
  have hfrag := hc.fragments a ha
  obtain ⟨hunfrag, hprev, hnext⟩ := h.first a ha hr h0
  obtain ⟨h40, hfield⟩ := ipv6UnfragLen_field d
  have hin := hc.inside
  have hins := hfrag.inside
  have hplace := hfrag.place
  have hpay := hc.length_payload.1
  have hl : be16At d 4 = d.length - 40 := hc.whole.field
  have hlt := be16At_lt d 4
  have hulen : q.unfrag.length = (ipv6UnfragLen d).1 := by
    rw [hunfrag, ← hplace]
    exact length_take_of_le (by omega)
  have hlen : q.patched.length = (ipv6UnfragLen d).1 := q.length_patched.trans hulen
  have hpfield : be16At q.patched 4 = be16At d 4 := by
    rw [Ipv6Queue.patched, be16At_putBe16 (by rw [length_set]; omega), hulen, htotal, hl]
    simp only [ipv6HeaderLen]
    omega
  have hbytes := byteAt_eq_of_be16At hpfield
  refine ext_byteAt (by rw [hlen, length_take_of_le hin]) fun i hi => ?_
  rw [hlen] at hi
  rw [byteAt_take _ hi]
  by_cases h4 : i = 4
  · rw [h4]
    exact hbytes.1
  by_cases h5 : i = 5
  · rw [h5]
    exact hbytes.2
  rw [Ipv6Queue.patched, byteAt_putBe16_ne _ _ h4 h5]
  by_cases hp : i = (ipv6UnfragLen d).2
  · rw [byteAt_set, if_pos ⟨hprev.trans hp.symm, by omega⟩, hnext, hfrag.next, hp]
  rw [byteAt_set_ne _ _ (by rw [hprev]; exact hp), hunfrag, byteAt_take _ (by omega)]
  exact (hfrag.header i (by omega) h4 h5 hp).symm

/-- The queue gives the packet when all fragments have arrived, and nothing before. -/
lemma Ipv6Held.complete (h : Ipv6Held d frags r q) (hne : frags ≠ []) :
    (frags ⊆ r ∧ (q.complete true).1 = some d) ∨ (¬ frags ⊆ r ∧ q.complete true = (none, q)) := by
  have hmap := @endOf_map _ _ Ipv6Frag.offset Ipv6Frag.len Ipv6Input.piece 0 (frags.filter (· ∈ r))
  rw [← h.queued] at hmap
  obtain ⟨a, rest, hcons⟩ := exists_cons_of_ne_nil hne
  have ha : a ∈ frags := hcons ▸ mem_cons_self
  have h0 : a.offset = 0 := by
    have htiles := hc.tiles
    rw [hcons] at htiles
    exact htiles.1
  obtain ⟨z, hz, hstop⟩ := hc.tiles.exists_stop hne
  by_cases hall : frags ⊆ r
  · refine .inl ⟨hall, ?_⟩
    have hself : frags.filter (· ∈ r) = frags := filter_eq_self.2 fun b hb => by simpa using hall hb
    have hpos := hc.tiles.mem_le ha
    have htotal : q.totalLen = (ipv6Payload d).length := by
      refine h.last z hz (hall hz) ?_
      rw [(hc.fragments z hz).more, decide_eq_false_iff_not]
      omega
    have hend : endOf Ipv6Frag.offset Ipv6Frag.len 0 q.frags = some q.totalLen := by
      rw [hmap, hself, htotal]
      exact hc.tiles.endOf_eq
    have hhead := h.patched hc ha (hall ha) h0 htotal
    have hunfrag : q.unfrag ≠ [] := by
      intro he
      have hl : q.patched.length = 0 := by rw [q.length_patched, he, length_nil]
      have h40 := (ipv6UnfragLen_field d).1
      rw [hhead, length_take_of_le hc.inside] at hl
      omega
    have hdata : (q.frags.map Ipv6Frag.nb).flatten = ipv6Payload d := by
      have hpieces : q.frags.map Ipv6Frag.nb = frags.map fun b => ((ipv6Payload d).drop b.offset).take b.len := by
        rw [h.queued, hself, map_map]
        exact map_congr_left fun b hb => (hc.fragments b hb).data
      rw [hpieces, hc.tiles.flatten_eq, drop_zero, Nat.sub_zero, take_length]
    unfold Ipv6Queue.complete
    rw [if_neg (not_or.2 ⟨hunfrag, by omega⟩), if_neg (not_not.2 hend), if_neg (by decide), hhead, hdata]
    exact congrArg some (take_append_drop _ d)
  · refine .inr ⟨hall, ?_⟩
    unfold Ipv6Queue.complete
    split
    · rfl
    rename_i hset
    refine if_pos fun hend => hall fun b hb => ?_
    rw [hmap, h.total.resolve_left (not_or.1 hset).2] at hend
    simpa using hc.tiles.of_endOf_filter hend b hb

end

end Queue

/-! ## Any traffic -/

/-- No queue is thrown out for a packet that does not have the key `k`: there is one for it, or there is room. -/
def Ipv6Roomy (k : List UInt8) : Ipv6Queues → List Ipv6Arrival → Prop
  | _, [] => True
  | qs, a :: as =>
    (a.key ≠ k → (lookup qs a.key).isSome ∨ qs.length < ipv6ReassembleMaxQueues) ∧
    Ipv6Roomy k (ipv6Reassemble a.mem qs a.toIpv6Input).2 as

/-- The packets of a traffic that have the key `k`. -/
def ipv6Ours (k : List UInt8) (as : List Ipv6Arrival) : List Ipv6Input :=
  (as.filter fun a => a.key = k).map Ipv6Arrival.toIpv6Input

section Traffic

variable {d id : Bytes} {frags r : List Ipv6Input} {k : List UInt8} {qs : Ipv6Queues}

/-- There is no other traffic. -/
lemma ipv6Roomy_of_key (h : ∀ a ∈ as, a.key = k) : Ipv6Roomy k qs as := by
  induction as generalizing qs with
  | nil => trivial
  | cons a as ih => exact ⟨fun hk => absurd (h a mem_cons_self) hk, ih fun b hb => h b (mem_cons_of_mem a hb)⟩

variable {a : Ipv6Input}

/-- A packet with another key leaves the queue alone. -/
lemma ipv6Reassemble_other {mem : Ipv6Mem} (hk : a.key ≠ k)
    (hroom : (lookup qs a.key).isSome ∨ qs.length < ipv6ReassembleMaxQueues) :
    lookup (ipv6Reassemble mem qs a).2 k = lookup qs k := by
  have hsame : room qs a.key ipv6ReassembleMaxQueues = qs := if_pos hroom
  unfold ipv6Reassemble
  split
  · rfl
  dsimp only
  rw [hsame]
  split
  · rfl
  split
  · exact lookup_remove_ne hk.symm
  split
  · exact lookup_remove_ne hk.symm
  · exact lookup_put_ne hk.symm

/-- A fragment that goes with those in its queue, where there is memory for it. -/
lemma ipv6Reassemble_good {q : Ipv6Queue} {prevNh : Nat} (hacc : ipv6Accepts a = some prevNh)
    (hq : (lookup qs a.key).getD .empty = q) (hbad : q.bad a = false) :
    ipv6Reassemble ⟨true, true, true⟩ qs a =
      if ((q.withFrag a prevNh).complete true).1.isSome then
        (((q.withFrag a prevNh).complete true).1, remove (room qs a.key ipv6ReassembleMaxQueues) a.key)
      else (none, put (room qs a.key ipv6ReassembleMaxQueues) a.key ((q.withFrag a prevNh).complete true).2) := by
  unfold ipv6Reassemble
  rw [hacc]
  dsimp only
  rw [hq, if_neg (by simp), if_neg (by simp [hbad])]

/-- The table has the fragments in `r` of the packet, and not all; before the first there is no queue for it. -/
def Ipv6Collects (d id : Bytes) (frags r : List Ipv6Input) (qs : Ipv6Queues) : Prop :=
  ¬ frags ⊆ r ∧ ((r = [] ∧ lookup qs (ipv6Key d id) = none) ∨
    ∃ q, lookup qs (ipv6Key d id) = some q ∧ Ipv6Held d frags r q)

lemma Ipv6Collects.queue (h : Ipv6Collects d id frags r qs) :
    Ipv6Held d frags r ((lookup qs (ipv6Key d id)).getD .empty) := by
  rcases h.2 with ⟨rfl, hnone⟩ | ⟨q, hq, hheld⟩
  · rw [hnone]
    exact .empty d frags
  rw [hq]
  exact hheld

/-- A fragment arrives that has not arrived before. -/
lemma Ipv6Collects.arrives (hc : Ipv6Cut d id frags) (h : Ipv6Collects d id frags r qs)
    (hn : frags.length ≤ ipv6ReassembleMaxFrags) (ha : a ∈ frags) (hr : a ∉ r) :
    (frags ⊆ a :: r ∧ (ipv6Reassemble ⟨true, true, true⟩ qs a).1 = some d) ∨
      (¬ frags ⊆ a :: r ∧ (ipv6Reassemble ⟨true, true, true⟩ qs a).1 = none ∧
        Ipv6Collects d id frags (a :: r) (ipv6Reassemble ⟨true, true, true⟩ qs a).2) := by
  have hkey := (hc.fragments a ha).key
  have hbad := h.queue.not_bad hc ((h.queue.count_lt ha hr).trans_le hn) ha hr
  have hnew := h.queue.withFrag hc ha hr
  have hstep := ipv6Reassemble_good (hc.accepts ha) (by rw [hkey]) hbad
  rcases hnew.complete hc (ne_nil_of_mem ha) with ⟨hall, hdone⟩ | ⟨hnot, hdone⟩
  · rw [hstep, hdone]
    exact .inl ⟨hall, rfl⟩
  rw [hstep, hdone, hkey]
  exact .inr ⟨hnot, rfl, hnot, .inr ⟨_, lookup_put_same, hnew⟩⟩

/-- Only packets with the key are delivered for it. -/
lemma ipv6Delivered_none (h : ipv6Ours k as = []) : ipv6Delivered k qs as = [] := by
  induction as generalizing qs with
  | nil => rfl
  | cons a as ih =>
    by_cases hk : a.key = k
    · simp [ipv6Ours, hk] at h
    rw [ipv6Delivered, if_neg hk]
    refine ih ?_
    rwa [ipv6Ours, filter_cons_of_neg (by simpa using hk)] at h

/-- The fragments that are still to come, in any order and among other traffic, give the packet. -/
lemma Ipv6Collects.delivered (hc : Ipv6Cut d id frags) (hn : frags.length ≤ ipv6ReassembleMaxFrags)
    (h : Ipv6Collects d id frags r qs) (hmem : ∀ a ∈ as, a.key = ipv6Key d id → a.mem = ⟨true, true, true⟩)
    (hroom : Ipv6Roomy (ipv6Key d id) qs as) (hperm : (ipv6Ours (ipv6Key d id) as ++ r).Perm frags) :
    ipv6Delivered (ipv6Key d id) qs as = [d] := by
  induction as generalizing r qs with
  | nil => exact absurd hperm.symm.subset h.1
  | cons a as ih =>
    have hmem' := fun b hb => hmem b (mem_cons_of_mem a hb)
    obtain ⟨hthis, hrest⟩ := hroom
    by_cases hk : a.key = ipv6Key d id
    · have hours : ipv6Ours (ipv6Key d id) (a :: as) = a.toIpv6Input :: ipv6Ours (ipv6Key d id) as := by
        simp [ipv6Ours, hk]
      rw [hours] at hperm
      have hnodup := hperm.nodup_iff.2 hc.tiles.nodup
      have ha : a.toIpv6Input ∈ frags := hperm.subset mem_cons_self
      have hr : a.toIpv6Input ∉ r := fun hr => (nodup_cons.1 hnodup).1 (mem_append_right _ hr)
      have hmove : (ipv6Ours (ipv6Key d id) as ++ a.toIpv6Input :: r).Perm frags := perm_middle.trans hperm
      rw [ipv6Delivered, if_pos hk]
      rw [hmem a mem_cons_self hk] at hrest ⊢
      rcases h.arrives hc hn ha hr with ⟨hall, hw⟩ | ⟨hnot, hw, hnext⟩
      · -- all have arrived, so that none is left
        have hleft : ipv6Ours (ipv6Key d id) as = [] := by
          have hsub := (subperm_of_subset hc.tiles.nodup hall).length_le
          have htotal := hmove.length_eq
          rw [length_append] at htotal
          exact eq_nil_of_length_eq_zero (by omega)
        rw [hw, ipv6Delivered_none hleft]
        rfl
      · rw [hw, ih hnext hmem' hrest hmove]
        rfl
    · have hours : ipv6Ours (ipv6Key d id) (a :: as) = ipv6Ours (ipv6Key d id) as := by simp [ipv6Ours, hk]
      have hnext : Ipv6Collects d id frags r (ipv6Reassemble a.mem qs a.toIpv6Input).2 := by
        unfold Ipv6Collects
        rw [ipv6Reassemble_other hk (hthis hk)]
        exact h
      rw [hours] at hperm
      rw [ipv6Delivered, if_neg hk, nil_append]
      exact ih hnext hmem' hrest hperm

end Traffic

/-- The fragments of a packet come to the table: once each, in any order, among other traffic, and with the memory they
need. -/
structure Ipv6Arrive (d id : Bytes) (frags : List Bytes) (qs : Ipv6Queues) (as : List Ipv6Arrival) : Prop where
  fresh : lookup qs (ipv6Key d id) = none
  ours : (ipv6Ours (ipv6Key d id) as).Perm (ipv6Inputs d frags)
  mem : ∀ a ∈ as, a.key = ipv6Key d id → a.mem = ⟨true, true, true⟩
  room : Ipv6Roomy (ipv6Key d id) qs as

/-- The fragments of a packet give the packet. -/
lemma delivered_of_fragments {qs : Ipv6Queues} (hd : Ipv6Whole d) (hid : id.length = 4)
    (hf : ipv6Fragment d mtu id = some frags) (hne : frags ≠ []) (hn : frags.length ≤ ipv6ReassembleMaxFrags)
    (h : Ipv6Arrive d id frags qs as) : ipv6Delivered (ipv6Key d id) qs as = [d] := by
  have hc := hd.ipv6Fragment hid hf
  have hlen : (ipv6Inputs d frags).length = frags.length := length_map _
  have hstart : Ipv6Collects d id (ipv6Inputs d frags) [] qs := by
    refine ⟨fun hs => hne (eq_nil_of_length_eq_zero ?_), .inl ⟨rfl, h.fresh⟩⟩
    rw [← hlen, subset_nil.1 hs, length_nil]
  refine hstart.delivered hc (hlen ▸ hn) h.mem h.room ?_
  rw [append_nil]
  exact h.ours

/-- The fragments of a packet, once each and in any order, give the packet. And a packet that comes of any fragments is as
long as it says, and made of what was received, where no first and last fragment are together too long. -/
theorem ipv6_fragments_restored (as : List Ipv6Arrival) :
    (∀ (d id : Bytes) (mtu : Nat) (frags : List Bytes) (qs : Ipv6Queues), Ipv6Whole d →
      id.length = 4 → ipv6Fragment d mtu id = some frags → frags ≠ [] → frags.length ≤ ipv6ReassembleMaxFrags →
      Ipv6Arrive d id frags qs as → ipv6Delivered (ipv6Key d id) qs as = [d]) ∧
    (∀ (a : Ipv6Arrival) (w : Bytes), Ipv6Fits ((as ++ [a]).map Ipv6Arrival.toIpv6Input) →
      (ipv6Reassemble a.mem (ipv6Run [] as) a.toIpv6Input).1 = some w →
      Ipv6Sound ((as ++ [a]).map Ipv6Arrival.toIpv6Input) a.key w) :=
  ⟨fun _ _ _ _ _ hd hid hf hne hn h => delivered_of_fragments hd hid hf hne hn h,
    fun _ _ hfits h => reassembled_sound hfits h⟩

/-- A packet with nine bytes of data, and its two fragments on a link that takes eight at a time. -/
def ninePacket : Bytes :=
  [0x60, 0, 0, 0, 0, 9, 17, 64] ++ List.replicate 15 0 ++ [1] ++ List.replicate 15 0 ++ [2] ++ [1, 2, 3, 4, 5, 6, 7, 8, 9]

def ninePacketFrags : List Bytes :=
  [[0x60, 0, 0, 0, 0, 16, 44, 64] ++ List.replicate 15 0 ++ [1] ++ List.replicate 15 0 ++ [2] ++
      [17, 0, 0, 1, 0, 0, 0, 7] ++ [1, 2, 3, 4, 5, 6, 7, 8],
    [0x60, 0, 0, 0, 0, 9, 44, 64] ++ List.replicate 15 0 ++ [1] ++ List.replicate 15 0 ++ [2] ++
      [17, 0, 0, 8, 0, 0, 0, 7] ++ [9]]

/-- The second fragment arrives first. -/
def ninePacketArrivals : List Ipv6Arrival := ninePacketFrags.reverse.map fun f => ⟨⟨f, 40⟩, ⟨true, true, true⟩⟩

theorem ipv6_fragments_restored_ninePacket :
    ipv6Delivered (ipv6Key ninePacket [0, 0, 0, 7]) [] ninePacketArrivals = [ninePacket] ∧
      Ipv6Sound (ninePacketArrivals.map Ipv6Arrival.toIpv6Input) (ipv6Key ninePacket [0, 0, 0, 7]) ninePacket := by
  have hkey : ∀ a ∈ ninePacketArrivals, a.key = ipv6Key ninePacket [0, 0, 0, 7] := by decide +kernel
  have harrive : Ipv6Arrive ninePacket [0, 0, 0, 7] ninePacketFrags [] ninePacketArrivals := by
    refine ⟨rfl, by decide +kernel, fun a ha _ => ?_, ipv6Roomy_of_key hkey⟩
    obtain ⟨f, -, rfl⟩ := mem_map.1 ha
    rfl
  refine ⟨(ipv6_fragments_restored ninePacketArrivals).1 ninePacket [0, 0, 0, 7] 56 ninePacketFrags []
    ⟨by decide, by decide⟩ rfl rfl (by decide) (by decide) harrive, ?_⟩
  have hfits : ∀ a ∈ ninePacketArrivals.map Ipv6Arrival.toIpv6Input,
      ∀ b ∈ ninePacketArrivals.map Ipv6Arrival.toIpv6Input, a.key = b.key → a.offset = 0 → b.more = false →
        a.fragOffset - ipv6HeaderLen + (b.offset + b.len) ≤ ipv6MaxPayload := by decide +kernel
  exact (ipv6_fragments_restored (ninePacketArrivals.take 1)).2 ⟨⟨ninePacketFrags.headD [], 40⟩, ⟨true, true, true⟩⟩
    ninePacket hfits (by decide +kernel)

end Hermes.L3
