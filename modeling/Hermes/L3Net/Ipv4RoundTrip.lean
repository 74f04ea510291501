import Hermes.L3Net.Ipv4Frag

/-!
# IPv4 fragments round trip

The fragments of a datagram, in any order and with duplicates, give the datagram back.

* `Ipv4Whole.ipv4Fragment`: the fragments of `ipv4_fragment` (ipv4.c:565) cut the payload into pieces that fit the MTU.
* `Ipv4Held.arrives`, `Ipv4Held.again`: what `ipv4_reassemble` (ipv4.c:312) does with one of them, new or repeated.
* `fragments_round_trip`: among any other traffic they give one datagram, if there are at most 65475 bytes of data;
  `Bugs.long_payload_lost` is a longer one.
-/
namespace Hermes.L3

open QueueTable List Option

/-! ## Headers -/

/-- The bytes of a header that fragmenting does not keep: length, fragment field and checksum. -/
def ipv4Mutable : List Nat := [2, 3, 6, 7, 10, 11]

section Header

variable {h hdr nb : Bytes} {totalLen fragOff i : Nat}

@[simp] lemma length_finishHeader (hdr : Bytes) (totalLen fragOff : Nat) :
    (finishHeader hdr totalLen fragOff).length = hdr.length := by
  simp [finishHeader]

lemma byteAt_finishHeader (hi : i ∉ ipv4Mutable) : byteAt (finishHeader hdr totalLen fragOff) i = byteAt hdr i := by
  simp only [ipv4Mutable, mem_cons, not_mem_nil, or_false, not_or] at hi
  obtain ⟨h2, h3, h6, h7, h10, h11⟩ := hi
  unfold finishHeader
  rw [byteAt_putBe16_ne _ _ h10 h11, byteAt_putBe16_ne _ _ h10 h11, byteAt_putBe16_ne _ _ h6 h7, byteAt_putBe16_ne _ _ h2 h3]

lemma be16At_finishHeader_frag (hl : 12 ≤ hdr.length) (hf : fragOff < 65536) :
    be16At (finishHeader hdr totalLen fragOff) 6 = fragOff := by
  unfold finishHeader
  rw [be16At_putBe16_ne _ _ (by omega), be16At_putBe16_ne _ _ (by omega), be16At_putBe16_same (by simp; omega) hf]

/-- A header that can be written: it has whole words, and its length fits its field. -/
structure HeaderOk (h : Bytes) : Prop where
  le : 20 ≤ h.length
  max : h.length ≤ 60
  words : h.length % 4 = 0

variable {orig off chunk : Nat} {last : Bool}

@[simp] lemma length_fragHeader (h : Bytes) (orig off chunk : Nat) (last : Bool) :
    (fragHeader h orig off chunk last).length = h.length := by
  simp [fragHeader]

lemma HeaderOk.first_byte (hok : HeaderOk h) : (UInt8.ofNat (0x40 + h.length / 4)).toNat = 0x40 + h.length / 4 := by
  have := hok.max
  rw [UInt8.toNat_ofNat']
  omega

lemma HeaderOk.byteAt_fragHeader_zero (hok : HeaderOk h) :
    byteAt (fragHeader h orig off chunk last) 0 = UInt8.ofNat (0x40 + h.length / 4) := by
  have := hok.le
  unfold fragHeader
  rw [byteAt_finishHeader (by decide), byteAt_set, if_pos ⟨rfl, by omega⟩]

lemma byteAt_fragHeader (hi : i ∉ ipv4Mutable) (h0 : i ≠ 0) :
    byteAt (fragHeader h orig off chunk last) i = byteAt h i := by
  unfold fragHeader
  rw [byteAt_finishHeader hi, byteAt_set_ne _ _ h0]

section

variable (hok : HeaderOk h)
include hok

/-- The header of a fragment says how long it is. -/
lemma HeaderOk.headerLenOf (piece : Bytes) :
    ipv4HeaderLenOf (fragHeader h orig off chunk last ++ piece) = h.length := by
  have := hok.le
  have := hok.max
  have := hok.words
  unfold ipv4HeaderLenOf
  rw [byteAt_append_left _ (by simp; omega), hok.byteAt_fragHeader_zero, hok.first_byte]
  omega

/-- The fragment field of the fragment of a whole datagram. -/
lemma HeaderOk.fragField (piece : Bytes) (ho : orig % 16384 = 0) (hoff : off < 65536) :
    be16At (fragHeader h orig off chunk last ++ piece) 6 = off / 8 + if last = false then 8192 else 0 := by
  have hle := hok.le
  have h0 : orig % 8192 = 0 := by omega
  have h1 : orig / 8192 % 2 ≠ 1 := by omega
  rw [be16At_append_left _ (by simp; omega), fragHeader]
  have hor : ∀ m, (off / 8) ||| (8192 * m) = 8192 * m + off / 8 := by
    intro m
    have := Nat.two_pow_add_eq_or_of_lt (i := 13) (b := off / 8) (by omega) m
    rw [Nat.or_comm, ← this]
  have hval : (orig % 8192 + off / 8) ||| (if last = false ∨ orig / 8192 % 2 = 1 then 8192 else 0) =
      off / 8 + if last = false then 8192 else 0 := by
    rw [h0, zero_add]
    cases last with
    | false => simpa [add_comm] using hor 1
    | true => simp [h1]
  rw [hval, be16At_finishHeader_frag (by simp; omega) (by split <;> omega)]

lemma HeaderOk.offset (piece : Bytes) (ho : orig % 16384 = 0) (hoff : off < 65536) (h8 : off % 8 = 0) :
    ipv4Offset (fragHeader h orig off chunk last ++ piece) = off := by
  unfold ipv4Offset
  rw [hok.fragField piece ho hoff]
  split <;> omega

lemma HeaderOk.more (piece : Bytes) (ho : orig % 16384 = 0) (hoff : off < 65536) :
    ipv4More (fragHeader h orig off chunk last ++ piece) = !last := by
  unfold ipv4More
  rw [hok.fragField piece ho hoff]
  cases last with
  | false | true => simp; omega

lemma HeaderOk.fragKey (piece : Bytes) : ipv4FragKey (fragHeader h orig off chunk last ++ piece) = ipv4FragKey h := by
  have := hok.le
  refine map_congr_left fun i hi => ?_
  have hmem : i ∉ ipv4Mutable ∧ i ≠ 0 ∧ i < 20 := by
    simp only [mem_cons, not_mem_nil, or_false] at hi
    rcases hi with rfl | rfl | rfl | rfl | rfl | rfl | rfl | rfl | rfl | rfl | rfl <;> decide
  rw [byteAt_append_left _ (by simp; omega), byteAt_fragHeader hmem.1 hmem.2.1]

end

end Header

/-! ## The fragments of a datagram -/

lemma length_copiedOptions (n : Nat) (opts : Bytes) : (copiedOptions n opts).length ≤ opts.length := by
  induction n generalizing opts with
  | zero => simp [copiedOptions]
  | succ n ih =>
    cases opts with
    | nil => simp [copiedOptions]
    | cons type rest =>
      unfold copiedOptions
      split
      · simp
      split
      · have := ih rest
        simp only [length_cons]
        omega
      split
      · simp
      rename_i olen tail
      split
      · simp
      have hdrop := ih ((type :: olen :: tail).drop olen.toNat)
      rw [length_drop] at hdrop
      rw [length_append]
      split
      · rw [length_take]
        omega
      simp only [length_nil]
      omega

lemma length_ipv4CopiedOptions {opts : Bytes} (h : opts.length % 4 = 0) :
    (ipv4CopiedOptions opts).length ≤ opts.length ∧ (ipv4CopiedOptions opts).length % 4 = 0 := by
  have := length_copiedOptions opts.length opts
  simp only [ipv4CopiedOptions, length_append, length_replicate]
  omega

/-- A whole datagram: version 4, a header that fits, and no fragment field. -/
structure Ipv4Whole (d : Bytes) : Prop where
  version : (byteAt d 0).toNat / 16 = 4
  header_min : 20 ≤ ipv4HeaderLenOf d
  header_le : ipv4HeaderLenOf d ≤ d.length
  max : d.length ≤ ipv4MaxDatagram
  whole : be16At d 6 % 16384 = 0

/-- The data of a datagram. -/
def ipv4Payload (d : Bytes) : Bytes := d.drop (ipv4HeaderLenOf d)

/-- The length of the data in a fragment. -/
def ipv4DataLen (f : Bytes) : Nat := f.length - ipv4HeaderLenOf f

/-- A fragment of the datagram `d` on a link of the given size. -/
structure Ipv4FragmentOf (d : Bytes) (mtu : Nat) (f : Bytes) : Prop where
  key : ipv4FragKey f = ipv4FragKey d
  fits : f.length ≤ mtu
  header : ipv4HeaderLenOf f ≤ f.length
  body : f.drop (ipv4HeaderLenOf f) = ((ipv4Payload d).drop (ipv4Offset f)).take (ipv4DataLen f)
  more : ipv4More f = decide (ipv4Offset f + ipv4DataLen f < (ipv4Payload d).length)
  units : ipv4More f = true → ipv4DataLen f % 8 = 0
  first : ipv4Offset f = 0 → ipv4HeaderLenOf f = ipv4HeaderLenOf d ∧
    ∀ i < ipv4HeaderLenOf d, i ∉ ipv4Mutable → byteAt f i = byteAt d i

section Fragment

variable {d : Bytes}

/-- The header of the first fragment, and that of the others. -/
def firstHeader (d : Bytes) : Bytes := d.take (ipv4HeaderLenOf d)

def laterHeader (d : Bytes) : Bytes :=
  (firstHeader d).take ipv4HeaderLen ++ ipv4CopiedOptions ((firstHeader d).drop ipv4HeaderLen)

lemma ipv4HeaderLenOf_le (d : Bytes) : ipv4HeaderLenOf d ≤ 60 ∧ ipv4HeaderLenOf d % 4 = 0 := by
  unfold ipv4HeaderLenOf
  omega

section

variable (hd : Ipv4Whole d)
include hd

lemma Ipv4Whole.length_firstHeader : (firstHeader d).length = ipv4HeaderLenOf d := by
  rw [firstHeader, length_take, min_eq_left hd.header_le]

lemma Ipv4Whole.firstHeader_ok : HeaderOk (firstHeader d) := by
  have hlen := hd.length_firstHeader
  have := hd.header_min
  have := ipv4HeaderLenOf_le d
  constructor <;> omega

lemma Ipv4Whole.laterHeader_ok : HeaderOk (laterHeader d) := by
  have hlen := hd.length_firstHeader
  have hmin := hd.header_min
  have hmax := ipv4HeaderLenOf_le d
  have hopt : ((firstHeader d).drop ipv4HeaderLen).length = ipv4HeaderLenOf d - 20 := by rw [length_drop, hlen]
  have hcopied := @length_ipv4CopiedOptions ((firstHeader d).drop ipv4HeaderLen) (by omega)
  have hlater : (laterHeader d).length = 20 + (ipv4CopiedOptions ((firstHeader d).drop ipv4HeaderLen)).length := by
    rw [laterHeader, length_append, length_take, hlen, min_eq_left (by omega)]
  constructor <;> omega

lemma Ipv4Whole.key_header : ipv4FragKey (firstHeader d) = ipv4FragKey d ∧
    ipv4FragKey (laterHeader d) = ipv4FragKey d := by
  have hlen := hd.length_firstHeader
  have hmin := hd.header_min
  have hlt : ∀ i ∈ [4, 5, 9, 12, 13, 14, 15, 16, 17, 18, 19], i < 20 := by decide
  have hfirst : ∀ i < 20, byteAt (firstHeader d) i = byteAt d i := fun i hi => byteAt_take d (by omega)
  constructor
  · exact map_congr_left fun i hi => hfirst i (hlt i hi)
  refine map_congr_left fun i hi => ?_
  have hi := hlt i hi
  have htake : i < ((firstHeader d).take ipv4HeaderLen).length := by
    rw [length_take]
    exact Nat.lt_min.2 ⟨hi, by omega⟩
  rw [laterHeader, byteAt_append_left _ htake, byteAt_take _ hi, hfirst i hi]

/-- The header of a turn of the loop. -/
lemma Ipv4Whole.header_ok (off : Nat) : HeaderOk (headerAt (firstHeader d) (laterHeader d) off) ∧
      ipv4FragKey (headerAt (firstHeader d) (laterHeader d) off) = ipv4FragKey d := by
  unfold headerAt
  split
  · exact ⟨hd.firstHeader_ok, hd.key_header.1⟩
  · exact ⟨hd.laterHeader_ok, hd.key_header.2⟩

/-- The first header keeps the bytes of the original. -/
lemma Ipv4Whole.byteAt_first {orig off chunk i : Nat} {last : Bool} (piece : Bytes) (hi : i < ipv4HeaderLenOf d)
    (hm : i ∉ ipv4Mutable) : byteAt (fragHeader (firstHeader d) orig off chunk last ++ piece) i = byteAt d i := by
  have hlen := hd.length_firstHeader
  rw [byteAt_append_left _ (by simp; omega)]
  by_cases h0 : i = 0
  · subst h0
    rw [hd.firstHeader_ok.byteAt_fragHeader_zero, hlen]
    refine UInt8.toNat_inj.1 ?_
    have hv := hd.version
    have hfirst := hd.firstHeader_ok.first_byte
    rw [hlen] at hfirst
    rw [hfirst, ipv4HeaderLenOf]
    omega
  · rw [byteAt_fragHeader hm h0, firstHeader, byteAt_take d hi]

variable {data : Bytes}

variable {mtu off : Nat} {frags : List Bytes}

/-- One turn of the loop makes a fragment. -/
lemma Ipv4Whole.turn (hdata : data = (ipv4Payload d).drop off) (hne : data ≠ []) (h8 : off % 8 = 0)
    (hmtu : ¬ mtu < (headerAt (firstHeader d) (laterHeader d) off).length + 8) :
    let h := headerAt (firstHeader d) (laterHeader d) off
    let chunk := (mtu - h.length) / 8 * 8
    let f := fragHeader h (be16At d 6) off (data.take chunk).length (data.length ≤ chunk) ++ data.take chunk
    Ipv4FragmentOf d mtu f ∧ ipv4Offset f = off ∧ ipv4DataLen f = (data.take chunk).length ∧ 0 < (data.take chunk).length := by
  intro h chunk f
  obtain ⟨hok, hkey⟩ := hd.header_ok off
  have hpos : 0 < data.length := length_pos_iff.2 hne
  have hlen : data.length = (ipv4Payload d).length - off := by rw [hdata, length_drop]
  have hmax : (ipv4Payload d).length < 65536 := by
    have : d.length ≤ 65535 := hd.max
    rw [ipv4Payload, length_drop]
    omega
  have hoff : off < 65536 := by omega
  have hpiece : (data.take chunk).length = min chunk data.length := length_take
  have hchunk : 8 ≤ chunk ∧ chunk ≤ mtu - h.length ∧ chunk % 8 = 0 := by
    have : ¬ mtu < h.length + 8 := hmtu
    omega
  have hhl : ipv4HeaderLenOf f = h.length := hok.headerLenOf _
  have hflen : f.length = h.length + (data.take chunk).length := by simp only [f, length_append, length_fragHeader]
  have hoffset : ipv4Offset f = off := hok.offset _ hd.whole hoff h8
  have hdl : ipv4DataLen f = (data.take chunk).length := by rw [ipv4DataLen, hhl, hflen, Nat.add_sub_cancel_left]
  have hmore : ipv4More f = !decide (data.length ≤ chunk) := hok.more _ hd.whole hoff
  refine ⟨⟨?_, ?_, ?_, ?_, ?_, ?_, ?_⟩, hoffset, hdl, by omega⟩
  · exact (hok.fragKey _).trans hkey
  · omega
  · omega
  · rw [hhl, hdl, hoffset, ← hdata, hpiece, ← take_eq_take_min]
    exact drop_left' (length_fragHeader ..)
  · rw [hmore, ← decide_not, decide_eq_decide]
    omega
  · intro hm
    rw [hmore] at hm
    simp only [Bool.not_eq_true', decide_eq_false_iff_not] at hm
    omega
  · intro h0
    have hoff0 : off = 0 := hoffset.symm.trans h0
    have hh : h = firstHeader d := if_pos hoff0
    refine ⟨by rw [hhl, hh, hd.length_firstHeader], fun i hi hm => ?_⟩
    simp only [f, hh]
    exact hd.byteAt_first _ hi hm

/-- The loop of `ipv4_fragment` cuts what is left of the data. -/
lemma Ipv4Whole.fragmentLoop {n : Nat} (hdata : data = (ipv4Payload d).drop off)
    (hle : off ≤ (ipv4Payload d).length) (h8 : off % 8 = 0 ∨ data = [])
    (hf : fragmentLoop (firstHeader d) (laterHeader d) (be16At d 6) mtu n off data = some frags) :
    (∀ f ∈ frags, Ipv4FragmentOf d mtu f) ∧ Tiles ipv4Offset ipv4DataLen off frags (ipv4Payload d).length := by
  induction n generalizing off data frags with
  | zero =>
    cases data with
    | nil =>
      cases hf
      exact ⟨fun f hf => (nomatch hf), le_antisymm hle (drop_eq_nil_iff.1 hdata.symm)⟩
    | cons x xs => cases hf
  | succ n ih =>
    cases hcase : data with
    | nil =>
      rw [hcase] at hf hdata
      cases hf
      exact ⟨fun f hf => (nomatch hf), le_antisymm hle (drop_eq_nil_iff.1 hdata.symm)⟩
    | cons x xs =>
      have hne : data ≠ [] := by rw [hcase]; exact cons_ne_nil x xs
      have h8 : off % 8 = 0 := h8.resolve_right hne
      rw [hcase, L3.fragmentLoop, ← hcase] at hf
      split at hf
      · cases hf
      rename_i hmtu
      obtain ⟨rest, hrest, rfl⟩ := map_eq_some_iff.1 hf
      obtain ⟨hfrag, hoff, hdl, hpos⟩ := hd.turn hdata hne h8 hmtu
      have hlen : data.length = (ipv4Payload d).length - off := by rw [hdata, length_drop]
      set chunk := (mtu - (headerAt (firstHeader d) (laterHeader d) off).length) / 8 * 8 with hchunk
      have htake : (data.take chunk).length = min chunk data.length := length_take
      have hnext : data.drop chunk = (ipv4Payload d).drop (off + (data.take chunk).length) ∧
          ((off + (data.take chunk).length) % 8 = 0 ∨ data.drop chunk = []) := by
        rw [htake, ← drop_drop, ← hdata]
        rcases le_total data.length chunk with hl | hl
        · rw [min_eq_right hl, drop_eq_nil_of_le hl, drop_eq_nil_of_le le_rfl]
          exact ⟨rfl, .inr rfl⟩
        rw [min_eq_left hl]
        exact ⟨rfl, .inl (by omega)⟩
      obtain ⟨hall, htiles⟩ := ih hnext.1 (by omega) hnext.2 hrest
      refine ⟨?_, ?_, ?_, ?_⟩
      · intro f hf
        rcases mem_cons.1 hf with rfl | hf
        · exact hfrag
        · exact hall f hf
      · exact hoff
      · rw [hdl]
        exact hpos
      · rw [hdl]
        exact htiles

/-- The fragments of a datagram cover its data, each with the header it needs. -/
lemma Ipv4Whole.ipv4Fragment (hf : ipv4Fragment d mtu = some frags) :
    (∀ f ∈ frags, Ipv4FragmentOf d mtu f) ∧ Tiles ipv4Offset ipv4DataLen 0 frags (ipv4Payload d).length :=
  hd.fragmentLoop rfl (Nat.zero_le _) (.inl rfl) hf

end

end Fragment

/-! ## A queue that has some of the fragments -/

/-- The datagram that comes back: the payload, the length and all of the header but the fields that are set anew. -/
structure Ipv4Restored (d w : Bytes) : Prop where
  length : w.length = d.length
  payload : w.drop (ipv4HeaderLenOf d) = ipv4Payload d
  header : ∀ i < ipv4HeaderLenOf d, i ∉ ipv4Mutable → byteAt w i = byteAt d i

section Queue

variable {d : Bytes} {mtu : Nat} {frags r : List Bytes} {f : Bytes} {q : Ipv4Queue}

/-- The fragments of a datagram that is short enough. -/
structure Ipv4Cut (d : Bytes) (mtu : Nat) (frags : List Bytes) : Prop where
  whole : Ipv4Whole d
  fragments : ∀ f ∈ frags, Ipv4FragmentOf d mtu f
  tiles : Tiles ipv4Offset ipv4DataLen 0 frags (ipv4Payload d).length
  pos : 0 < (ipv4Payload d).length
  short : (ipv4Payload d).length ≤ ipv4MaxDatagram - ipv4MaxHeaderLen

/-- The queue has the fragments that are in `r`. -/
structure Ipv4Held (d : Bytes) (frags r : List Bytes) (q : Ipv4Queue) : Prop where
  queued : q.frags = (frags.filter (· ∈ r)).map ipv4FragOf
  count : q.nFrags = (frags.filter (· ∈ r)).length
  total : q.totalLen = 0 ∨ q.totalLen = (ipv4Payload d).length
  last : ∀ f ∈ frags, f ∈ r → ipv4More f = false → q.totalLen = (ipv4Payload d).length

lemma Ipv4Held.congr {r' : List Bytes} (h : Ipv4Held d frags r q) (hr : ∀ f ∈ frags, f ∈ r' ↔ f ∈ r) :
    Ipv4Held d frags r' q := by
  have hfilter : frags.filter (· ∈ r') = frags.filter (· ∈ r) := filter_congr fun f hf => decide_eq_decide.2 (hr f hf)
  exact ⟨by rw [hfilter, h.queued], by rw [hfilter, h.count], h.total, fun f hf hfr => h.last f hf ((hr f hf).1 hfr)⟩

/-- The last fragment ends where the payload does. -/
lemma Ipv4Cut.stop_of_last (hc : Ipv4Cut d mtu frags) (hf : f ∈ frags) (hm : ipv4More f = false) :
    ipv4Offset f + ipv4DataLen f = (ipv4Payload d).length := by
  have hle := (hc.tiles.mem_le hf).2.2
  rw [(hc.fragments f hf).more, decide_eq_false_iff_not] at hm
  omega

lemma Ipv4Cut.not_refused (hc : Ipv4Cut d mtu frags) (hf : f ∈ frags) : ipv4Refuses f = false := by
  have hfrag := hc.fragments f hf
  have htile := hc.tiles.mem_le hf
  have hshort : (ipv4Payload d).length ≤ 65475 := hc.short
  have hlen : (ipv4FragOf f).len = ipv4DataLen f := rfl
  have hoff : (ipv4FragOf f).offset = ipv4Offset f := rfl
  unfold ipv4Refuses
  simp only [Bool.or_eq_false_iff, Bool.and_eq_false_iff, decide_eq_false_iff_not]
  refine ⟨?_, by simp only [ipv4MaxDatagram, ipv4MaxHeaderLen]; omega⟩
  cases hm : ipv4More f with
  | false => exact .inl rfl
  | true => exact .inr ⟨by have := hfrag.units hm; omega, by omega⟩

variable {x : Ipv4Frag}

lemma trimFront_of_le {prev : Option Ipv4Frag} (h : ∀ p ∈ prev, p.offset + p.len ≤ x.offset) :
    Ipv4Queue.trimFront prev x = some x := by
  cases prev with
  | none => rfl
  | some p => exact if_pos (h p rfl)

lemma trimBack_of_le {next : Option Ipv4Frag} (h : ∀ n ∈ next, x.offset + x.len ≤ n.offset) :
    Ipv4Queue.trimBack next x = some x := by
  cases next with
  | none => rfl
  | some n => exact if_pos (h n rfl)

section

variable (hc : Ipv4Cut d mtu frags)
include hc

/-- A fragment that has not arrived meets no other, and one that has is dropped. -/
lemma Ipv4Cut.trim (hf : f ∈ frags) (h : q.frags = (frags.filter (· ∈ r)).map ipv4FragOf) :
    (Ipv4Queue.trimFront (q.frags.takeWhile fun c => c.offset < (ipv4FragOf f).offset).getLast? (ipv4FragOf f)).bind
      (Ipv4Queue.trimBack (q.frags.dropWhile fun c => c.offset < (ipv4FragOf f).offset).head?) =
        if f ∈ r then none else some (ipv4FragOf f) := by
  have hfront : ∀ p ∈ (q.frags.takeWhile fun c => c.offset < (ipv4FragOf f).offset).getLast?,
      p.offset + p.len ≤ (ipv4FragOf f).offset := by
    intro p hp
    have hp := mem_of_mem_getLast? hp
    rw [h, takeWhile_map] at hp
    obtain ⟨g, hg, rfl⟩ := mem_map.1 hp
    exact hc.tiles.takeWhile_filter hf g hg
  rw [trimFront_of_le hfront, bind_some, h, dropWhile_map, List.head?_map]
  split <;> rename_i hr
  · -- it is the first that does not start before itself, and overlaps with all of itself
    have harrived := hc.tiles.dropWhile_filter_of_arrived (P := fun g => decide (g ∈ r)) hf (by simpa using hr)
    have hpos := (hc.tiles.mem_le hf).2.1
    have hhead : (List.dropWhile ((fun c : Ipv4Frag => decide (c.offset < (ipv4FragOf f).offset)) ∘ ipv4FragOf)
        (frags.filter (· ∈ r))).head? = some f := harrived
    rw [hhead]
    have hlen : (ipv4FragOf f).len = ipv4DataLen f := rfl
    simp only [map_some, Ipv4Queue.trimBack]
    rw [if_neg (by omega), if_pos (.inr trivial)]
  · refine trimBack_of_le fun n hn => ?_
    obtain ⟨g, hg, rfl⟩ := map_eq_some_iff.1 hn
    exact hc.tiles.dropWhile_filter hf (by simpa using hr) g hg

/-- A piece that is new to the queue. -/
lemma Ipv4Cut.insert (hf : f ∈ frags) (hr : f ∉ r) (h : q.frags = (frags.filter (· ∈ r)).map ipv4FragOf) :
    (q.frags.takeWhile fun c => c.offset < (ipv4FragOf f).offset) ++
      ipv4FragOf f :: (q.frags.dropWhile fun c => c.offset < (ipv4FragOf f).offset) =
        (frags.filter (· ∈ f :: r)).map ipv4FragOf := by
  have hinsert := @insertPiece_map _ _ Ipv4Frag.offset ipv4FragOf f (frags.filter (· ∈ r))
  have hfilter := hc.tiles.insertPiece_filter (P := fun g => decide (g ∈ r)) hf (by simpa using hr)
  rw [insertPiece, ← h] at hinsert
  rw [hinsert]
  have hcomp : (Ipv4Frag.offset ∘ ipv4FragOf) = ipv4Offset := rfl
  rw [hcomp, hfilter]
  simp [Bool.or_comm]

/-- The payload of the fragments, put together. -/
lemma Ipv4Cut.bodies : (frags.map fun f => f.drop (ipv4HeaderLenOf f)).flatten = ipv4Payload d := by
  have hmap : (frags.map fun f => f.drop (ipv4HeaderLenOf f)) =
      frags.map fun f => ((ipv4Payload d).drop (ipv4Offset f)).take (ipv4DataLen f) :=
    map_congr_left fun f hf => (hc.fragments f hf).body
  rw [hmap, hc.tiles.flatten_eq]
  simp

/-- All fragments in their order: the header of the first, and the payload. -/
lemma Ipv4Cut.joined : ∃ first rest, frags = first :: rest ∧ ipv4Offset first = 0 ∧
    (frags.map fun f => (ipv4FragOf f).nb).flatten = first.take (ipv4HeaderLenOf first) ++ ipv4Payload d := by
  cases hfrags : frags with
  | nil =>
    have htiles := hc.tiles
    rw [hfrags] at htiles
    have h0 : 0 = (ipv4Payload d).length := htiles
    have := hc.pos
    omega
  | cons first rest =>
    have htiles := hc.tiles
    rw [hfrags] at htiles
    obtain ⟨hfirst, hlen, hrest⟩ := htiles
    refine ⟨first, rest, rfl, hfirst, ?_⟩
    have hnb : (ipv4FragOf first).nb = first := if_neg (by simpa using hfirst)
    have hothers : (rest.map fun f => (ipv4FragOf f).nb) = rest.map fun f => f.drop (ipv4HeaderLenOf f) := by
      refine map_congr_left fun f hf => if_pos ?_
      have := hrest.mem_le hf
      omega
    have hbodies := hc.bodies
    rw [hfrags, map_cons, flatten_cons] at hbodies
    rw [map_cons, flatten_cons, hnb, hothers, ← hbodies, ← append_assoc, take_append_drop]

/-- The header that is put before the payload is the original's but for the fields that are set. -/
lemma Ipv4Cut.restored {first : Bytes} (hf : first ∈ frags) (h0 : ipv4Offset first = 0) :
    let head := first.take (ipv4HeaderLenOf first) ++ ipv4Payload d
    Ipv4Restored d (finishHeader (head.take (ipv4HeaderLenOf head)) head.length 0 ++ head.drop (ipv4HeaderLenOf head)) := by
  intro head
  have hfrag := hc.fragments first hf
  have hmin := hc.whole.header_min
  have hle := hc.whole.header_le
  obtain ⟨hhl, hbytes⟩ := hfrag.first h0
  have hlen : (first.take (ipv4HeaderLenOf first)).length = ipv4HeaderLenOf d := by
    have := hfrag.header
    rw [length_take]
    omega
  have hhead : ipv4HeaderLenOf head = ipv4HeaderLenOf d := by
    have hbyte : byteAt head 0 = byteAt first 0 := by rw [byteAt_append_left _ (by omega), byteAt_take _ (by omega)]
    rw [ipv4HeaderLenOf, hbyte]
    exact hhl
  have htake : head.take (ipv4HeaderLenOf d) = first.take (ipv4HeaderLenOf first) := take_left' hlen
  have hdrop : head.drop (ipv4HeaderLenOf d) = ipv4Payload d := drop_left' hlen
  rw [hhead, htake, hdrop]
  refine ⟨?_, ?_, ?_⟩
  · rw [length_append, length_finishHeader, ipv4Payload, length_drop]
    omega
  · exact drop_left' (by rw [length_finishHeader, hlen])
  intro i hi hm
  rw [byteAt_append_left _ (by rw [length_finishHeader]; omega), byteAt_finishHeader hm, byteAt_take _ (by omega)]
  exact hbytes i hi hm

/-- When all fragments are there the datagram is. -/
lemma Ipv4Held.complete (h : Ipv4Held d frags r q) (hall : frags ⊆ r) :
    ∃ w, q.complete = some w ∧ Ipv4Restored d w := by
  obtain ⟨first, rest, hfrags, h0, hjoined⟩ := hc.joined
  have hmem : first ∈ frags := by rw [hfrags]; exact mem_cons_self
  have hfilter : frags.filter (· ∈ r) = frags := filter_eq_self.2 fun f hf => by simpa using hall hf
  have hqueue : q.frags = ipv4FragOf first :: rest.map ipv4FragOf := by rw [h.queued, hfilter, hfrags, map_cons]
  -- the fragment at the end has no more after it
  obtain ⟨z, hz, hstop⟩ : ∃ f ∈ frags, ipv4Offset f + ipv4DataLen f = (ipv4Payload d).length :=
    hc.tiles.exists_stop (by rw [hfrags]; exact cons_ne_nil _ _)
  have htotal : q.totalLen = (ipv4Payload d).length := by
    refine h.last z hz (hall hz) ?_
    rw [(hc.fragments z hz).more, decide_eq_false_iff_not]
    omega
  have hend : endOf Ipv4Frag.offset Ipv4Frag.len 0 (ipv4FragOf first :: rest.map ipv4FragOf) = some q.totalLen := by
    have hmap := @endOf_map _ _ Ipv4Frag.offset Ipv4Frag.len ipv4FragOf 0 frags
    rw [hfrags, map_cons] at hmap
    rw [hmap, htotal, ← hfrags]
    exact hc.tiles.endOf_eq
  have hnb : (ipv4FragOf first).nb = first := if_neg (by simpa using h0)
  have hfits : ¬ ipv4MaxDatagram < (ipv4FragOf first).nb.length - (ipv4FragOf first).len + q.totalLen := by
    have hlen : (ipv4FragOf first).len = first.length - ipv4HeaderLenOf first := rfl
    have hmax := hc.whole.max
    have hle := hc.whole.header_le
    have hpay : (ipv4Payload d).length = d.length - ipv4HeaderLenOf d := length_drop
    rw [hnb, hlen, ((hc.fragments first hmem).first h0).1]
    omega
  have hhead : ((ipv4FragOf first :: rest.map ipv4FragOf).map Ipv4Frag.nb).flatten =
      first.take (ipv4HeaderLenOf first) ++ ipv4Payload d := by
    rw [← hjoined, hfrags, map_cons, List.map_map]
    rfl
  have hstart : ¬ (q.totalLen = 0 ∨ (ipv4FragOf first).offset ≠ 0) := by
    rintro (ht | ho)
    · exact hc.pos.ne' (htotal.symm.trans ht)
    · exact ho h0
  refine ⟨_, ?_, hc.restored hmem h0⟩
  unfold Ipv4Queue.complete
  rw [hqueue]
  dsimp only
  rw [if_neg hstart, if_neg (not_not.2 hend), if_neg hfits, hhead]

/-- While a fragment is missing there is no datagram. -/
lemma Ipv4Held.not_complete (h : Ipv4Held d frags r q) (hnot : ¬ frags ⊆ r) : q.complete = none := by
  unfold Ipv4Queue.complete
  split
  · rfl
  rename_i hqueue
  split
  · rfl
  rename_i hok
  rw [not_or] at hok
  refine if_pos fun hend => hnot ?_
  rw [← hqueue, h.queued, endOf_map, h.total.resolve_left hok.1] at hend
  intro f hf
  simpa using hc.tiles.of_endOf_filter hend f hf

omit hc in
/-- Fewer are in the queue than there are where one is missing. -/
lemma Ipv4Held.count_lt (h : Ipv4Held d frags r q) (hf : f ∈ frags) (hr : f ∉ r) : q.nFrags < frags.length := by
  rw [h.count]
  exact length_filter_lt_length_iff_exists.2 ⟨f, hf, by simpa using hr⟩

/-- A fragment arrives that the queue does not have. -/
lemma Ipv4Held.arrives (h : Ipv4Held d frags r q) (hn : frags.length ≤ ipv4ReassembleMaxFrags) (hf : f ∈ frags)
    (hr : f ∉ r) : (frags ⊆ f :: r ∧ ∃ w, q.step true (ipv4FragOf f) (ipv4More f) = .done w ∧ Ipv4Restored d w) ∨
    (¬ frags ⊆ f :: r ∧ ∃ q', q.step true (ipv4FragOf f) (ipv4More f) = .keep q' ∧ Ipv4Held d frags (f :: r) q') := by
  have hstop : ipv4More f = false → (ipv4FragOf f).offset + (ipv4FragOf f).len = (ipv4Payload d).length :=
    hc.stop_of_last hf
  have hcount : ¬ ipv4ReassembleMaxFrags ≤ q.nFrags := Nat.not_le.2 ((h.count_lt hf hr).trans_le hn)
  have hagree : ¬ (ipv4More f = false ∧ q.totalLen ≠ 0 ∧ q.totalLen ≠ (ipv4FragOf f).offset + (ipv4FragOf f).len) := by
    rintro ⟨hm, hne, hother⟩
    exact hother (by rw [h.total.resolve_left hne, hstop hm])
  -- the queue before the fragment joins it
  obtain ⟨q₁, hq₁, hq₁f, hq₁n, hq₁t, hq₁l⟩ : ∃ q₁ : Ipv4Queue,
      q₁ = (if ipv4More f = true then q else { q with totalLen := (ipv4FragOf f).offset + (ipv4FragOf f).len }) ∧
      q₁.frags = q.frags ∧ q₁.nFrags = q.nFrags ∧ (q₁.totalLen = 0 ∨ q₁.totalLen = (ipv4Payload d).length) ∧
      ∀ g ∈ frags, g ∈ f :: r → ipv4More g = false → q₁.totalLen = (ipv4Payload d).length := by
    refine ⟨_, rfl, ?_⟩
    cases hm : ipv4More f with
    | true =>
      refine ⟨rfl, rfl, h.total, fun g hg hgr hgm => ?_⟩
      rcases mem_cons.1 hgr with rfl | hgr
      · rw [hm] at hgm
        cases hgm
      · exact h.last g hg hgr hgm
    | false => exact ⟨rfl, rfl, .inr (hstop hm), fun g hg hgr hgm => hstop hm⟩
  have hqueue : q₁.frags = (frags.filter (· ∈ r)).map ipv4FragOf := hq₁f.trans h.queued
  have hheld : Ipv4Held d frags (f :: r) { q₁ with
      frags := (q₁.frags.takeWhile fun c => c.offset < (ipv4FragOf f).offset) ++
        ipv4FragOf f :: (q₁.frags.dropWhile fun c => c.offset < (ipv4FragOf f).offset)
      nFrags := q₁.nFrags + 1 } := by
    refine ⟨hc.insert hf hr hqueue, ?_, hq₁t, hq₁l⟩
    have hlen := (@length_insertPiece _ Ipv4Frag.offset q₁.frags (ipv4FragOf f)).symm.trans
      (congrArg List.length (hc.insert hf hr hqueue))
    rwa [length_map, hqueue, length_map, ← h.count, ← hq₁n] at hlen
  have hstep : q.step true (ipv4FragOf f) (ipv4More f) = q₁.accept true (ipv4FragOf f) := by
    unfold Ipv4Queue.step
    rw [if_neg hagree, ← hq₁]
    exact if_neg (by rw [hq₁n]; exact hcount)
  rw [hstep]
  unfold Ipv4Queue.accept
  dsimp only
  rw [hc.trim hf hqueue, if_neg hr]
  dsimp only
  rw [if_neg (by decide)]
  by_cases hall : frags ⊆ f :: r
  · obtain ⟨w, hw, hres⟩ := hheld.complete hc hall
    exact .inl ⟨hall, w, by rw [hw], hres⟩
  · exact .inr ⟨hall, _, by rw [hheld.not_complete hc hall], hheld⟩

/-- A fragment arrives again. -/
lemma Ipv4Held.again (h : Ipv4Held d frags r q) (hn : frags.length ≤ ipv4ReassembleMaxFrags)
    (hf : f ∈ frags) (hr : f ∈ r) (hnot : ¬ frags ⊆ r) : q.step true (ipv4FragOf f) (ipv4More f) = .keep q := by
  have hcount : ¬ ipv4ReassembleMaxFrags ≤ q.nFrags := by
    obtain ⟨g, hg, hgr⟩ : ∃ g ∈ frags, g ∉ r := by simpa [subset_def] using hnot
    exact Nat.not_le.2 ((h.count_lt hg hgr).trans_le hn)
  have hsame : ipv4More f = false → q.totalLen = (ipv4FragOf f).offset + (ipv4FragOf f).len := fun hm =>
    (h.last f hf hr hm).trans (hc.stop_of_last hf hm).symm
  have hq : (if ipv4More f = true then q else { q with totalLen := (ipv4FragOf f).offset + (ipv4FragOf f).len }) = q := by
    cases hm : ipv4More f with
    | true => rfl
    | false =>
      rw [if_neg (by decide), ← hsame hm]
  unfold Ipv4Queue.step
  rw [if_neg fun hd => hd.2.2 (hsame hd.1), hq]
  rw [if_neg hcount]
  unfold Ipv4Queue.accept
  dsimp only
  rw [hc.trim hf h.queued, if_pos hr]

end

end Queue

/-! ## Any traffic -/

/-- A packet that arrives, and the memory there is for it. -/
structure Ipv4Arrival where
  mem : Ipv4Mem
  nb : Bytes

/-- The datagrams that `ipv4_reassemble` returns for the packets with the key `k`. -/
def ipv4Delivered (k : List UInt8) : Ipv4Queues → List Ipv4Arrival → List Bytes
  | _, [] => []
  | qs, a :: as =>
    let r := ipv4Reassemble a.mem qs a.nb
    (if ipv4FragKey a.nb = k then r.1.toList else []) ++ ipv4Delivered k r.2 as

/-- No queue is thrown out for a packet that does not have the key `k`: there is one for it, or there is room. -/
def Ipv4Roomy (k : List UInt8) : Ipv4Queues → List Ipv4Arrival → Prop
  | _, [] => True
  | qs, a :: as =>
    (ipv4FragKey a.nb ≠ k → (lookup qs (ipv4FragKey a.nb)).isSome ∨ qs.length < ipv4ReassembleMaxQueues) ∧
    Ipv4Roomy k (ipv4Reassemble a.mem qs a.nb).2 as

section Traffic

variable {d : Bytes} {mtu : Nat} {frags r : List Bytes} {k : List UInt8} {qs : Ipv4Queues}

variable {as : List Ipv4Arrival}

/-- There is no other traffic. -/
lemma ipv4Roomy_of_key (h : ∀ a ∈ as, ipv4FragKey a.nb = k) : Ipv4Roomy k qs as := by
  induction as generalizing qs with
  | nil => trivial
  | cons a as ih => exact ⟨fun hk => absurd (h a mem_cons_self) hk, ih fun b hb => h b (mem_cons_of_mem a hb)⟩

/-- A packet of another datagram leaves the queue alone. -/
lemma ipv4Reassemble_other {a : Ipv4Arrival} (hk : ipv4FragKey a.nb ≠ k)
    (hroom : (lookup qs (ipv4FragKey a.nb)).isSome ∨ qs.length < ipv4ReassembleMaxQueues) :
    lookup (ipv4Reassemble a.mem qs a.nb).2 k = lookup qs k := by
  have hsame : room qs (ipv4FragKey a.nb) ipv4ReassembleMaxQueues = qs := if_pos hroom
  unfold ipv4Reassemble
  split
  · rfl
  dsimp only
  rw [hsame]
  split
  · rfl
  unfold Ipv4Queue.Step.settle
  split
  · exact lookup_put_ne hk.symm
  · exact lookup_remove_ne hk.symm
  · exact lookup_remove_ne hk.symm

/-- The table has the fragments in `r` of the datagram, and not all; before the first there is no queue for it. -/
def Ipv4Collects (d : Bytes) (frags r : List Bytes) (qs : Ipv4Queues) : Prop :=
  ¬ frags ⊆ r ∧ ((r = [] ∧ lookup qs (ipv4FragKey d) = none) ∨
    ∃ q, lookup qs (ipv4FragKey d) = some q ∧ Ipv4Held d frags r q)

lemma Ipv4Held.empty (d : Bytes) (frags : List Bytes) : Ipv4Held d frags [] ⟨[], 0, 0⟩ :=
  ⟨by simp, by simp, .inl rfl, fun f _ hf => (nomatch hf)⟩

/-- The queue that a fragment of the datagram finds, or the new one. -/
lemma Ipv4Collects.queue (h : Ipv4Collects d frags r qs) :
    Ipv4Held d frags r ((lookup qs (ipv4FragKey d)).getD ⟨[], 0, 0⟩) := by
  rcases h.2 with ⟨rfl, hnone⟩ | ⟨q, hq, hheld⟩
  · rw [hnone]
    exact .empty d frags
  rw [hq]
  exact hheld

/-- A fragment of the datagram arrives. -/
lemma Ipv4Collects.arrives (hc : Ipv4Cut d mtu frags) (h : Ipv4Collects d frags r qs)
    (hn : frags.length ≤ ipv4ReassembleMaxFrags) {f : Bytes} (hf : f ∈ frags) :
    (frags ⊆ f :: r ∧ ∃ w, (ipv4Reassemble ⟨true, true⟩ qs f).1 = some w ∧ Ipv4Restored d w ∧
      Ipv4Collects d frags [] (ipv4Reassemble ⟨true, true⟩ qs f).2) ∨
    (¬ frags ⊆ f :: r ∧ (ipv4Reassemble ⟨true, true⟩ qs f).1 = none ∧
      Ipv4Collects d frags (f :: r) (ipv4Reassemble ⟨true, true⟩ qs f).2) := by
  have hkey := (hc.fragments f hf).key
  have hunfold : ipv4Reassemble ⟨true, true⟩ qs f =
      (((lookup qs (ipv4FragKey d)).getD ⟨[], 0, 0⟩).step true (ipv4FragOf f) (ipv4More f)).settle
        (room qs (ipv4FragKey d) ipv4ReassembleMaxQueues) (ipv4FragKey d) := by
    unfold ipv4Reassemble
    rw [if_neg (by rw [hc.not_refused hf]; decide)]
    rw [if_neg (by simp), hkey]
  rw [hunfold]
  by_cases hr : f ∈ r
  · -- a duplicate: the queue keeps what it has
    have hsub : ¬ frags ⊆ f :: r := fun hs => h.1 fun g hg => by
      rcases mem_cons.1 (hs hg) with rfl | hg
      · exact hr
      · exact hg
    rw [h.queue.again hc hn hf hr h.1]
    refine .inr ⟨hsub, rfl, hsub, .inr ⟨_, lookup_put_same, h.queue.congr fun g _ => ?_⟩⟩
    rw [mem_cons, or_iff_right_of_imp]
    rintro rfl
    exact hr
  · rcases h.queue.arrives hc hn hf hr with ⟨hall, w, hstep, hres⟩ | ⟨hnot, q', hstep, hheld⟩ <;> rw [hstep]
    · have hempty : ¬ frags ⊆ [] := by
        intro hs
        cases hs hf
      exact .inl ⟨hall, w, rfl, hres, hempty, .inl ⟨rfl, lookup_remove_same⟩⟩
    · exact .inr ⟨hnot, rfl, hnot, .inr ⟨q', lookup_put_same, hheld⟩⟩

/-- The packets of a traffic that have the key `k`. -/
def ipv4Ours (k : List UInt8) (as : List Ipv4Arrival) : List Bytes :=
  (as.filter fun a => ipv4FragKey a.nb = k).map Ipv4Arrival.nb

/-- What the table delivers of the datagram, however it is interleaved with other traffic, is what collecting its
fragments delivers. -/
lemma Ipv4Collects.delivered (hc : Ipv4Cut d mtu frags) (hn : frags.length ≤ ipv4ReassembleMaxFrags)
    (h : Ipv4Collects d frags r qs)
    (has : ∀ a ∈ as, ipv4FragKey a.nb = ipv4FragKey d → a.nb ∈ frags ∧ a.mem = ⟨true, true⟩)
    (hroom : Ipv4Roomy (ipv4FragKey d) qs as) :
    (ipv4Delivered (ipv4FragKey d) qs as).length = (deliveries frags r (ipv4Ours (ipv4FragKey d) as)).count true ∧
      ∀ w ∈ ipv4Delivered (ipv4FragKey d) qs as, Ipv4Restored d w := by
  induction as generalizing r qs with
  | nil => exact ⟨rfl, fun w hw => (nomatch hw)⟩
  | cons a as ih =>
    have has' := fun b hb => has b (mem_cons_of_mem a hb)
    obtain ⟨hthis, hrest⟩ := hroom
    by_cases hk : ipv4FragKey a.nb = ipv4FragKey d
    · obtain ⟨hf, hmem⟩ := has a mem_cons_self hk
      have hours : ipv4Ours (ipv4FragKey d) (a :: as) = a.nb :: ipv4Ours (ipv4FragKey d) as := by simp [ipv4Ours, hk]
      rw [hours, ipv4Delivered, if_pos hk]
      rw [hmem] at hrest ⊢
      rcases h.arrives hc hn hf with ⟨hall, w, hw, hres, hnext⟩ | ⟨hnot, hw, hnext⟩
      · obtain ⟨hlen, hothers⟩ := ih hnext has' hrest
        rw [hw, deliveries, if_pos hall, count_cons_self, ← hlen]
        refine ⟨by simp [add_comm], fun v hv => ?_⟩
        rcases mem_append.1 hv with hv | hv
        · rw [toList_some, mem_singleton] at hv
          rw [hv]
          exact hres
        · exact hothers v hv
      · obtain ⟨hlen, hothers⟩ := ih hnext has' hrest
        rw [hw, deliveries, if_neg hnot, count_cons_of_ne (by decide), ← hlen]
        exact ⟨rfl, hothers⟩
    · have hours : ipv4Ours (ipv4FragKey d) (a :: as) = ipv4Ours (ipv4FragKey d) as := by simp [ipv4Ours, hk]
      have hnext : Ipv4Collects d frags r (ipv4Reassemble a.mem qs a.nb).2 := by
        unfold Ipv4Collects
        rw [ipv4Reassemble_other hk (hthis hk)]
        exact h
      rw [hours, ipv4Delivered, if_neg hk]
      exact ih hnext has' hrest

end Traffic

/-! ## The datagrams of `ipv4_output` -/

/-- A header that says how long it is, before a payload. -/
lemma HeaderOk.whole {hdr nb : Bytes} (hok : HeaderOk hdr) (h0 : byteAt hdr 0 = UInt8.ofNat (0x40 + hdr.length / 4))
    (hmax : nb.length + hdr.length ≤ ipv4MaxDatagram) (totalLen : Nat) :
    Ipv4Whole (finishHeader hdr totalLen 0 ++ nb) ∧ ipv4Payload (finishHeader hdr totalLen 0 ++ nb) = nb := by
  have hle := hok.le
  have hmax60 := hok.max
  have hwords := hok.words
  have hlen : (finishHeader hdr totalLen 0).length = hdr.length := length_finishHeader ..
  have hbyte : (byteAt (finishHeader hdr totalLen 0 ++ nb) 0).toNat = 0x40 + hdr.length / 4 := by
    rw [byteAt_append_left _ (by omega), byteAt_finishHeader (by decide), h0, hok.first_byte]
  have hhl : ipv4HeaderLenOf (finishHeader hdr totalLen 0 ++ nb) = hdr.length := by
    rw [ipv4HeaderLenOf]
    omega
  have htotal : (finishHeader hdr totalLen 0 ++ nb).length = hdr.length + nb.length := by rw [length_append, hlen]
  refine ⟨⟨?_, ?_, ?_, ?_, ?_⟩, ?_⟩
  · omega
  · omega
  · omega
  · omega
  · rw [be16At_append_left _ (by omega), be16At_finishHeader_frag (by omega) (by omega)]
  · rw [ipv4Payload, hhl]
    exact drop_left' hlen

lemma length_paddedOptions (opts : Option Ipv4Options) : (paddedOptions opts).length % 4 = 0 := by
  simp only [paddedOptions, length_append, length_replicate]
  omega

/-- The datagrams that `ipv4_output` makes are whole. -/
lemma ipv4Datagram_whole {opts : Option Ipv4Options} {id : Nat} {src dst : InAddr} {protocol : UInt8} {nb d : Bytes}
    (h : ipv4Datagram false opts id src dst protocol nb = .ok d) : Ipv4Whole d ∧ ipv4Payload d = nb := by
  unfold ipv4Datagram at h
  rw [if_neg (by decide)] at h
  dsimp only at h
  split at h
  · cases h
  rename_i hok
  obtain ⟨hopt, hmax⟩ := not_or.1 hok
  cases h
  have hwords := length_paddedOptions opts
  have hlen : (outputHeader opts id src dst protocol).length = 20 + (paddedOptions opts).length := by
    simp only [outputHeader, InAddr.bytes, length_append, length_cons, length_nil]
  simp only [ipv4MaxHeaderLen, ipv4HeaderLen, ipv4MaxDatagram] at hopt hmax
  refine HeaderOk.whole ⟨by omega, by omega, by omega⟩ ?_ (by simp only [ipv4MaxDatagram]; omega) _
  rw [hlen]
  rfl

/-- The fragments of a datagram with at most 65475 bytes of data, in any order, with duplicates and among other traffic,
give one datagram: the original but for the fields that are set anew. -/
theorem fragments_round_trip {raw : Bool} {opts : Option Ipv4Options} {id : Nat} {src dst : InAddr} {protocol : UInt8}
    {nb d : Bytes} {mtu : Nat} {frags : List Bytes} {qs : Ipv4Queues} {as : List Ipv4Arrival}
    (hd : ipv4Datagram raw opts id src dst protocol nb = .ok d) (hraw : raw = true → Ipv4Whole d)
    (hpos : 0 < (ipv4Payload d).length) (hshort : (ipv4Payload d).length ≤ ipv4MaxDatagram - ipv4MaxHeaderLen)
    (hf : ipv4Fragment d mtu = some frags) (hn : frags.length ≤ ipv4ReassembleMaxFrags)
    (hqs : lookup qs (ipv4FragKey d) = none)
    (has : ∀ a ∈ as, ipv4FragKey a.nb = ipv4FragKey d → a.nb ∈ frags ∧ a.mem = ⟨true, true⟩)
    (hroom : Ipv4Roomy (ipv4FragKey d) qs as) (hall : frags ⊆ as.map Ipv4Arrival.nb)
    (honce : ∀ pre post, ipv4Ours (ipv4FragKey d) as = pre ++ post → frags ⊆ pre → ¬ frags ⊆ post) :
    (raw = false → ipv4Payload d = nb) ∧ (∀ f ∈ frags, f.length ≤ mtu) ∧
      ∃ w, ipv4Delivered (ipv4FragKey d) qs as = [w] ∧ Ipv4Restored d w := by
  have hwhole : Ipv4Whole d := by
    cases raw with
    | true => exact hraw rfl
    | false => exact (ipv4Datagram_whole hd).1
  obtain ⟨hfragments, htiles⟩ := hwhole.ipv4Fragment hf
  have hc : Ipv4Cut d mtu frags := ⟨hwhole, hfragments, htiles, hpos, hshort⟩
  have hne : ¬ frags ⊆ [] := by
    obtain ⟨first, rest, hfrags, -⟩ := hc.joined
    rw [hfrags]
    exact fun hs => (nomatch hs mem_cons_self)
  have hours : frags ⊆ [] ++ ipv4Ours (ipv4FragKey d) as := by
    intro f hf
    obtain ⟨a, ha, rfl⟩ := mem_map.1 (hall hf)
    exact mem_map.2 ⟨a, mem_filter.2 ⟨ha, by simpa using (hfragments _ hf).key⟩, rfl⟩
  have hstart : Ipv4Collects d frags [] qs := ⟨hne, .inl ⟨rfl, hqs⟩⟩
  obtain ⟨hlen, hres⟩ := hstart.delivered hc hn has hroom
  rw [deliveries_once hours hne honce] at hlen
  obtain ⟨w, hw⟩ := length_eq_one_iff.1 hlen
  refine ⟨?_, fun f hf => (hfragments f hf).fits, w, hw, hres w (by rw [hw]; exact mem_singleton.2 rfl)⟩
  rintro rfl
  exact (ipv4Datagram_whole hd).2

/-- Nine bytes from 10.0.0.1 to 10.0.0.2. -/
def nineBytes : Bytes :=
  [0x45, 0, 0, 29, 0, 7, 0, 0, 64, 17, 0x66, 0xc7, 10, 0, 0, 1, 10, 0, 0, 2, 1, 2, 3, 4, 5, 6, 7, 8, 9]

/-- Their fragments where the link takes 28 bytes. -/
def nineBytesFrags : List Bytes :=
  [[0x45, 0, 0, 28, 0, 7, 0x20, 0, 64, 17, 0x46, 0xc8, 10, 0, 0, 1, 10, 0, 0, 2, 1, 2, 3, 4, 5, 6, 7, 8],
    [0x45, 0, 0, 21, 0, 7, 0, 1, 64, 17, 0x66, 0xce, 10, 0, 0, 1, 10, 0, 0, 2, 9]]

/-- The two fragments arrive in the other order, the last one twice. -/
def nineBytesArrivals : List Ipv4Arrival :=
  (nineBytesFrags.reverse ++ nineBytesFrags.drop 1).map fun f => ⟨⟨true, true⟩, f⟩

theorem fragments_round_trip_nineBytes :
    ∃ w, ipv4Delivered (ipv4FragKey nineBytes) [] nineBytesArrivals = [w] ∧ Ipv4Restored nineBytes w := by
  have hd : ipv4Datagram false none 7 ⟨10, 0, 0, 1⟩ ⟨10, 0, 0, 2⟩ 17 [1, 2, 3, 4, 5, 6, 7, 8, 9] = .ok nineBytes := rfl
  have hf : ipv4Fragment nineBytes 28 = some nineBytesFrags := rfl
  have hkey : ∀ f ∈ nineBytesFrags.reverse ++ nineBytesFrags.drop 1,
      ipv4FragKey f = ipv4FragKey nineBytes ∧ f ∈ nineBytesFrags := by decide +kernel
  refine (fragments_round_trip hd nofun (by decide) (by decide) hf (by decide) rfl ?_ (ipv4Roomy_of_key ?_) (by decide)
    (not_twice_of_count (b := nineBytesFrags.headD []) (by decide) (by decide +kernel))).2.2
  · intro a ha _
    obtain ⟨f, hf, rfl⟩ := mem_map.1 ha
    exact ⟨(hkey f hf).2, rfl⟩
  intro a ha
  obtain ⟨f, hf, rfl⟩ := mem_map.1 ha
  exact (hkey f hf).1

/-- A payload of 65515 bytes under a header of 20, in fragments of 1500. As if every header had 60 bytes, a fragment that
reaches beyond 65475 is refused, so the last one is, and the datagram is never complete. -/
theorem Bugs.long_payload_lost : ∃ d frags,
    ipv4Datagram false none 7 ⟨10, 0, 0, 1⟩ ⟨10, 0, 0, 2⟩ 17 (List.replicate 65515 0) = .ok d ∧
    ipv4Fragment d 1500 = some frags ∧ frags.length ≤ ipv4ReassembleMaxFrags ∧
    ipv4Delivered (ipv4FragKey d) [] (frags.map fun f => ⟨⟨true, true⟩, f⟩) = [] := by
  have h : ((ipv4Datagram false none 7 ⟨10, 0, 0, 1⟩ ⟨10, 0, 0, 2⟩ 17 (List.replicate 65515 0)).toOption.bind fun d =>
      (ipv4Fragment d 1500).map fun frags => decide (frags.length ≤ ipv4ReassembleMaxFrags ∧
        ipv4Delivered (ipv4FragKey d) [] (frags.map fun f => ⟨⟨true, true⟩, f⟩) = [])) = some true := by
    decide +kernel
  generalize ipv4Datagram _ _ _ _ _ _ _ = x at h ⊢
  obtain ⟨d, hd, hfrags⟩ := bind_eq_some_iff.1 h
  obtain ⟨frags, hfrags, hlost⟩ := map_eq_some_iff.1 hfrags
  cases x with
  | error e => cases hd
  | ok d' =>
    cases hd
    exact ⟨d, frags, rfl, hfrags, of_decide_eq_true hlost⟩

end Hermes.L3
