import Mathlib

/-!
# DMA maps

`hardware/memory/dma.c`: a buffer becomes a list of physical segments that the tag of a device allows, or is bounced
through pages of the map's own. Segments are kept with the last one first. The reference counts are left out, and the
pages that `alloc_pages` gives back at both ends of what it got.

* `scatter_list`: what `dma_map_load` (dma.c:315) returns covers the buffer within the tag's limits.
* `bounce_without_pages`: a map that has too few pages to bounce through.
-/
namespace Hermes.L2.Dma

open List Option

inductive DmaErr
  | inval
  | busy
  | fault
  | noMem
  | tooBig
deriving DecidableEq

/-- `power_of_two` -/
def powerOfTwo (x : Nat) : Bool := x != 0 && (x &&& (x - 1)) == 0

/-- `~x` -/
def not64 (x : Nat) : Nat := 2 ^ 64 - 1 - x

/-- `struct dma_tag`, with what `dma_tag_create` makes sure of. -/
structure Tag where
  alignment : UInt64
  boundary : UInt64
  maxAddr : UInt64
  maxSize : UInt64
  maxSegments : Nat
  maxSegmentSize : UInt64
  pow_alignment : powerOfTwo alignment.toNat = true
  pow_boundary : boundary = 0 ∨ powerOfTwo boundary.toNat = true
  size_ne : maxSegmentSize ≠ 0

/-- The constraints of the parent, if there is one. -/
def Tag.within (t : Tag) : Option Tag → Tag
  | none => t
  | some p =>
    { t with
      alignment := if t.alignment < p.alignment then p.alignment else t.alignment
      boundary := if p.boundary ≠ 0 ∧ (t.boundary = 0 ∨ p.boundary < t.boundary) then p.boundary else t.boundary
      maxAddr := if p.maxAddr < t.maxAddr then p.maxAddr else t.maxAddr
      pow_alignment := by
        split
        · exact p.pow_alignment
        · exact t.pow_alignment
      pow_boundary := by
        split
        · exact p.pow_boundary
        · exact t.pow_boundary }

/-- A segment is no longer than the boundary. -/
def Tag.clip (t : Tag) : Tag := { t with
    maxSegmentSize := if t.boundary ≠ 0 ∧ t.boundary < t.maxSegmentSize then t.boundary else t.maxSegmentSize
    size_ne := by
      split
      · rename_i h
        exact h.1
      · exact t.size_ne }

/-- `dma_tag_create`, where there is memory for the tag -/
def dmaTagCreate (parent : Option Tag) (alignment boundary maxAddr maxSize : UInt64) (maxSegments : Int)
    (maxSegmentSize : UInt64) : Except DmaErr Tag :=
  if maxSize = 0 ∨ maxSegments ≤ 0 then .error .inval
  else if hs : maxSegmentSize = 0 then .error .inval
  else
    let alignment := if alignment = 0 then 1 else alignment
    if h : powerOfTwo alignment.toNat = true ∧ (boundary = 0 ∨ powerOfTwo boundary.toNat = true) then
      let tag : Tag := ⟨alignment, boundary, maxAddr, maxSize, maxSegments.toNat, maxSegmentSize, h.1, h.2, hs⟩
      .ok (tag.within parent).clip
    else .error .inval

/-! ## Segments -/

structure Segment where
  addr : Nat
  len : Nat
deriving DecidableEq

namespace Tag

variable (t : Tag)

/-- `window` of `add_segment` -/
def window : Nat := if t.boundary = 0 then 0 else not64 (t.boundary.toNat - 1)

/-- What is left of the window, of `len` bytes. -/
def chunk (addr len : Nat) : Nat :=
  if t.boundary = 0 then len
  else
    let limit := ((addr &&& t.window) + t.boundary.toNat) % 2 ^ 64
    min len ((limit + 2 ^ 64 - addr) % 2 ^ 64)

/-- The last segment goes on. -/
def extend : List Segment → Nat → Nat → Option (List Segment)
  | [], _, _ => none
  | last :: segs, addr, chunk =>
    if (last.addr + last.len) % 2 ^ 64 = addr ∧ (last.len + chunk) % 2 ^ 64 ≤ t.maxSegmentSize.toNat ∧
        last.addr &&& t.window = addr &&& t.window then
      some ({ last with len := (last.len + chunk) % 2 ^ 64 } :: segs)
    else none

/-- One turn of `add_segment`: the bytes it takes, and the segments then. -/
def turn (segs : List Segment) (addr len : Nat) : Except DmaErr (Nat × List Segment) :=
  let chunk := t.chunk addr len
  match t.extend segs addr chunk with
  | some segs => .ok (chunk, segs)
  | none =>
    let chunk := min chunk t.maxSegmentSize.toNat
    if segs.length = t.maxSegments then .error .tooBig else .ok (chunk, ⟨addr, chunk⟩ :: segs)

/-- `add_segment`. A turn takes a byte at least, so that `len` turns are enough. -/
def addSegment : Nat → List Segment → Nat → Nat → Except DmaErr (List Segment)
  | 0, segs, _, _ => .ok segs
  | n + 1, segs, addr, len =>
    if len = 0 then .ok segs
    else
      match t.turn segs addr len with
      | .error e => .error e
      | .ok (chunk, segs) => addSegment n segs ((addr + chunk) % 2 ^ 64) (len - chunk)

end Tag

/-! ## Buffers -/

/-- The page tables: the root, and the entry of a table at an index. -/
structure Mmu where
  cr3 : UInt64
  entry : Nat → Nat → UInt64

/-- `PTE_FRAME` -/
def pteFrame (e : UInt64) : Nat := (e &&& 0x000FFFFFFFFFF000).toNat

/-- The walk of `translate`, down the levels that are left. The masks of a large page are divisions here. -/
def Mmu.walk (m : Mmu) (vaddr : Nat) : List Nat → Nat → Option Nat
  | [], _ => none
  | shift :: shifts, table =>
    let e := m.entry table (vaddr / 2 ^ shift % 512)
    if e &&& 0x001 = 0 then none
    else if shift = 12 ∨ shift ≠ 39 ∧ e &&& 0x080 ≠ 0 then
      some (pteFrame e / 2 ^ shift * 2 ^ shift + vaddr % 2 ^ shift)
    else m.walk vaddr shifts (pteFrame e)

/-- `translate` -/
def Mmu.translate (m : Mmu) (vaddr : Nat) : Option Nat := m.walk vaddr [39, 30, 21, 12] (pteFrame m.cr3)

/-- `load_buffer`: whether to bounce, and the segments. -/
def loadBuffer (m : Mmu) (t : Tag) : Nat → List Segment → Nat → Nat → Except DmaErr (Bool × List Segment)
  | 0, segs, _, _ => .ok (false, segs)
  | n + 1, segs, vaddr, len =>
    if len = 0 then .ok (false, segs)
    else
      match m.translate vaddr with
      | none => .error .fault
      | some phys =>
        let chunk := min len (4096 - vaddr % 4096)
        if t.maxAddr.toNat < phys + chunk - 1 ∨ segs.length = 0 ∧ phys &&& (t.alignment.toNat - 1) ≠ 0 then
          .ok (true, [])
        else
          match t.addSegment chunk segs phys chunk with
          | .error e => .error e
          | .ok segs => loadBuffer m t n segs ((vaddr + chunk) % 2 ^ 64) (len - chunk)

/-! ## Maps -/

/-- `alloc_physical_pages`: pages of physical memory, which has 52-bit addresses. -/
structure Frames where
  alloc : Nat → Option Nat
  inside : ∀ {n raw}, alloc n = some raw → raw % 4096 = 0 ∧ raw + n * 4096 ≤ 2 ^ 52

/-- `page_count` -/
def pageCount (len : Nat) : Nat := (len + 4095) % 2 ^ 64 / 4096

/-- `alloc_pages` -/
def allocPages (f : Frames) (count alignment maxAddr : Nat) : Option Nat :=
  let alignment := if alignment < 4096 then 4096 else alignment
  match f.alloc (count + alignment / 4096 - 1) with
  | none => none
  | some raw =>
    let base := (raw + alignment - 1) &&& not64 (alignment - 1)
    if maxAddr < (base + count * 4096 + 2 ^ 64 - 1) % 2 ^ 64 then none else some base

/-- What the map has bounced through: pages below the limit, where there are any. -/
structure Bounce (t : Tag) where
  phys : Nat
  len : Nat
  inside : phys + len ≤ 2 ^ 52
  limit : 0 < len → phys + len - 1 ≤ t.maxAddr.toNat

lemma isPowerOfTwo_of {x : Nat} (h : powerOfTwo x = true) : ∃ k, x = 2 ^ k := by
  simp only [powerOfTwo, Bool.and_eq_true, bne_iff_ne, beq_iff_eq] at h
  exact Nat.ne_zero_and_sub_one_eq_zero_iff_isPowerOfTwo.1 h

/-- What a mask leaves of an address. -/
lemma and_not64 {a b : Nat} (ha : a < 2 ^ 64) (hb : b < 2 ^ 64) (hp : powerOfTwo b = true) :
    a &&& not64 (b - 1) = a / b * b := by
  obtain ⟨k, rfl⟩ := isPowerOfTwo_of hp
  have hk : k < 64 := (Nat.pow_lt_pow_iff_right (by decide)).1 hb
  refine Nat.eq_of_testBit_eq fun i => ?_
  rw [Nat.testBit_and, not64, Nat.sub_sub, add_comm, Nat.testBit_two_pow_sub_succ (by omega),
    Nat.testBit_mul_two_pow, Nat.testBit_div_two_pow]
  by_cases hi : i < 64
  · by_cases hik : k ≤ i
    · simp [hi, hik]
    · simp [hik, Nat.lt_of_not_le hik]
  have : a.testBit i = false :=
    Nat.testBit_lt_two_pow (Nat.lt_of_lt_of_le ha (Nat.pow_le_pow_right (by decide) (Nat.le_of_not_lt hi)))
  rw [Nat.sub_add_cancel (by omega), this]
  simp

lemma allocPages_spec {f : Frames} {t : Tag} {count base : Nat}
    (h : allocPages f count t.alignment.toNat t.maxAddr.toNat = some base) :
    base + count * 4096 ≤ 2 ^ 52 ∧ (0 < count → base + count * 4096 - 1 ≤ t.maxAddr.toNat) := by
  have halign := t.alignment.toNat_lt
  set al := if t.alignment.toNat < 4096 then 4096 else t.alignment.toNat with hal
  have hpow : powerOfTwo al = true ∧ 4096 ∣ al := by
    rw [hal]
    split
    · exact ⟨by decide, by decide⟩
    obtain ⟨k, hk⟩ := isPowerOfTwo_of t.pow_alignment
    refine ⟨t.pow_alignment, hk ▸ pow_dvd_pow (m := 12) 2 ?_⟩
    exact (Nat.pow_le_pow_iff_right (a := 2) (by decide)).1 (by omega)
  have hge : 4096 ≤ al ∧ al < 2 ^ 64 := by
    rw [hal]
    split <;> omega
  unfold allocPages at h
  dsimp only at h
  rw [← hal] at h
  rcases hraw : f.alloc (count + al / 4096 - 1) with - | raw
  · rw [hraw] at h
    cases h
  obtain ⟨hpage, hin⟩ := f.inside hraw
  rw [hraw] at h
  dsimp only at h
  split at h
  · cases h
  rename_i hlim
  have hwide : raw + al - 1 < 2 ^ 64 := by omega
  rw [and_not64 hwide hge.2 hpow.1] at h hlim
  obtain rfl := some_inj.1 h
  have hle := Nat.div_mul_le_self (raw + al - 1) al
  have hdvd : 4096 ∣ (raw + al - 1) / al * al := Nat.dvd_mul_left_of_dvd hpow.2 _
  omega

/-- `bounce_reserve`: the error, and what the map has then. -/
def bounceReserve (f : Frames) {t : Tag} (bounce : Option (Bounce t)) (len : Nat) : Option DmaErr × Option (Bounce t) :=
  match bounce.filter fun b => len ≤ b.len with
  | some b => (none, some b)
  | none =>
    match h : allocPages f (pageCount len) t.alignment.toNat t.maxAddr.toNat with
    | none => (some .noMem, none)
    | some base =>
      have hspec := allocPages_spec h
      (none, some ⟨base, pageCount len * 4096, hspec.1, fun hpos => hspec.2 (by omega)⟩)

/-- `struct dma_map`; the segments are the first `num_segments`. -/
structure DmaMap (t : Tag) where
  segments : List Segment
  buffer : Nat
  bufferLen : Nat
  bounce : Option (Bounce t)
  bounced : Bool
  loaded : Bool

/-- `dma_map_load` -/
def dmaMapLoad (f : Frames) (m : Mmu) {t : Tag} (map : DmaMap t) (buffer len : UInt64) : Option DmaErr × DmaMap t :=
  if buffer = 0 ∨ len = 0 ∨ t.maxSize < len then (some .inval, map)
  else if map.loaded then (some .busy, map)
  else
    match loadBuffer m t len.toNat [] buffer.toNat len.toNat with
    | .error e => (some e, map)
    | .ok (false, segs) =>
      (none, { map with segments := segs, buffer := buffer.toNat, bufferLen := len.toNat, bounced := false, loaded := true })
    | .ok (true, _) =>
      match bounceReserve f map.bounce len.toNat with
      | (some e, bounce) => (some e, { map with bounce := bounce })
      | (none, bounce) =>
        match t.addSegment len.toNat [] ((bounce.map Bounce.phys).getD 0) len.toNat with
        | .error e => (some e, { map with bounce := bounce })
        | .ok segs =>
          (none, { map with
            segments := segs, buffer := buffer.toNat, bufferLen := len.toNat, bounce := bounce, bounced := true, loaded := true })

abbrev Bytes := Nat → UInt8

/-- `memcpy` -/
def memcpy (dst src n : Nat) (mem : Bytes) : Bytes := fun a =>
  let i := (a + 2 ^ 64 - dst) % 2 ^ 64
  if i < n then mem ((src + i) % 2 ^ 64) else mem a

/-- `dma_map_sync`, the bounce pages being seen at `phys_to_virt` -/
def DmaMap.sync {t : Tag} (map : DmaMap t) (physToVirt : Nat → UInt64) (preWrite postRead : Bool) (mem : Bytes) : Bytes :=
  match map.loaded && map.bounced, map.bounce with
  | true, some b =>
    let mem := if preWrite then memcpy (physToVirt b.phys).toNat map.buffer map.bufferLen mem else mem
    if postRead then memcpy map.buffer (physToVirt b.phys).toNat map.bufferLen mem else mem
  | _, _ => mem

/-! ## What a segment list covers -/

/-- The addresses of the segments, in order. -/
def bytes : List Segment → List Nat
  | [] => []
  | s :: segs => bytes segs ++ List.range' s.addr s.len

/-- A segment that the device takes. -/
structure Segment.Ok (t : Tag) (s : Segment) : Prop where
  pos : 0 < s.len
  size : s.len ≤ t.maxSegmentSize.toNat
  window : t.boundary ≠ 0 → (s.addr + s.len - 1) / t.boundary.toNat = s.addr / t.boundary.toNat
  limit : s.addr + s.len - 1 ≤ t.maxAddr.toNat
  inside : s.addr + s.len ≤ 2 ^ 52

structure Fits (t : Tag) (segs : List Segment) : Prop where
  ok : ∀ s ∈ segs, s.Ok t
  count : segs.length ≤ t.maxSegments

namespace Tag

variable {t : Tag} {segs segs' : List Segment} {addr len n : Nat}

lemma boundary_pos (h : t.boundary ≠ 0) : 0 < t.boundary.toNat := pos_of_ne_zero fun h0 => h (UInt64.toNat_inj.1 h0)

lemma and_window (h : t.boundary ≠ 0) (ha : addr < 2 ^ 52) :
    addr &&& t.window = addr / t.boundary.toNat * t.boundary.toNat := by
  rw [window, if_neg h]
  exact and_not64 (by omega) t.boundary.toNat_lt (t.pow_boundary.resolve_left h)

/-- A chunk stays in the window of its first byte. -/
lemma chunk_spec (hlen : 0 < len) (ha : addr + len ≤ 2 ^ 52) : 0 < t.chunk addr len ∧ t.chunk addr len ≤ len ∧
    (t.boundary ≠ 0 → ∀ k, addr ≤ k → k < addr + t.chunk addr len →
      k / t.boundary.toNat = addr / t.boundary.toNat) := by
  unfold chunk
  split <;> rename_i h0
  · exact ⟨hlen, le_rfl, fun h => absurd h0 h⟩
  have hb := boundary_pos h0
  have hlt := t.boundary.toNat_lt
  have hdiv := Nat.div_add_mod' addr t.boundary.toNat
  have hmod := Nat.mod_lt addr hb
  rw [and_window h0 (by omega)]
  dsimp only
  generalize hq : addr / t.boundary.toNat * t.boundary.toNat = q at hdiv
  refine ⟨by omega, by omega, fun _ k hk1 hk2 => ?_⟩
  refine Nat.div_eq_of_lt_le (by omega) ?_
  rw [add_mul]
  omega

/-- One turn appends its bytes. -/
lemma turn_spec (hf : Fits t segs) (hlen : 0 < len) (ha : addr + len ≤ 2 ^ 52)
    (hl : addr + len - 1 ≤ t.maxAddr.toNat) {r : Nat × List Segment} (h : t.turn segs addr len = .ok r) :
    0 < r.1 ∧ r.1 ≤ len ∧ bytes r.2 = bytes segs ++ List.range' addr r.1 ∧ Fits t r.2 := by
  obtain ⟨hpos, hle, hwin⟩ := @chunk_spec t addr len hlen ha
  unfold turn at h
  dsimp only at h
  split at h
  · rename_i hext
    cases h
    refine ⟨hpos, hle, ?_⟩
    cases segs with
    | nil => cases hext
    | cons last segs =>
      rw [extend] at hext
      split at hext
      swap
      · cases hext
      rename_i hc
      obtain rfl := some_inj.1 hext
      obtain ⟨hadj, hsize, hsame⟩ := hc
      have hlast := hf.ok last mem_cons_self
      have hin := hlast.inside
      rw [Nat.mod_eq_of_lt (by omega)] at hadj hsize ⊢
      subst hadj
      refine ⟨?_, fun s hs => ?_, hf.count⟩
      · simp only [bytes, append_assoc, List.range'_append_1]
      rcases mem_cons.1 hs with rfl | hs
      · refine ⟨?_, hsize, fun h0 => ?_, ?_, ?_⟩ <;> dsimp only
        · omega
        · -- the last segment and the chunk begin in the same window
          rw [and_window h0 (by omega), and_window h0 (by omega)] at hsame
          rw [Nat.eq_of_mul_eq_mul_right (boundary_pos h0) hsame]
          exact hwin h0 _ (by omega) (by omega)
        · omega
        · omega
      · exact hf.ok s (mem_cons_of_mem last hs)
  · split at h
    · cases h
    rename_i hcount
    cases h
    have hmax : 0 < t.maxSegmentSize.toNat := pos_of_ne_zero fun h0 => t.size_ne (UInt64.toNat_inj.1 h0)
    have hcnt := hf.count
    refine ⟨by omega, by omega, rfl, fun s hs => ?_, lt_of_le_of_ne hcnt hcount⟩
    rcases mem_cons.1 hs with rfl | hs
    · refine ⟨?_, min_le_right _ _, fun h0 => hwin h0 _ ?_ ?_, ?_, ?_⟩ <;> dsimp only <;> omega
    · exact hf.ok s hs

/-- `add_segment` appends all bytes. -/
lemma addSegment_spec (hf : Fits t segs) (hn : len ≤ n) (ha : addr + len ≤ 2 ^ 52)
    (hl : addr + len - 1 ≤ t.maxAddr.toNat) (h : t.addSegment n segs addr len = .ok segs') :
    bytes segs' = bytes segs ++ List.range' addr len ∧ Fits t segs' := by
  induction n generalizing segs addr len with
  | zero =>
    cases h
    obtain rfl : len = 0 := by omega
    exact ⟨by simp, hf⟩
  | succ n ih =>
    rw [addSegment] at h
    split at h <;> rename_i h0
    · cases h
      exact ⟨by simp [h0], hf⟩
    split at h
    · cases h
    rename_i hturn
    obtain ⟨hpos, hle, hbytes, hf₁⟩ := turn_spec hf (pos_of_ne_zero h0) ha hl hturn
    rw [Nat.mod_eq_of_lt (by omega)] at h
    obtain ⟨hrest, hf'⟩ := ih hf₁ (by omega) (by omega) (by omega) h
    refine ⟨?_, hf'⟩
    rw [hrest, hbytes, append_assoc, List.range'_append_1, Nat.add_sub_cancel' hle]

end Tag

/-! ## Loading -/

section Load

variable {f : Frames} {m : Mmu} {t : Tag} {segs segs' : List Segment} {len n v : Nat}

/-- Physical addresses have 52 bits, and inside a page of 4096 bytes the walk goes the same way. -/
lemma walk_spec {shifts : List Nat} (hs : ∀ k ∈ shifts, k = 39 ∨ k = 30 ∨ k = 21 ∨ k = 12) {table p : Nat}
    (h : m.walk v shifts table = some p) :
    p < 2 ^ 52 ∧ ∀ i, v % 4096 + i < 4096 → m.walk (v + i) shifts table = some (p + i) := by
  induction shifts generalizing table with
  | nil => cases h
  | cons shift shifts ih =>
    obtain ⟨hshift, hs⟩ := forall_mem_cons.1 hs
    have hdiv : ∀ i, v % 4096 + i < 4096 →
        (v + i) / 2 ^ shift = v / 2 ^ shift ∧ (v + i) % 2 ^ shift = v % 2 ^ shift + i := by
      rcases hshift with rfl | rfl | rfl | rfl <;> omega
    rw [Mmu.walk] at h
    split at h
    · cases h
    rename_i hpresent
    split at h
    · rename_i hleaf
      obtain rfl := some_inj.1 h
      have hframe : pteFrame (m.entry table (v / 2 ^ shift % 512)) < 2 ^ 52 := by
        exact Nat.and_le_right.trans_lt (by decide)
      generalize hq : pteFrame (m.entry table (v / 2 ^ shift % 512)) = q at hframe
      refine ⟨?_, fun i hi => ?_⟩
      · rcases hshift with rfl | rfl | rfl | rfl <;> omega
      · rw [Mmu.walk, (hdiv i hi).1, (hdiv i hi).2, if_neg hpresent, if_pos hleaf, hq, add_assoc]
    · rename_i hnext
      refine (ih hs h).imp_right fun hi i hvi => ?_
      rw [Mmu.walk, (hdiv i hvi).1, if_neg hpresent, if_neg hnext]
      exact hi i hvi

lemma translate_spec {p : Nat} (h : m.translate v = some p) :
    p < 2 ^ 52 ∧ ∀ i, v % 4096 + i < 4096 → m.translate (v + i) = some (p + i) :=
  walk_spec (by simp) h

/-- The segments of a buffer are its physical bytes in order. -/
lemma loadBuffer_spec (hf : Fits t segs) (hn : len ≤ n) (hv : v < 2 ^ 64)
    (h : loadBuffer m t n segs v len = .ok (false, segs')) : Fits t segs' ∧ (bytes segs').map some =
      (bytes segs).map some ++ (List.range len).map fun i => m.translate ((v + i) % 2 ^ 64) := by
  induction n generalizing segs v len with
  | zero =>
    cases h
    obtain rfl : len = 0 := by omega
    exact ⟨hf, by simp⟩
  | succ n ih =>
    rw [loadBuffer] at h
    split at h
    · rename_i h0
      cases h
      exact ⟨hf, by simp [h0]⟩
    split at h
    · cases h
    rename_i phys hphys
    obtain ⟨hlt, hpage⟩ := translate_spec hphys
    generalize hchunk : min len (4096 - v % 4096) = chunk at h
    have hlast := (translate_spec (hpage (chunk - 1) (by omega))).1
    dsimp only at h
    split at h
    · cases h
    split at h
    · cases h
    rename_i hadd
    obtain ⟨hbytes, hf₁⟩ := Tag.addSegment_spec hf le_rfl (by omega) (by omega) hadd
    obtain ⟨hf', hrest⟩ := ih hf₁ (by omega) (Nat.mod_lt _ (by decide)) h
    refine ⟨hf', ?_⟩
    -- the bytes of this page, and those of the rest
    have hthis : (List.range' phys chunk).map some = (List.range chunk).map fun i => m.translate ((v + i) % 2 ^ 64) := by
      rw [List.range'_eq_map_range, List.map_map]
      refine map_congr_left fun i hi => ?_
      have hi := mem_range.1 hi
      rw [Nat.mod_eq_of_lt (by omega), hpage i (by omega)]
      rfl
    rw [hrest, hbytes, map_append, hthis, show len = chunk + (len - chunk) by omega, range_add]
    simp [add_assoc]

/-- There are pages for `len` bytes, where the number of pages does not wrap around. -/
lemma bounceReserve_spec {bounce bounce' : Option (Bounce t)} (hlen : len + 4095 < 2 ^ 64)
    (h : bounceReserve f bounce len = (none, bounce')) : ∃ b, bounce' = some b ∧ len ≤ b.len := by
  unfold bounceReserve at h
  split at h
  · rename_i b hb
    cases h
    exact ⟨b, rfl, by simpa using (filter_eq_some_iff.1 hb).2⟩
  split at h
  · cases h
  cases h
  refine ⟨_, rfl, ?_⟩
  show len ≤ pageCount len * 4096
  unfold pageCount
  omega

/-- `n` bytes are copied, and no other changes. -/
structure Copies (dst src n : Nat) (mem mem' : Bytes) : Prop where
  copied : ∀ i < n, mem' ((dst + i) % 2 ^ 64) = mem ((src + i) % 2 ^ 64)
  kept : ∀ a < 2 ^ 64, (∀ i < n, a ≠ (dst + i) % 2 ^ 64) → mem' a = mem a

lemma memcpy_copies {dst : Nat} (src : Nat) (mem : Bytes) (hd : dst < 2 ^ 64) (hn : n ≤ 2 ^ 64) :
    Copies dst src n mem (memcpy dst src n mem) := by
  constructor
  · intro i hi
    have hidx : ((dst + i) % 2 ^ 64 + 2 ^ 64 - dst) % 2 ^ 64 = i := by omega
    rw [memcpy, hidx, if_pos hi]
  intro a ha hout
  refine if_neg fun hlt => hout _ hlt ?_
  omega

end Load

/-- **The scatter list.** Without bouncing the segments are the physical bytes of the buffer in order; with bouncing they are
those of the bounce pages, which hold the buffer, and the sync operations copy it there and back, exactly where the number
of pages does not wrap around. Each segment is one that the tag allows, and there are no more of them than it allows. -/
theorem scatter_list (f : Frames) (m : Mmu) {t : Tag} {map map' : DmaMap t} {buffer len : UInt64}
    (h : dmaMapLoad f m map buffer len = (none, map')) :
    (map'.bounced = false → Fits t map'.segments ∧ (bytes map'.segments).map some =
      (List.range len.toNat).map fun i => m.translate ((buffer.toNat + i) % 2 ^ 64)) ∧
    (map'.bounced = true → (len.toNat + 4095 < 2 ^ 64 ↔ Fits t map'.segments ∧ ∃ b, map'.bounce = some b ∧
      len.toNat ≤ b.len ∧ bytes map'.segments = List.range' b.phys len.toNat ∧
      ∀ (physToVirt : Nat → UInt64) (mem : Bytes),
        Copies (physToVirt b.phys).toNat buffer.toNat len.toNat mem (map'.sync physToVirt true false mem) ∧
        Copies buffer.toNat (physToVirt b.phys).toNat len.toNat mem (map'.sync physToVirt false true mem))) := by
  have hnil : Fits t [] := ⟨nofun, Nat.zero_le _⟩
  have hlt := len.toNat_lt
  unfold dmaMapLoad at h
  split at h
  · cases h
  rename_i hargs
  split at h
  · cases h
  split at h
  · cases h
  · rename_i hload
    cases h
    refine ⟨fun _ => ?_, nofun⟩
    exact loadBuffer_spec hnil le_rfl buffer.toNat_lt hload
  split at h
  · cases h
  rename_i hreserve
  split at h
  · cases h
  rename_i segs hadd
  cases h
  refine ⟨nofun, fun _ => ⟨fun hlen => ?_, fun ⟨_, b, _, hb, _⟩ => ?_⟩⟩
  swap
  · -- a bounce buffer lies in physical memory, so that one for a wrapped number of pages is too short
    have := b.inside
    omega
  obtain ⟨b, rfl, hb⟩ := bounceReserve_spec hlen hreserve
  have hpos : 0 < len.toNat := pos_of_ne_zero fun h0 => hargs (.inr (.inl (UInt64.toNat_inj.1 h0)))
  have hin := b.inside
  have hlim := b.limit (by omega)
  obtain ⟨hbytes, hf⟩ := @Tag.addSegment_spec t [] segs b.phys _ _ hnil le_rfl (by omega) (by omega) hadd
  exact ⟨hf, b, rfl, hb, hbytes, fun physToVirt mem =>
    ⟨memcpy_copies _ _ (physToVirt b.phys).toNat_lt (le_of_lt hlt), memcpy_copies _ _ buffer.toNat_lt (le_of_lt hlt)⟩⟩

/-- A gigabyte of the identity, in one entry of the second level. -/
def identity : Mmu := ⟨0, fun table _ => if table = 0 then 0x1001 else 0x81⟩

/-- The page at 16 MiB, or the run of pages from there. -/
def sixteenMiB : Frames where
  alloc n := if n ≤ 16 then some 0x1000000 else none
  inside := by
    intro n raw h
    split at h
    · cases h
      omega
    · cases h

def emptyMap (t : Tag) : DmaMap t := ⟨[], 0, 0, none, false, false⟩

/-- Two windows of 8 KiB. -/
def twoWindows : Tag := ⟨2, 0x2000, 0xFFFFFFFF, 0x10000, 4, 0x2000, by decide, by decide, by decide⟩

theorem scatter_list_twoWindows :
    let whole := (dmaMapLoad sixteenMiB identity (emptyMap twoWindows) 0x1800 0x1000).2
    let bounced := (dmaMapLoad sixteenMiB identity (emptyMap twoWindows) 0x1801 0x1000).2
    whole.segments = [⟨0x2000, 0x800⟩, ⟨0x1800, 0x800⟩] ∧ Fits twoWindows whole.segments ∧
      bounced.segments = [⟨0x1000000, 0x1000⟩] ∧ Fits twoWindows bounced.segments :=
  have hload : ∀ buffer, (dmaMapLoad sixteenMiB identity (emptyMap twoWindows) buffer 0x1000).1 = none →
      dmaMapLoad sixteenMiB identity (emptyMap twoWindows) buffer 0x1000 =
        (none, (dmaMapLoad sixteenMiB identity (emptyMap twoWindows) buffer 0x1000).2) := fun _ h => Prod.ext h rfl
  ⟨by decide +kernel, ((scatter_list sixteenMiB identity (hload 0x1800 (by decide +kernel))).1 (by decide +kernel)).1,
    by decide +kernel,
    (((scatter_list sixteenMiB identity (hload 0x1801 (by decide +kernel))).2 (by decide +kernel)).1 (by decide)).1⟩

/-- No limits on sizes, and an alignment of two pages. -/
def noLimits : Tag := ⟨0x2000, 0, 0xFFFFFFFF, 0xFFFFFFFFFFFFFFFF, 1, 0xFFFFFFFFFFFFFFFF, by decide, by decide, by decide⟩

/-- The number of pages for `2 ^ 64 - 1` bytes wraps around to 0: a segment of all these bytes, beyond the limit, is loaded
for a bounce buffer without a byte. -/
theorem bounce_without_pages :
    dmaTagCreate none 0x2000 0 0xFFFFFFFF 0xFFFFFFFFFFFFFFFF 1 0xFFFFFFFFFFFFFFFF = .ok noLimits ∧
    let r := dmaMapLoad sixteenMiB identity (emptyMap noLimits) 0x1000 0xFFFFFFFFFFFFFFFF
    r.1 = none ∧ r.2.bounced = true ∧ r.2.bounce.map Bounce.len = some 0 ∧
      ∃ s ∈ r.2.segments, noLimits.maxAddr.toNat < s.addr + s.len - 1 :=
  ⟨rfl, by decide +kernel⟩

end Hermes.L2.Dma
