import Hermes.L4Fs.Fat.Volume

/-!
# The FAT behind its cache

`rawEntry` is the entry of a cluster as the driver sees it: in the cached block, or in the first FAT of the device.
Where blocks and copies fit (`Geometry.Fit`), reading, writing back and loading blocks keep all entries whatever the
device does (`Same`), and only `fat_set` changes one (`Wrote`).

* `fatFlush_post`, `fatLoad_post`, `fatGet_post`, `fatSet_post`: the cache, fat32.c:80-125. They fail only if the device
  does (`Vol.Fine`), and after a flush every copy has the entries of the block (`Copied`).
* `nextCluster_post`, fat32.c:127-133: the end of the chain stands for an error of the device.
* `allocCluster_post`, fat32.c:155-190: `Alloced`, or `AllocFailed` with a cluster that belongs to no chain.
-/
namespace Hermes.L4.Fat

open Prog Function

namespace Geometry

variable (g : Geometry)

/-- A block of the first FAT, written as far behind as another copy is, reaches no entry of a copy before that. -/
def Fit : Prop := g.copies = 1 ∨ 128 ∣ g.fatBegin

/-- The copies are whole blocks, as they are where a sector is one or more. -/
def Whole : Prop := 128 ∣ g.fatBegin ∧ 128 ∣ g.copySize

instance : Decidable g.Fit := inferInstanceAs (Decidable (_ ∨ _))

instance : Decidable g.Whole := inferInstanceAs (Decidable (_ ∧ _))

instance [h : Fact g.Whole] : Fact g.Fit := ⟨.inr h.out.1⟩

variable {g} {c : Nat}

lemma Valid.lt_copySize (h : g.Valid c) : c < g.copySize := h.2.trans_le g.entries

lemma block_slot : 128 * g.block c + g.slot c = g.fatBegin + c := Nat.div_add_mod _ _

lemma slot_lt : g.slot c < 128 := Nat.mod_lt _ (by decide)

lemma copySize_le : g.copySize ≤ g.copies * g.copySize := Nat.le_mul_of_pos_left _ g.copies_pos

lemma lt_dataBegin (h : c < g.copySize) : g.fatBegin + c < g.dataBegin := by
  have := g.copySize_le
  unfold dataBegin
  omega

end Geometry

variable {g : Geometry} {v v' w : Vol} {D : Prop} {c : Nat}

namespace Vol

def rawEntry (g : Geometry) (v : Vol) (c : Nat) : UInt32 :=
  if c < g.copySize then
    if v.cacheValid = true ∧ v.cacheSector = g.block c then v.cache (g.slot c) else v.front (g.fatBegin + c)
  else 0

/-- The value of an entry, as `fat_get` gives it. -/
def view (g : Geometry) (v : Vol) (c : Nat) : Nat := (v.rawEntry g c &&& entryMask).toNat

/-- A dirty cache is valid, a valid one has a block of the FAT, and one that is not dirty is as the device. -/
structure TabOk (g : Geometry) (v : Vol) : Prop where
  valid : v.cacheDirty = true → v.cacheValid = true
  inFat : v.cacheValid = true → ∃ c < g.copySize, v.cacheSector = g.block c
  clean : v.cacheDirty = false → v.cacheValid = true → ∀ c < g.copySize, v.cacheSector = g.block c →
    v.cache (g.slot c) = v.front (g.fatBegin + c)

end Vol

/-- The accesses that are made for `fat32_next_cluster` succeed. -/
def Env.Chains (e : Env) : Prop := (∀ n, e.read true n = true) ∧ ∀ n, e.write true n = none

/-- The next accesses succeed. -/
def Vol.Fine (g : Geometry) (v : Vol) : Prop := g.writable = true ∧ v.chain = true ∧ v.env.Chains

/-- The entries and all that is not of the FAT are as before. -/
structure Same (g : Geometry) (v v' : Vol) : Prop where
  whole : g.Whole → v'.toBody = v.toBody
  raw : v'.rawEntry g = v.rawEntry g
  log : v'.log = v.log
  env : v'.env = v.env
  chain : v'.chain = v.chain
  tab : v'.TabOk g

namespace Same

lemma refl (ht : v.TabOk g) : Same g v v := ⟨fun _ => rfl, rfl, rfl, rfl, rfl, ht⟩

lemma trans (h : Same g v v') (h' : Same g v' w) : Same g v w :=
  ⟨fun hg => (h'.whole hg).trans (h.whole hg), h'.raw.trans h.raw, h'.log.trans h.log, h'.env.trans h.env,
    h'.chain.trans h.chain, h'.tab⟩

lemma view (h : Same g v v') : v'.view g = v.view g := by
  unfold Vol.view
  rw [h.raw]

lemma fine (h : Same g v v') (hf : v.Fine g) : v'.Fine g := by
  unfold Vol.Fine
  rw [h.env, h.chain]
  exact hf

lemma body [hg : Fact g.Whole] (h : Same g v v') : v'.toBody = v.toBody := h.whole hg.out

lemma info [Fact g.Whole] (h : Same g v v') : v'.info = v.info := congrArg Body.info h.body

end Same

/-! ## The device -/

lemma bdevRead_post {α : Type} {f : Vol → α} {Q : Except Errno α → Vol → Prop}
    (hok : Q (.ok (f v)) { v with reads := v.reads + 1 })
    (herr : ¬ v.Fine g → Q (.error .io) { v with reads := v.reads + 1 }) : Post D (bdevRead f) Q v := by
  unfold bdevRead
  simp only [post_bind, post_ite]
  exact ⟨fun _ => hok, fun hr => herr fun hf => hr (hf.2.1 ▸ hf.2.2.1 _)⟩

variable {Q : Except Errno Unit → Vol → Prop} {prev : Nat} {zeroFill : Bool}

lemma bdevWrite_post {n : Nat} {f : Nat → Vol → Vol} (hok : Q (.ok ()) (f n { v with writes := v.writes + 1 }))
    (herr : ∀ k, k < n ∨ k = 0 → ¬ v.Fine g → Q (.error .io) (f k { v with writes := v.writes + 1 }))
    (hro : ¬ v.Fine g → Q (.error .rofs) v) : Post D (bdevWrite g n f) Q v := by
  unfold bdevWrite
  simp only [post_bind, post_read, post_ite]
  refine ⟨fun hw => hro fun hf => absurd (hf.1.symm.trans hw) Bool.false_ne_true.symm, fun _ => ?_⟩
  simp only [post_modify]
  split
  · exact hok
  rename_i hk
  simp only [post_bind, post_modify]
  refine herr _ ?_ fun hf => ?_
  · split
    · exact .inl ‹_›
    · exact .inr rfl
  · rw [hf.2.1, hf.2.2.2] at hk
    cases hk

lemma malloc_post (hok : Q (.ok ()) { v with mems := v.mems + 1 })
    (herr : Q (.error .nomem) { v with mems := v.mems + 1 }) : Post D malloc Q v := by
  unfold malloc
  simp only [post_bind, post_ite]
  exact ⟨fun _ => hok, fun _ => herr⟩

/-! ## The cached block -/

lemma Vol.TabOk.rawEntry_clean (ht : v.TabOk g) (hd : v.cacheDirty = false) (hc : c < g.copySize) :
    v.rawEntry g c = v.front (g.fatBegin + c) := by
  rw [rawEntry, if_pos hc]
  split
  · rename_i h
    exact ht.clean hd h.1 c hc h.2
  · rfl

/-- Where a copy is not the first, its block begins behind the copies before. -/
lemma Vol.TabOk.start_le [hg : Fact g.Fit] (ht : v.TabOk g) (hv : v.cacheValid = true) {copy : Nat} (h0 : 0 < copy)
    (hcopy : copy < g.copies) : g.fatBegin ≤ 128 * v.cacheSector := by
  obtain ⟨c, -, hs⟩ := ht.inFat hv
  obtain ⟨m, hm⟩ := hg.out.resolve_left (by omega)
  rw [hs, Geometry.block, hm]
  omega

variable {copy k : Nat}

/-- The copies of a block lie before the data region, where they are whole. -/
lemma putBlock_body (ht : v.TabOk g) (hv : v.cacheValid = true) (hcopy : copy < g.copies) (hk : k ≤ 512) (hg : g.Whole) :
    (putBlock g copy k v).toBody = v.toBody := by
  obtain ⟨c, hc, hs⟩ := ht.inFat hv
  obtain ⟨⟨m, hm⟩, n, hn⟩ := hg
  have hlast : 128 * v.cacheSector + 128 ≤ g.fatBegin + g.copySize := by
    have hb := g.block_slot (c := c)
    omega
  have hend : (copy + 1) * g.copySize ≤ g.copies * g.copySize := Nat.mul_le_mul_right _ hcopy
  have hdata : (putBlock g copy k v).data = v.data := by
    funext a
    refine if_neg fun ⟨_, h⟩ => ?_
    rw [Nat.succ_mul] at hend
    unfold Geometry.dataBegin at h
    omega
  exact congrArg (fun data => { v.toBody with data := data }) hdata

section Flush

variable [Fact g.Fit]

/-- Writing the cached block back changes no entry as the driver sees it. -/
lemma rawEntry_putBlock (ht : v.TabOk g) (hd : v.cacheDirty = true) (hcopy : copy < g.copies) (hk : k ≤ 512) :
    (putBlock g copy k v).rawEntry g = v.rawEntry g := by
  funext c
  have hv := ht.valid hd
  unfold Vol.rawEntry
  split
  swap
  · rfl
  rename_i hc
  by_cases hs : v.cacheSector = g.block c
  · exact (if_pos ⟨hv, hs⟩).trans (if_pos ⟨hv, hs⟩).symm
  refine ((if_neg fun h => hs h.2).trans (if_neg ?_)).trans (if_neg fun h => hs h.2).symm
  -- an entry of another block, which the first copy does not have, and which lies before every other copy
  rintro ⟨hle, hlt⟩
  have hb := g.block_slot (c := c)
  have hl := g.slot_lt (c := c)
  rcases Nat.eq_zero_or_pos copy with h0 | h0
  · subst h0
    simp only [Nat.zero_mul, Nat.add_zero] at hle hlt
    omega
  · have hstart := ht.start_le hv h0 hcopy
    have hsize : g.copySize ≤ copy * g.copySize := Nat.le_mul_of_pos_left _ h0
    omega

/-- The state in the middle of `fat_flush`: still dirty, and the copies before `copy` written. -/
structure Flushing (g : Geometry) (v v' : Vol) (copy : Nat) : Prop where
  same : Same g v v'
  dirty : v'.cacheDirty = true
  sector : v'.cacheSector = v.cacheSector
  written : ∀ f < copy, ∀ c < g.copySize, v.cacheSector = g.block c →
    v'.front (g.fatBegin + c + f * g.copySize) = v'.cache (g.slot c)

lemma Flushing.put_same (h : Flushing g v v' copy) (hcopy : copy < g.copies) (hk : k ≤ 512) :
    Same g v (putBlock g copy k { v' with writes := v'.writes + 1 }) := by
  have ht : ({ v' with writes := v'.writes + 1 } : Vol).TabOk g := ⟨h.same.tab.1, h.same.tab.2, h.same.tab.3⟩
  have hv := h.same.tab.valid h.dirty
  exact ⟨fun hg => (putBlock_body ht hv hcopy hk hg).trans (h.same.whole hg),
    (rawEntry_putBlock ht h.dirty hcopy hk).trans h.same.raw, h.same.log, h.same.env, h.same.chain,
    fun _ => hv, h.same.tab.inFat, fun hd => by cases h.dirty.symm.trans hd⟩

lemma Flushing.put (h : Flushing g v v' copy) (hcopy : copy < g.copies) :
    Flushing g v (putBlock g copy 512 { v' with writes := v'.writes + 1 }) (copy + 1) := by
  refine ⟨h.put_same hcopy le_rfl, h.dirty, h.sector, fun f hf c hc hs => ?_⟩
  have hb := g.block_slot (c := c)
  have hl := g.slot_lt (c := c)
  have hs' : v'.cacheSector = g.block c := h.sector.trans hs
  show (if 128 * v'.cacheSector + copy * g.copySize ≤ g.fatBegin + c + f * g.copySize ∧
      g.fatBegin + c + f * g.copySize < 128 * v'.cacheSector + copy * g.copySize + 128 then
        v'.cache (g.fatBegin + c + f * g.copySize - (128 * v'.cacheSector + copy * g.copySize))
      else v'.front (g.fatBegin + c + f * g.copySize)) = v'.cache (g.slot c)
  by_cases he : f = copy
  · subst he
    rw [if_pos (by constructor <;> omega)]
    congr 1
    omega
  · -- an earlier copy ends before this one begins
    have hstart := h.same.tab.start_le (h.same.tab.valid h.dirty) (by omega) hcopy
    have hsize : (f + 1) * g.copySize ≤ copy * g.copySize := Nat.mul_le_mul_right _ (by omega)
    rw [Nat.succ_mul] at hsize
    rw [if_neg (by omega)]
    exact h.written f (by omega) c hc hs

lemma flushCopies_post (n copy : Nat) (h : Flushing g v v' copy) (hn : copy + n ≤ g.copies)
    (hok : ∀ w, Flushing g v w (copy + n) → Q (.ok ()) w)
    (herr : ∀ e w, Same g v w → ¬ v.Fine g → Q (.error e) w) : Post D (flushCopies g n copy) Q v' := by
  induction n generalizing copy v' with
  | zero => exact hok v' h
  | succ n ih =>
    rw [flushCopies, post_bind]
    have hfine : ¬ v'.Fine g → ¬ v.Fine g := mt h.same.fine
    refine bdevWrite_post ?_ (fun k hk hf => ?_) fun hf => herr _ _ h.same (hfine hf)
    · refine ih (copy + 1) (h.put (by omega)) (by omega) fun w hw => hok w ?_
      rw [show copy + (n + 1) = copy + 1 + n by omega]
      exact hw
    -- a part of the block: the entries are still those of the cache
    · exact herr _ _ (h.put_same (by omega) (by omega)) (hfine hf)

/-- The entries of the block that was dirty are in every copy. -/
def Copied (g : Geometry) (v v' : Vol) : Prop :=
  v.cacheDirty = true → ∀ f < g.copies, ∀ c < g.copySize, v.cacheSector = g.block c →
    v'.front (g.fatBegin + c + f * g.copySize) = v'.front (g.fatBegin + c)

lemma fatFlush_post (ht : v.TabOk g)
    (hok : ∀ v', Same g v v' → v'.cacheDirty = false → Copied g v v' → Q (.ok ()) v')
    (herr : ∀ v', Same g v v' → ¬ v.Fine g → Q (.error .io) v') : Post D (fatFlush g) Q v := by
  unfold fatFlush
  simp only [post_bind, post_read, post_ite]
  constructor
  · intro hd
    exact hok v (Same.refl ht) hd fun h => absurd (h.symm.trans hd) Bool.false_ne_true.symm
  intro hd
  have hd : v.cacheDirty = true := by simpa using hd
  simp only [post_failWith, post_modify]
  refine flushCopies_post g.copies 0 ⟨Same.refl ht, hd, rfl, fun f h => absurd h f.not_lt_zero⟩ (by omega) ?_ fun _ => herr
  intro w hw
  rw [zero_add] at hw
  have hfirst : ∀ c < g.copySize, v.cacheSector = g.block c → w.front (g.fatBegin + c) = w.cache (g.slot c) := by
    intro c hc hs
    have := hw.written 0 g.copies_pos c hc hs
    rwa [Nat.zero_mul, Nat.add_zero] at this
  refine hok _ ⟨hw.same.whole, hw.same.raw, hw.same.log, hw.same.env, hw.same.chain, by simp, hw.same.tab.inFat,
    fun _ _ c hc hs => ?_⟩ rfl fun _ f hf c hc hs => (hw.written f hf c hc hs).trans (hfirst c hc hs).symm
  exact (hfirst c hc (hw.sector.symm.trans hs)).symm

lemma fatLoad_post (ht : v.TabOk g) (hc : c < g.copySize)
    (hok : ∀ v', Same g v v' → v'.cacheValid = true → v'.cacheSector = g.block c → Q (.ok ()) v')
    (herr : ∀ v', Same g v v' → ¬ v.Fine g → Q (.error .io) v') : Post D (fatLoad g c) Q v := by
  unfold fatLoad
  simp only [post_bind, post_ite]
  constructor
  · intro h
    exact hok v (Same.refl ht) h.1 h.2
  intro _
  refine fatFlush_post ht (fun w hw hd _ => ?_) herr
  simp only [post_attempt]
  have hraw : ∀ i < g.copySize, w.rawEntry g i = w.front (g.fatBegin + i) := fun _ => hw.tab.rawEntry_clean hd
  refine bdevRead_post (g := g) ?_ fun hf => ?_
  · -- the entries of the block are words before the data region
    have hcache : ∀ i < g.copySize, g.block c = g.block i →
        w.word g (128 * g.block c + g.slot i) = w.front (g.fatBegin + i) := by
      intro i hi hb
      rw [hb, g.block_slot]
      exact if_pos (g.lt_dataBegin hi)
    refine hok _ ⟨hw.whole, ?_, hw.log, hw.env, hw.chain, fun _ => rfl, fun _ => ⟨c, hc, rfl⟩, fun _ _ => hcache⟩ rfl rfl
    rw [← hw.raw]
    funext i
    by_cases hi : i < g.copySize
    · rw [hraw i hi, Vol.rawEntry, if_pos hi]
      split
      · rename_i h
        exact hcache i hi h.2
      · rfl
    · exact (if_neg hi).trans (if_neg hi).symm
  · refine herr _ ⟨hw.whole, ?_, hw.log, hw.env, hw.chain, fun h => (by cases hd.symm.trans h),
      fun h => (by cases h), fun _ h => (by cases h)⟩ (mt hw.fine hf)
    rw [← hw.raw]
    funext i
    by_cases hi : i < g.copySize
    · rw [hraw i hi, Vol.rawEntry, if_pos hi]
      exact if_neg (by simp)
    · exact (if_neg hi).trans (if_neg hi).symm

lemma fatGet_post {Q : Except Errno Nat → Vol → Prop} (ht : v.TabOk g) (hc : c < g.copySize)
    (hok : ∀ v', Same g v v' → v'.cacheValid = true → v'.cacheSector = g.block c → Q (.ok (v.view g c)) v')
    (herr : ∀ v', Same g v v' → ¬ v.Fine g → Q (.error .io) v') : Post D (fatGet g c) Q v := by
  unfold fatGet
  rw [post_bind]
  refine fatLoad_post ht hc (fun v' hs h1 h2 => ?_) herr
  have hget : (v'.cache (g.slot c) &&& entryMask).toNat = v.view g c := by
    rw [← hs.view, Vol.view, Vol.rawEntry, if_pos hc, if_pos ⟨h1, h2⟩]
  simp only [post_bind, post_read, post_pure, hget]
  exact hok v' hs h1 h2

end Flush

lemma masked_toNat (x : UInt32) : (x &&& entryMask).toNat = x.toNat % 2 ^ 28 := by
  exact Nat.and_two_pow_sub_one_eq_mod x.toNat 28

/-- An entry keeps its upper four bits. -/
lemma putEntry_toNat (raw : UInt32) (value : Nat) :
    (putEntry raw value).toNat = raw.toNat / 2 ^ 28 * 2 ^ 28 + value % 2 ^ 28 := by
  have hlow : (UInt32.ofNat value &&& entryMask).toNat = value % 2 ^ 28 := by
    rw [masked_toNat, UInt32.toNat_ofNat']
    omega
  have hhigh : raw.toNat &&& 15 <<< 28 = (raw.toNat >>> 28 &&& (2 ^ 4 - 1)) <<< 28 := by
    apply Nat.eq_of_testBit_eq
    intro i
    simp only [Nat.testBit_and, Nat.testBit_shiftLeft, Nat.testBit_shiftRight]
    grind
  have hraw := raw.toNat_lt
  rw [putEntry, UInt32.toNat_or, hlow]
  show raw.toNat &&& 15 <<< 28 ||| _ = _
  rw [hhigh, Nat.and_two_pow_sub_one_eq_mod, ← Nat.shiftLeft_add_eq_or_of_lt (by omega), Nat.shiftLeft_eq,
    Nat.shiftRight_eq_div_pow, Nat.mod_eq_of_lt (by omega)]

lemma putEntry_masked (raw : UInt32) (value : Nat) : (putEntry raw value &&& entryMask).toNat = value % 2 ^ 28 := by
  rw [masked_toNat, putEntry_toNat]
  omega

/-! ## Setting entries -/

/-- One entry has been set. -/
structure Wrote (g : Geometry) (v v' : Vol) (cause : Cause) (c value : Nat) : Prop where
  whole : g.Whole → v'.toBody = v.toBody
  env : v'.env = v.env
  chain : v'.chain = v.chain
  tab : v'.TabOk g
  raw : v'.rawEntry g = update (v.rawEntry g) c (putEntry (v.rawEntry g c) value)
  log : v'.log = ⟨cause, c, v.view g c, value⟩ :: v.log

variable {cause : Cause} {value : Nat}

lemma Wrote.body [hg : Fact g.Whole] (h : Wrote g v v' cause c value) : v'.toBody = v.toBody := h.whole hg.out

lemma Wrote.view (h : Wrote g v v' cause c value) : v'.view g = update (v.view g) c (value % 2 ^ 28) := by
  funext i
  unfold Vol.view
  rw [h.raw]
  by_cases hi : i = c
  · rw [hi, update_self, update_self, putEntry_masked]
  · rw [update_of_ne hi, update_of_ne hi]

lemma fatSet_post [Fact g.Fit] (ht : v.TabOk g) (hc : c < g.copySize)
    (hok : ∀ v', Wrote g v v' cause c value → Q (.ok ()) v') (herr : ∀ v', Same g v v' → Q (.error .io) v') :
    Post D (fatSet g cause c value) Q v := by
  unfold fatSet
  rw [post_bind]
  refine fatGet_post ht hc (fun w hw h1 h2 => ?_) fun w hw _ => herr w hw
  simp only [post_modify]
  refine hok _ ⟨hw.whole, hw.env, hw.chain, ⟨fun _ => h1, fun _ => ⟨c, hc, h2⟩, by simp⟩, ?_, ?_⟩
  swap
  · show _ :: w.log = _
    rw [hw.log]
  rw [← hw.raw]
  funext i
  unfold Vol.rawEntry
  by_cases hi : i = c
  · subst hi
    simp only [h1, h2, hc, and_self, if_true, update_self]
  rw [update_of_ne hi]
  simp only [h1, h2, true_and]
  by_cases hs : g.block c = g.block i
  · have hm : g.slot i ≠ g.slot c := by
      have h := g.block_slot (c := i)
      have h' := g.block_slot (c := c)
      omega
    simp only [if_pos hs, update_of_ne hm]
  · simp only [if_neg hs]

/-- What `fat32_next_cluster` should return. -/
def Vol.next (g : Geometry) (v : Vol) (c : Nat) : Nat := if g.Valid c then v.view g c else eoc

lemma Same.of_chain {b : Bool} (h : Same g { v with chain := true } v') (hb : v.chain = b) :
    Same g v { v' with chain := b } :=
  ⟨h.whole, h.raw, h.log, h.env, hb.symm, h.tab.1, h.tab.2, h.tab.3⟩

lemma nextCluster_post [Fact g.Fit] {Q : Except Errno Nat → Vol → Prop} (ht : v.TabOk g) (hch : v.chain = false)
    (hok : ∀ v', Same g v v' → Q (.ok (v.next g c)) v')
    (herr : ∀ v', Same g v v' → ¬ (g.writable = true ∧ v.env.Chains) → Q (.ok eoc) v') : Post D (nextCluster g c) Q v := by
  unfold nextCluster
  rw [post_ite]
  constructor
  · intro hc
    simp only [post_bind, post_attempt, post_modify]
    refine fatGet_post (v := { v with chain := true }) ⟨ht.1, ht.2, ht.3⟩ hc.lt_copySize (fun v' hs _ _ => ?_) fun v' hs hf => ?_
    · have := hok _ (hs.of_chain hch)
      rw [Vol.next, if_pos hc] at this
      exact this
    · exact herr _ (hs.of_chain hch) fun h => hf ⟨h.1, rfl, h.2⟩
  · intro hc
    have := hok v (Same.refl ht)
    rw [Vol.next, if_neg hc] at this
    exact this

lemma fsinfoSync_post [Fact g.Fit] (ht : v.TabOk g) (hok : ∀ v', Same g v v' → Q (.ok ()) v') : Post D (fsinfoSync g) Q v := by
  unfold fsinfoSync
  simp only [post_bind, post_attempt, post_read]
  -- whatever the two writes do, the entries stay
  have hrest : ∀ w, Same g v w → Post D (if w.fsinfoDirty = true ∧ g.fsinfo = true then do
      let _ ← attempt (bdevWrite g 512 fun _ v => v)
      modify fun v => { v with fsinfoDirty := false }
    else pure ()) Q w := by
    intro w hw
    rw [post_ite]
    refine ⟨fun _ => ?_, fun _ => hok w hw⟩
    have hput : ∀ n, Same g v { w with writes := n, fsinfoDirty := false } := fun n =>
      ⟨hw.whole, hw.raw, hw.log, hw.env, hw.chain, hw.tab.1, hw.tab.2, hw.tab.3⟩
    simp only [post_bind, post_attempt, post_modify]
    exact bdevWrite_post (hok _ (hput _)) (fun _ _ _ => hok _ (hput _)) fun _ => hok _ (hput _)
  exact fatFlush_post ht (fun w hw _ _ => hrest w hw) fun w hw _ => hrest w hw

/-! ## Allocation -/

/-- The bytes of cluster `c`. -/
def Geometry.Inside (g : Geometry) (c a : Nat) : Prop := g.clusterToByte c ≤ a ∧ a < g.clusterToByte c + g.clusterSize

instance (g : Geometry) (c a : Nat) : Decidable (g.Inside c a) := inferInstanceAs (Decidable (_ ∧ _))

/-- Cluster `c` zeroed. -/
def zeroed (g : Geometry) (c : Nat) (data : Nat → UInt8) : Nat → UInt8 := fun a => if g.Inside c a then 0 else data a

/-- The entries after cluster `c` has been put at the end of the chain that ends in `prev`. -/
def linked (view : Nat → Nat) (prev c : Nat) : Nat → Nat :=
  if prev = 0 then update view c eoc else update (update view c eoc) prev c

/-- A free cluster `c` has become the last one of its chain. -/
structure Alloced (g : Geometry) (v v' : Vol) (prev : Nat) (zeroFill : Bool) (c : Nat) : Prop where
  valid : g.Valid c
  free : v.view g c = 0
  view : v'.view g = linked (v.view g) prev c
  body : v'.toBody = { v.toBody with data := if zeroFill then zeroed g c v.data else v.data }
  env : v'.env = v.env
  chain : v'.chain = v.chain
  tab : v'.TabOk g
  log : v'.log = (if prev = 0 then [] else [⟨.link, prev, update (v.view g) c eoc prev, c⟩]) ++
    ⟨.take, c, 0, eoc⟩ :: v.log

/-- An allocation that a device error stopped: the free cluster `c` may have been written to and
marked, and belongs to no chain. -/
structure AllocFailed (g : Geometry) (v v' : Vol) (c : Nat) : Prop where
  valid : g.Valid c
  free : v.view g c = 0
  view : v'.view g = v.view g ∧ v'.log = v.log ∨
    v'.view g = update (v.view g) c eoc ∧ v'.log = ⟨.take, c, 0, eoc⟩ :: v.log
  body : ∃ data, v'.toBody = { v.toBody with data := data } ∧ ∀ a, ¬ g.Inside c a → data a = v.data a
  env : v'.env = v.env
  chain : v'.chain = v.chain
  tab : v'.TabOk g

lemma Alloced.info (h : Alloced g v v' prev zeroFill c) : v'.info = v.info := (congrArg Body.info h.body :)

lemma AllocFailed.info (h : AllocFailed g v v' c) : v'.info = v.info := by
  obtain ⟨_, hb, -⟩ := h.body
  exact (congrArg Body.info hb :)

lemma putData_zeroes (k : Nat) : putData (g.clusterToByte c) (fun _ => 0) k v =
    { v with data := (putData (g.clusterToByte c) (fun _ => 0) k v).data } := rfl

lemma putData_zeroed : (putData (g.clusterToByte c) (fun _ => 0) g.clusterSize v).data = zeroed g c v.data := by
  funext a
  by_cases h : g.Inside c a
  · exact (if_pos h).trans (if_pos h).symm
  · exact (if_neg h).trans (if_neg h).symm

lemma zeroCluster_post (ht : v.TabOk g)
    (hok : ∀ v', v'.toBody = { v.toBody with data := zeroed g c v.data } →
      Same g { v with data := zeroed g c v.data } v' → Q (.ok ()) v')
    (hmem : ∀ v', Same g v v' → Q (.error .nomem) v')
    (herr : ∀ e data v', (∀ a, ¬ g.Inside c a → data a = v.data a) → Same g { v with data := data } v' → Q (.error e) v')
    : Post D (zeroCluster g c) Q v := by
  unfold zeroCluster
  rw [post_bind]
  refine malloc_post ?_ ?_
  · refine bdevWrite_post ?_ (fun k hk _ => ?_) fun _ => ?_
    · rw [putData_zeroes, putData_zeroed]
      exact hok _ rfl ⟨fun _ => rfl, rfl, rfl, rfl, rfl, ht.1, ht.2, ht.3⟩
    · rw [putData_zeroes]
      refine herr _ (putData (g.clusterToByte c) (fun _ => 0) k v).data _ (fun a ha => ?_)
        ⟨fun _ => rfl, rfl, rfl, rfl, rfl, ht.1, ht.2, ht.3⟩
      refine if_neg fun h => ha ⟨h.1, ?_⟩
      have := g.clusterSize_pos
      omega
    · exact herr _ v.data _ (fun _ _ => rfl) ⟨fun _ => rfl, rfl, rfl, rfl, rfl, ht.1, ht.2, ht.3⟩
  · exact hmem _ ⟨fun _ => rfl, rfl, rfl, rfl, rfl, ht.1, ht.2, ht.3⟩

lemma Geometry.Valid.lt (h : g.Valid c) : c < 2 ^ 28 := by
  have := g.total_le
  have := h.2
  omega

lemma Wrote.of_lt (h : Wrote g v v' cause c value) (hv : value < 2 ^ 28) : v'.view g = update (v.view g) c value := by
  rw [h.view, Nat.mod_eq_of_lt hv]

variable [Fact g.Whole]

lemma allocAt_post (ht : v.TabOk g) (hc : g.Valid c) (hprev : prev = 0 ∨ g.Valid prev) (hfree : v.view g c = 0)
    (hok : ∀ v', Alloced g v v' prev zeroFill c → Q (.ok ()) v') (hmem : ∀ v', Same g v v' → Q (.error .nomem) v')
    (herr : ∀ e v', AllocFailed g v v' c → Q (.error e) v') : Post D (allocAt g prev zeroFill c) Q v := by
  -- after the zeroes have been written, or not
  have hmark : ∀ w data, (∀ a, ¬ g.Inside c a → data a = v.data a) → Same g { v with data := data } w →
      data = (if zeroFill then zeroed g c v.data else v.data) → Post D (do
        fatSet g .take c eoc
        when (prev ≠ 0) (fatSet g .link prev c)
        fsinfoAdjust (-1) (if g.Valid (c + 1) then c + 1 else 2)) Q w := by
    intro w data hdata hw hd
    have hview : w.view g = v.view g := hw.view
    rw [post_bind]
    refine fatSet_post hw.tab hc.lt_copySize (fun u hu => ?_) fun u hu => ?_
    swap
    · exact herr _ u ⟨hc, hfree, .inl ⟨hu.view.trans hview, hu.log.trans hw.log⟩,
        ⟨data, hu.body.trans hw.body, hdata⟩, hu.env.trans hw.env, hu.chain.trans hw.chain, hu.tab⟩
    have hu28 : u.view g = update (v.view g) c eoc := by rw [hu.of_lt (by decide), hview]
    have hulog : u.log = ⟨.take, c, 0, eoc⟩ :: v.log := by rw [hu.log, hview, hfree, hw.log]
    have henv : u.env = v.env := hu.env.trans hw.env
    have hchain : u.chain = v.chain := hu.chain.trans hw.chain
    rw [post_bind, post_when]
    constructor
    · intro hp
      have hp : prev ≠ 0 := by simpa using hp
      refine fatSet_post hu.tab (hprev.resolve_left hp).lt_copySize (fun x hx => ?_) fun x hx => ?_
      · refine hok _ ⟨hc, hfree, ?_, ?_, hx.env.trans henv, hx.chain.trans hchain, ⟨hx.tab.1, hx.tab.2, hx.tab.3⟩, ?_⟩
        · show x.view g = _
          rw [hx.of_lt hc.lt, hu28, linked, if_neg hp]
        · exact hx.body.trans (hu.body.trans (hw.body.trans (by rw [← hd])))
        · show x.log = _
          rw [hx.log, hu28, hulog, if_neg hp]
          rfl
      · exact herr _ x ⟨hc, hfree, .inr ⟨hx.view.trans hu28, hx.log.trans hulog⟩,
          ⟨data, hx.body.trans (hu.body.trans hw.body), hdata⟩, hx.env.trans henv, hx.chain.trans hchain, hx.tab⟩
    · intro hp
      have hp : prev = 0 := by simpa using hp
      refine hok _ ⟨hc, hfree, ?_, ?_, henv, hchain, ⟨hu.tab.1, hu.tab.2, hu.tab.3⟩, ?_⟩
      · show u.view g = _
        rw [hu28, linked, if_pos hp]
      · exact hu.body.trans (hw.body.trans (by rw [← hd]))
      show u.log = _
      rw [hulog, if_pos hp]
      rfl
  unfold allocAt
  rw [post_bind, post_when]
  constructor
  · intro hz
    refine zeroCluster_post ht (fun w _ hw => ?_) hmem fun e data w hdata hw => ?_
    · exact hmark w _ (fun a ha => if_neg ha) hw (by rw [if_pos hz]; rfl)
    · exact herr e w ⟨hc, hfree, .inl ⟨hw.view, hw.log⟩, ⟨data, hw.body, hdata⟩, hw.env, hw.chain, hw.tab⟩
  · intro hz
    exact hmark v v.data (fun _ _ => rfl) (Same.refl ht) (by rw [hz]; rfl)

lemma Alloced.of_same (hs : Same g v w) (h : Alloced g w v' prev zeroFill c) : Alloced g v v' prev zeroFill c := by
  obtain ⟨h1, h2, h3, h4, h5, h6, h7, h8⟩ := h
  rw [hs.view] at h2 h3 h8
  rw [hs.body] at h4
  rw [hs.log] at h8
  exact ⟨h1, h2, h3, h4, h5.trans hs.env, h6.trans hs.chain, h7, h8⟩

lemma AllocFailed.of_same (hs : Same g v w) (h : AllocFailed g w v' c) : AllocFailed g v v' c := by
  obtain ⟨h1, h2, h3, h4, h5, h6, h7⟩ := h
  rw [hs.view] at h2 h3
  rw [hs.log] at h3
  rw [hs.body] at h4
  exact ⟨h1, h2, h3, h4, h5.trans hs.env, h6.trans hs.chain, h7⟩

/-- `alloc_cluster`: it gives a cluster, or none and nothing has changed, or a device error stopped it. -/
lemma allocCluster_post {Q : Except Errno Nat → Vol → Prop} (ht : v.TabOk g) (hprev : prev = 0 ∨ g.Valid prev)
    (hgot : ∀ c v', Alloced g v v' prev zeroFill c → Q (.ok c) v') (hnone : ∀ v', Same g v v' → Q (.ok 0) v')
    (hfail : ∀ c v', AllocFailed g v v' c → Q (.ok 0) v') : Post D (allocCluster g prev zeroFill) Q v := by
  -- the search changes nothing until it finds a free cluster
  have hloop : ∀ start k n w, Same g v w → k ≤ g.total → Post D (allocLoop g prev zeroFill start k n) Q w := by
    intro start k
    induction k with
    | zero => exact fun n w hw _ => hnone w hw
    | succ k ih =>
      intro n w hw hk
      rw [allocLoop]
      have hc : g.Valid (2 + (start - 2 + n) % g.total) := by
        have := Nat.mod_lt (start - 2 + n) (show 0 < g.total by omega)
        constructor <;> omega
      simp only [post_bind, post_attempt]
      refine fatGet_post hw.tab hc.lt_copySize (fun u hu _ _ => ?_) fun u hu _ => hnone u (hw.trans hu)
      have hwu := hw.trans hu
      rw [post_ite]
      refine ⟨fun _ => ih (n + 1) u hwu (by omega), fun hv => ?_⟩
      have hfree : u.view g (2 + (start - 2 + n) % g.total) = 0 := by
        rw [hu.view]
        exact not_not.1 hv
      simp only [post_bind, post_attempt]
      refine allocAt_post hu.tab hc hprev hfree (fun x hx => ?_) (fun x hx => hnone x (hwu.trans hx)) fun _ x hx => ?_
      · exact hgot _ x (hx.of_same hwu)
      · exact hfail _ x (hx.of_same hwu)
  unfold allocCluster
  simp only [post_bind, post_read]
  exact hloop _ g.total 0 v (Same.refl ht) le_rfl

end Hermes.L4.Fat
