import Hermes.L4Fs.Bcache

/-!
# The structure of the buffer cache

The hash table, the list of idle buffers and the count of dirty ones, and what
each operation of the cache does to them. An operation is described by what it
leaves alone: claims and releases change who may use a buffer and nothing else
(`SameData`), a buffer that is taken for a block is idle, clean and not yet valid
(`Takes`).
-/
namespace Hermes.L4.Bcache

open Function List

namespace Cache

/-- The key of a buffer. -/
def Holds (c : Cache) (b d k : Nat) : Prop := b < c.nbufs ∧ (c.bufs b).dev = d ∧ (c.bufs b).blkno = k

structure Wf (c : Cache) : Prop where
  hashIff : ∀ h b, b ∈ c.hash h ↔ b < c.nbufs ∧ hashOf (c.bufs b).dev (c.bufs b).blkno = h
  hashNodup : ∀ h, (c.hash h).Nodup
  unique : ∀ b b' d k, c.Holds b d k → c.Holds b' d k → b = b'
  lruNodup : c.lru.Nodup
  lruIff : ∀ b, b ∈ c.lru ↔ b < c.nbufs ∧ (c.bufs b).busy = false
  ndirty : c.ndirty = ((List.range c.nbufs).countP fun b => (c.bufs b).dirty : Nat)

variable {c c' c'' : Cache} {b d k x : Nat} {xs ys : List Nat}

lemma Wf.lookup_eq_some (h : Wf c) : c.lookup d k = some b ↔ c.Holds b d k := by
  unfold lookup
  constructor
  · intro hf
    have hm := mem_of_find?_eq_some hf
    have hk := List.find?_some hf
    simp only [decide_eq_true_eq] at hk
    exact ⟨((h.hashIff _ _).1 hm).1, hk⟩
  rintro ⟨hb, hd, hk⟩
  have hm : b ∈ c.hash (hashOf d k) := (h.hashIff _ _).2 ⟨hb, by rw [hd, hk]⟩
  cases hf : (c.hash (hashOf d k)).find? fun b => (c.bufs b).dev = d ∧ (c.bufs b).blkno = k with
  | none =>
    have := List.find?_eq_none.1 hf b hm
    simp [hd, hk] at this
  | some b' =>
    have hm' := mem_of_find?_eq_some hf
    have hk' := List.find?_some hf
    simp only [decide_eq_true_eq] at hk'
    rw [h.unique b' b d k ⟨((h.hashIff _ _).1 hm').1, hk'⟩ ⟨hb, hd, hk⟩]

lemma Wf.lookup_eq_none (h : Wf c) : c.lookup d k = none ↔ ∀ b, ¬ c.Holds b d k := by
  constructor
  · intro hn b hb
    rw [h.lookup_eq_some.2 hb] at hn
    cases hn
  intro hn
  cases hl : c.lookup d k with
  | none => rfl
  | some b => exact absurd (h.lookup_eq_some.1 hl) (hn b)

@[simp] lemma setBuf_same (x : Buf) : (c.setBuf b x).bufs b = x := update_self ..

lemma setBuf_ne (y : Buf) (h : x ≠ b) : (c.setBuf b y).bufs x = c.bufs x := update_of_ne h ..

/-- Only `busy` changes. -/
structure SameData (c c' : Cache) : Prop where
  nbufs : c'.nbufs = c.nbufs
  hash : c'.hash = c.hash
  ndirty : c'.ndirty = c.ndirty
  bufs : ∀ x, ∃ v, c'.bufs x = { c.bufs x with busy := v }

lemma SameData.refl (c : Cache) : SameData c c := ⟨rfl, rfl, rfl, fun x => ⟨(c.bufs x).busy, rfl⟩⟩

lemma SameData.trans (h : SameData c c') (h' : SameData c' c'') : SameData c c'' where
  nbufs := h'.nbufs.trans h.nbufs
  hash := h'.hash.trans h.hash
  ndirty := h'.ndirty.trans h.ndirty
  bufs x := by
    obtain ⟨v, hv⟩ := h.bufs x
    obtain ⟨v', hv'⟩ := h'.bufs x
    exact ⟨v', by rw [hv', hv]⟩

section SameData

variable (h : SameData c c')

include h

lemma SameData.dev (x : Nat) : (c'.bufs x).dev = (c.bufs x).dev := by
  obtain ⟨v, hv⟩ := h.bufs x
  rw [hv]

lemma SameData.blkno (x : Nat) : (c'.bufs x).blkno = (c.bufs x).blkno := by
  obtain ⟨v, hv⟩ := h.bufs x
  rw [hv]

lemma SameData.dirty (x : Nat) : (c'.bufs x).dirty = (c.bufs x).dirty := by
  obtain ⟨v, hv⟩ := h.bufs x
  rw [hv]

lemma SameData.holds : c'.Holds b d k ↔ c.Holds b d k := by
  unfold Holds
  rw [h.nbufs, h.dev, h.blkno]

lemma SameData.lookup : c'.lookup d k = c.lookup d k := by
  unfold Cache.lookup
  rw [h.hash]
  congr 1
  funext x
  rw [h.dev, h.blkno]

/-- The structure is kept if the list of idle buffers follows. -/
lemma SameData.wf (hw : Wf c) (hn : c'.lru.Nodup)
    (hl : ∀ b, b ∈ c'.lru ↔ b < c'.nbufs ∧ (c'.bufs b).busy = false) : Wf c' where
  hashIff k b := by
    rw [h.hash, h.nbufs, h.dev, h.blkno]
    exact hw.hashIff k b
  hashNodup k := by
    rw [h.hash]
    exact hw.hashNodup k
  unique b b' d k hb hb' := hw.unique b b' d k (h.holds.1 hb) (h.holds.1 hb')
  lruNodup := hn
  lruIff := hl
  ndirty := by
    rw [h.ndirty, h.nbufs, hw.ndirty]
    congr 2
    funext x
    rw [h.dirty]

end SameData

/-! ## Claims and releases -/

lemma bufClaim_sameData (c : Cache) (b : Nat) : SameData c (c.bufClaim b) where
  nbufs := rfl
  hash := rfl
  ndirty := rfl
  bufs x := by
    by_cases hx : x = b
    · exact ⟨true, by rw [hx]; exact setBuf_same _⟩
    · exact ⟨(c.bufs x).busy, setBuf_ne _ hx⟩

lemma bufRelease_sameData (c : Cache) (b : Nat) : SameData c (c.bufRelease b) where
  nbufs := rfl
  hash := rfl
  ndirty := rfl
  bufs x := by
    by_cases hx : x = b
    · exact ⟨false, by rw [hx]; exact setBuf_same _⟩
    · exact ⟨(c.bufs x).busy, setBuf_ne _ hx⟩

lemma bufClaim_busy (c : Cache) (b x : Nat) :
    ((c.bufClaim b).bufs x).busy = if x = b then true else (c.bufs x).busy := by
  split <;> rename_i hx
  · rw [hx]
    exact congrArg Buf.busy (setBuf_same _)
  · exact congrArg Buf.busy (setBuf_ne _ hx)

lemma bufRelease_busy (c : Cache) (b x : Nat) :
    ((c.bufRelease b).bufs x).busy = if x = b then false else (c.bufs x).busy := by
  split <;> rename_i hx
  · rw [hx]
    exact congrArg Buf.busy (setBuf_same _)
  · exact congrArg Buf.busy (setBuf_ne _ hx)

lemma Wf.bufClaim (h : Wf c) (b : Nat) : Wf (c.bufClaim b) := by
  refine (bufClaim_sameData c b).wf h (h.lruNodup.erase b) fun x => ?_
  show x ∈ c.lru.erase b ↔ x < c.nbufs ∧ _
  rw [h.lruNodup.mem_erase_iff, h.lruIff, bufClaim_busy]
  by_cases hx : x = b <;> simp [hx]

lemma Wf.bufRelease (h : Wf c) (hb : b < c.nbufs) (hbusy : (c.bufs b).busy = true) : Wf (c.bufRelease b) := by
  have hn : b ∉ c.lru := fun hm => by
    rw [((h.lruIff b).1 hm).2] at hbusy
    cases hbusy
  refine (bufRelease_sameData c b).wf h ?_ fun x => ?_
  · exact nodup_append.2 ⟨h.lruNodup, nodup_singleton b, fun y hy z hz => by
      rw [mem_singleton.1 hz]
      exact ne_of_mem_of_not_mem hy hn⟩
  show x ∈ c.lru ++ [b] ↔ x < c.nbufs ∧ _
  rw [mem_append, h.lruIff, bufRelease_busy]
  by_cases hx : x = b
  · simp [hx, hb]
  · simp [hx]

lemma bufRelease_bufs (c : Cache) (b x : Nat) :
    (c.bufRelease b).bufs x = if x = b then { c.bufs x with busy := false } else c.bufs x := by
  split <;> rename_i hx
  · rw [hx]
    exact setBuf_same _
  · exact setBuf_ne _ hx

/-- A list of busy buffers is released. -/
lemma Wf.releaseAll (h : Wf c) (hn : xs.Nodup) (hx : ∀ x ∈ xs, x < c.nbufs ∧ (c.bufs x).busy = true) :
    Wf (xs.foldl (fun c x => c.bufRelease x) c) ∧ SameData c (xs.foldl (fun c x => c.bufRelease x) c) ∧
      ∀ y, (xs.foldl (fun c x => c.bufRelease x) c).bufs y =
        if y ∈ xs then { c.bufs y with busy := false } else c.bufs y := by
  induction xs generalizing c with
  | nil => exact ⟨h, .refl c, fun y => by simp⟩
  | cons x xs ih =>
    obtain ⟨hx0, hxs⟩ := forall_mem_cons.1 hx
    obtain ⟨hnx, hn⟩ := nodup_cons.1 hn
    have hbusy : ∀ y ∈ xs, ((c.bufRelease x).bufs y).busy = true := fun y hy => by
      rw [bufRelease_busy, if_neg (ne_of_mem_of_not_mem hy hnx)]
      exact (hxs y hy).2
    obtain ⟨h1, h2, h3⟩ := ih (h.bufRelease hx0.1 hx0.2) hn fun y hy => ⟨(hxs y hy).1, hbusy y hy⟩
    refine ⟨h1, (bufRelease_sameData c x).trans h2, fun y => ?_⟩
    rw [foldl_cons, h3 y, bufRelease_bufs]
    by_cases hy : y ∈ xs
    · by_cases hyx : y = x
      · simp [hyx]
      · simp [hy, hyx]
    by_cases hyx : y = x
    · simp [hyx, hnx]
    · simp [hy, hyx]

/-! ## The count of dirty buffers -/

/-- A count changes with the one element that does. -/
lemma countP_range_update {n : Nat} {f g : Nat → Bool} (hb : b < n) (h : ∀ i, i ≠ b → g i = f i) :
    (List.range n).countP g + (if f b then 1 else 0) = (List.range n).countP f + (if g b then 1 else 0) := by
  induction n with
  | zero => omega
  | succ n ih =>
    rw [range_succ, countP_append, countP_append]
    by_cases hbn : b = n
    · subst hbn
      have heq : (List.range b).countP g = (List.range b).countP f :=
        countP_congr fun i hi => by rw [h i (ne_of_lt (mem_range.1 hi))]
      simp only [countP_singleton]
      omega
    · simp only [countP_singleton, h n (Ne.symm hbn)]
      omega

/-- One buffer changes, but not its key or whether it is busy. -/
lemma Wf.setBuf (h : Wf c) (hb : b < c.nbufs) (y : Buf) (hd : y.dev = (c.bufs b).dev)
    (hk : y.blkno = (c.bufs b).blkno) (hbusy : y.busy = (c.bufs b).busy) {n : Int}
    (hn : n + (if (c.bufs b).dirty then 1 else 0) = c.ndirty + if y.dirty then 1 else 0) :
    Wf { c.setBuf b y with ndirty := n } := by
  have hdev : ∀ x, ((c.setBuf b y).bufs x).dev = (c.bufs x).dev := fun x => by
    by_cases hx : x = b
    · rw [hx, setBuf_same, hd]
    · rw [setBuf_ne _ hx]
  have hblk : ∀ x, ((c.setBuf b y).bufs x).blkno = (c.bufs x).blkno := fun x => by
    by_cases hx : x = b
    · rw [hx, setBuf_same, hk]
    · rw [setBuf_ne _ hx]
  have hholds : ∀ {x d k}, Holds { c.setBuf b y with ndirty := n } x d k → c.Holds x d k := fun {x d k} hx =>
    ⟨hx.1, (hdev x).symm.trans hx.2.1, (hblk x).symm.trans hx.2.2⟩
  exact { h with
    hashIff := fun k x => by
      show x ∈ c.hash k ↔ x < c.nbufs ∧ hashOf ((c.setBuf b y).bufs x).dev ((c.setBuf b y).bufs x).blkno = k
      rw [hdev, hblk]
      exact h.hashIff k x
    unique := fun x x' d k hx hx' => h.unique x x' d k (hholds hx) (hholds hx')
    lruIff := fun x => by
      show x ∈ c.lru ↔ x < c.nbufs ∧ ((c.setBuf b y).bufs x).busy = false
      rw [h.lruIff]
      by_cases hx : x = b
      · rw [hx, setBuf_same, hbusy]
      · rw [setBuf_ne _ hx]
    ndirty := by
      show n = ((List.range c.nbufs).countP fun x => ((c.setBuf b y).bufs x).dirty : Nat)
      have hcount := countP_range_update (f := fun x => (c.bufs x).dirty)
        (g := fun x => ((c.setBuf b y).bufs x).dirty) hb fun i hi => by rw [setBuf_ne _ hi]
      have hold := h.ndirty
      simp only [setBuf_same] at hcount
      rw [hold] at hn
      cases hf : (c.bufs b).dirty <;> cases hg : y.dirty <;> simp only [hf, hg] at hcount hn <;> simp at hcount hn <;>
        omega }

/-- Only `dirty` of the buffers listed changes. -/
lemma Wf.markClean (h : Wf c) (hb : b < c.nbufs) : Wf (c.markClean b) ∧
    ∀ x, (c.markClean b).bufs x = if x = b then { c.bufs x with dirty := false } else c.bufs x := by
  unfold Cache.markClean
  split <;> rename_i hd
  · refine ⟨h.setBuf hb { c.bufs b with dirty := false } rfl rfl rfl (by simp [hd]), fun x => ?_⟩
    by_cases hx : x = b
    · rw [hx, if_pos rfl]
      exact setBuf_same _
    rw [if_neg hx]
    exact setBuf_ne _ hx
  refine ⟨h, fun x => ?_⟩
  split
  · rename_i hx
    rw [hx]
    simp only [Bool.not_eq_true] at hd
    rw [← hd]
  · rfl

@[simp] lemma markClean_nbufs : (c.markClean b).nbufs = c.nbufs := by
  unfold Cache.markClean
  split <;> rfl

lemma Wf.cleanAll (h : Wf c) (hx : ∀ x ∈ xs, x < c.nbufs) :
    Wf (xs.foldl (fun c x => c.markClean x) c) ∧ (xs.foldl (fun c x => c.markClean x) c).nbufs = c.nbufs ∧
      ∀ y, (xs.foldl (fun c x => c.markClean x) c).bufs y =
        if y ∈ xs then { c.bufs y with dirty := false } else c.bufs y := by
  induction xs generalizing c with
  | nil => exact ⟨h, rfl, fun y => by simp⟩
  | cons x xs ih =>
    obtain ⟨hx0, hxs⟩ := forall_mem_cons.1 hx
    obtain ⟨hw, hbufs⟩ := h.markClean hx0
    obtain ⟨h1, h2, h3⟩ := ih hw (by simpa using hxs)
    refine ⟨h1, h2.trans markClean_nbufs, fun y => ?_⟩
    rw [foldl_cons, h3 y, hbufs y]
    by_cases hy : y ∈ xs
    · by_cases hyx : y = x <;> simp [hyx]
    by_cases hyx : y = x
    · simp [hyx]
    · simp [hy]

/-! ## Buffers for new blocks -/

/-- The buffers `xs` have been given to blocks that were not cached: each was idle and clean, or is
new, and is now claimed and without contents. -/
structure Takes (c c' : Cache) (xs : List Nat) : Prop where
  others : ∀ x, x ∉ xs → c'.bufs x = c.bufs x
  fresh : ∀ x ∈ xs, (c'.bufs x).valid = false ∧ (c'.bufs x).dirty = false ∧ (c'.bufs x).busy = true
  nbufs : ∀ x, x < c'.nbufs ↔ x < c.nbufs ∨ x ∈ xs
  idle : ∀ x ∈ xs, x < c.nbufs → (c.bufs x).busy = false ∧ (c.bufs x).dirty = false
  nodup : xs.Nodup

lemma Takes.nil (c : Cache) : Takes c c [] := ⟨fun _ _ => rfl, by simp, by simp, by simp, .nil⟩

lemma Takes.append (h : Takes c c' xs) (h' : Takes c' c'' ys) : Takes c c'' (xs ++ ys) := by
  have hapart : ∀ x ∈ xs, x ∉ ys := fun x hx hy => by
    have h1 := (h'.idle x hy ((h.nbufs x).2 (.inr hx))).1
    rw [(h.fresh x hx).2.2] at h1
    cases h1
  exact {
    others := fun x hx => by
      rw [mem_append, not_or] at hx
      rw [h'.others x hx.2, h.others x hx.1]
    fresh := fun x hx => by
      rcases mem_append.1 hx with hx | hx
      · rw [h'.others x (hapart x hx)]
        exact h.fresh x hx
      · exact h'.fresh x hx
    nbufs := fun x => by rw [h'.nbufs, h.nbufs, mem_append, or_assoc]
    idle := fun x hx hn => by
      by_cases hxs : x ∈ xs
      · exact h.idle x hxs hn
      rw [← h.others x hxs]
      exact h'.idle x ((mem_append.1 hx).resolve_left hxs) ((h.nbufs x).2 (.inl hn))
    nodup := nodup_append.2 ⟨h.nodup, h'.nodup, fun x hx y hy => by
      rintro rfl
      exact hapart x hx hy⟩ }

/-- What `buf_new` and `buf_reassign` have in common: buffer `b` goes to a block that is not cached. -/
lemma Wf.takes {f : Nat → UInt8} (h : Wf c) (hk : ∀ b, ¬ c.Holds b d k)
    (hn : b < c.nbufs ∧ c'.nbufs = c.nbufs ∧ (c.bufs b).busy = false ∧ (c.bufs b).dirty = false ∨
      b = c.nbufs ∧ c'.nbufs = c.nbufs + 1)
    (hbufs : ∀ x, c'.bufs x = if x = b then ⟨d, k, false, false, true, f⟩ else c.bufs x)
    (hmem : ∀ i x, x ∈ c'.hash i ↔ x = b ∧ i = hashOf d k ∨ x ≠ b ∧ x ∈ c.hash i)
    (hnd : ∀ i, (c'.hash i).Nodup) (hlru : c'.lru = c.lru.erase b) (hdirty : c'.ndirty = c.ndirty) :
    Wf c' ∧ Takes c c' [b] ∧ c'.Holds b d k := by
  have hself : c'.bufs b = ⟨d, k, false, false, true, f⟩ := by rw [hbufs, if_pos rfl]
  have hne : ∀ {x}, x ≠ b → c'.bufs x = c.bufs x := fun hx => by rw [hbufs, if_neg hx]
  have hlt : ∀ x, x < c'.nbufs ↔ x < c.nbufs ∨ x = b := by
    intro x
    omega
  refine ⟨?_, ?_, (hlt b).2 (.inr rfl), by rw [hself], by rw [hself]⟩
  · exact {
      hashIff := fun i x => by
        rw [hmem, hlt]
        by_cases hx : x = b
        · subst hx
          simp only [true_and, ne_eq, not_true_eq_false, false_and, or_false, or_true, hself]
          exact eq_comm
        · simp only [hx, false_and, false_or, ne_eq, not_false_eq_true, true_and, or_false, hne hx]
          exact h.hashIff i x
      hashNodup := hnd
      unique := fun x x' d' k' hx hx' => by
        have hcases : ∀ {x}, c'.Holds x d' k' → c.Holds x d' k' ∨ x = b ∧ d' = d ∧ k' = k := by
          rintro x ⟨h1, h2, h3⟩
          by_cases hxb : x = b
          · rw [hxb, hself] at h2 h3
            exact .inr ⟨hxb, h2.symm, h3.symm⟩
          rw [hne hxb] at h2 h3
          exact .inl ⟨((hlt x).1 h1).resolve_right hxb, h2, h3⟩
        rcases hcases hx with h1 | ⟨rfl, rfl, rfl⟩
        · rcases hcases hx' with h2 | ⟨rfl, rfl, rfl⟩
          · exact h.unique x x' d' k' h1 h2
          · exact absurd h1 (hk x)
        rcases hcases hx' with h2 | ⟨rfl, -, -⟩
        · exact absurd h2 (hk x')
        · rfl
      lruNodup := hlru ▸ h.lruNodup.erase b
      lruIff := fun x => by
        rw [hlru, h.lruNodup.mem_erase_iff, h.lruIff, hlt]
        by_cases hx : x = b
        · simp [hx, hself]
        · simp [hx, hne hx]
      ndirty := by
        rw [hdirty, h.ndirty]
        have hrest : (List.range c.nbufs).countP (fun x => (c'.bufs x).dirty) =
            (List.range c.nbufs).countP fun x => (c.bufs x).dirty := by
          refine countP_congr fun x _ => ?_
          by_cases hx : x = b
          · rcases hn with ⟨-, -, -, hd⟩ | ⟨hb, -⟩
            · rw [hx, hself, hd]
            have := mem_range.1 ‹x ∈ _›
            omega
          · rw [hne hx]
        rcases hn with ⟨-, hn, -⟩ | ⟨hb, hn⟩
        · rw [hn, hrest]
        rw [hn, range_succ, countP_append, hrest, countP_singleton, ← hb, hself]
        rfl }
  · exact {
      others := fun x hx => hne (by simpa using hx)
      fresh := fun x hx => by
        rw [mem_singleton.1 hx, hself]
        exact ⟨rfl, rfl, rfl⟩
      nbufs := fun x => by rw [hlt, mem_singleton]
      idle := fun x hx hxn => by
        rw [mem_singleton.1 hx] at hxn ⊢
        rcases hn with ⟨-, -, h1⟩ | ⟨hb, -⟩
        · exact h1
        · omega
      nodup := nodup_singleton _ }

variable {first len : Nat}

lemma Wf.bufNew (h : Wf c) (hk : ∀ b, ¬ c.Holds b d k) {mem : Bool} (he : c.bufNew mem d k = some (b, c')) :
    Wf c' ∧ Takes c c' [b] ∧ c'.Holds b d k := by
  unfold Cache.bufNew at he
  split at he
  · cases he
  obtain ⟨c₁, hc₁⟩ : ∃ c₁ : Cache, c₁ =
      { c.setBuf c.nbufs ⟨d, k, false, false, true, fun _ => 0⟩ with nbufs := c.nbufs + 1 } := ⟨_, rfl⟩
  simp only [Option.some.injEq, Prod.mk.injEq] at he
  obtain ⟨rfl, rfl⟩ := he
  rw [← hc₁]
  have hself : c₁.bufs c.nbufs = ⟨d, k, false, false, true, fun _ => 0⟩ := by
    rw [hc₁]
    exact setBuf_same _
  have hhash : c₁.hash = c.hash := by rw [hc₁]; rfl
  have hins : (c₁.hashInsert c.nbufs).hash = update c.hash (hashOf d k) (c.nbufs :: c.hash (hashOf d k)) := by
    unfold hashInsert
    simp only [hself, hhash]
  have hout : ∀ i, c.nbufs ∉ c.hash i := fun i hm => absurd ((h.hashIff i _).1 hm).1 (lt_irrefl _)
  refine h.takes (f := fun _ => 0) hk (.inr ⟨rfl, by rw [hc₁]; rfl⟩) (fun x => ?_) (fun i x => ?_) (fun i => ?_)
    ?_ (by rw [hc₁]; rfl)
  · show c₁.bufs x = _
    rw [hc₁]
    split <;> rename_i hx
    · rw [hx]
      exact setBuf_same _
    · exact setBuf_ne _ hx
  · rw [hins]
    by_cases hi : i = hashOf d k
    · subst hi
      rw [update_self, mem_cons]
      have := hout (hashOf d k)
      constructor
      · rintro (rfl | hm)
        · exact .inl ⟨rfl, rfl⟩
        · exact .inr ⟨ne_of_mem_of_not_mem hm this, hm⟩
      rintro (⟨rfl, -⟩ | ⟨-, hm⟩)
      · exact .inl rfl
      · exact .inr hm
    · rw [update_of_ne hi]
      constructor
      · exact fun hm => .inr ⟨ne_of_mem_of_not_mem hm (hout i), hm⟩
      rintro (⟨-, h1⟩ | ⟨-, hm⟩)
      · exact absurd h1 hi
      · exact hm
  · rw [hins]
    refine (forall_update_iff c.hash fun _ => List.Nodup).2 ⟨?_, fun i _ => h.hashNodup i⟩ i
    exact nodup_cons.2 ⟨hout _, h.hashNodup _⟩
  · show c₁.lru = _
    rw [erase_of_not_mem fun hm => absurd ((h.lruIff _).1 hm).1 (lt_irrefl _), hc₁]
    rfl

/-- An idle clean buffer goes to another block. -/
lemma Wf.bufReassign (h : Wf c) (hk : ∀ b, ¬ c.Holds b d k) (hb : b < c.nbufs) (hidle : (c.bufs b).busy = false)
    (hclean : (c.bufs b).dirty = false) : Wf ((c.bufClaim b).bufReassign b d k) ∧
    Takes c ((c.bufClaim b).bufReassign b d k) [b] ∧ ((c.bufClaim b).bufReassign b d k).Holds b d k := by
  set c₁ := c.bufClaim b with hc₁
  have hsame : SameData c c₁ := hc₁ ▸ bufClaim_sameData c b
  have hw : Wf c₁ := hc₁ ▸ h.bufClaim b
  have hhash : (c₁.bufReassign b d k).hash =
      update (c₁.hashRemove b).hash (hashOf d k) (b :: (c₁.hashRemove b).hash (hashOf d k)) := by
    unfold Cache.bufReassign hashInsert
    simp only [setBuf_same]
    rfl
  have hremoved : ∀ i x, x ∈ (c₁.hashRemove b).hash i ↔ x ∈ c.hash i ∧ x ≠ b := by
    intro i x
    rw [← hsame.hash]
    show x ∈ update c₁.hash _ _ i ↔ _
    by_cases hi : i = hashOf (c₁.bufs b).dev (c₁.bufs b).blkno
    · subst hi
      rw [update_self, (hw.hashNodup _).mem_erase_iff, and_comm]
    rw [update_of_ne hi]
    refine (and_iff_left_of_imp fun hm => ?_).symm
    rintro rfl
    exact hi ((hw.hashIff _ _).1 hm).2.symm
  have hnodup : ∀ i, ((c₁.hashRemove b).hash i).Nodup := by
    exact (forall_update_iff c₁.hash fun _ => List.Nodup).2 ⟨(hw.hashNodup _).erase b, fun i _ => hw.hashNodup i⟩
  refine h.takes (f := (c₁.bufs b).data) hk (.inl ⟨hb, hsame.nbufs, hidle, hclean⟩) (fun x => ?_) (fun i x => ?_)
    (fun i => ?_) (by rw [hc₁]; rfl) hsame.ndirty
  · by_cases hx : x = b
    · rw [hx, if_pos rfl]
      exact setBuf_same (c := c₁.hashRemove b) _
    rw [if_neg hx]
    refine (setBuf_ne (c := c₁.hashRemove b) _ hx).trans ?_
    show c₁.bufs x = _
    rw [hc₁]
    exact setBuf_ne _ hx
  · rw [hhash]
    by_cases hi : i = hashOf d k
    · subst hi
      rw [update_self, mem_cons, hremoved]
      tauto
    · rw [update_of_ne hi, hremoved]
      tauto
  · rw [hhash]
    refine (forall_update_iff (c₁.hashRemove b).hash fun _ => List.Nodup).2 ⟨?_, fun i _ => hnodup i⟩ i
    exact nodup_cons.2 ⟨fun hm => ((hremoved _ _).1 hm).2 rfl, hnodup _⟩

/-! ## Finding a buffer -/

/-- One turn of `getblk`. -/
lemma Wf.getblk (h : Wf c) (mem : Bool) (d k : Nat) : c.getblk mem d k = (.sleep, c) ∨
    (∃ b, c.getblk mem d k = (.buf b, c.bufClaim b) ∧ c.Holds b d k ∧ (c.bufs b).busy = false) ∨
    (∃ b c', c.getblk mem d k = (.buf b, c') ∧ Wf c' ∧ Takes c c' [b] ∧ c'.Holds b d k) ∨ ∃ v,
    c.getblk mem d k = (.victim v, c.bufClaim v) ∧ v < c.nbufs ∧ (c.bufs v).busy = false ∧ (c.bufs v).dirty = true := by
  unfold Cache.getblk
  cases hl : c.lookup d k with
  | some b =>
    have hb := h.lookup_eq_some.1 hl
    by_cases hbusy : (c.bufs b).busy = true
    · simp [hbusy]
    rw [Bool.not_eq_true] at hbusy
    simp [hbusy, hb]
  | none =>
    have hk := h.lookup_eq_none.1 hl
    cases hn : c.bufNew mem d k with
    | some r =>
      obtain ⟨b, c'⟩ := r
      exact .inr (.inr (.inl ⟨b, c', rfl, h.bufNew hk hn⟩))
    | none =>
      cases hlru : c.lru with
      | nil => simp
      | cons v vs =>
        obtain ⟨hv, hidle⟩ := (h.lruIff v).1 (by simp [hlru])
        by_cases hd : (c.bufs v).dirty = true
        · exact .inr (.inr (.inr ⟨v, by simp [hd], hv, hidle, hd⟩))
        rw [Bool.not_eq_true] at hd
        exact .inr (.inr (.inl ⟨v, _, by simp [hd], h.bufReassign hk hv hidle hd⟩))

lemma Wf.getblkNowait (h : Wf c) (hk : ∀ b, ¬ c.Holds b d k) {mem : Bool}
    (he : c.getblkNowait mem d k = some (b, c')) : Wf c' ∧ Takes c c' [b] ∧ c'.Holds b d k := by
  unfold Cache.getblkNowait at he
  split at he
  · rename_i hn
    cases he
    exact h.bufNew hk hn
  split at he
  · rename_i hv
    cases he
    obtain ⟨hlt, hidle⟩ := (h.lruIff _).1 (mem_of_find?_eq_some hv)
    have hd := List.find?_some hv
    exact h.bufReassign hk hlt hidle (by simpa using hd)
  · cases he

/-- The blocks of a list of buffers follow one another. -/
def Consecutive (c : Cache) (d first : Nat) (run : List Nat) : Prop := ∀ i x, run[i]? = some x → c.Holds x d (first + i)

lemma consecutive_nil (first : Nat) : c.Consecutive d first [] := fun i x h => by simp at h

lemma consecutive_cons (hx : c.Holds x d first) (h : c.Consecutive d (first + 1) xs) :
    c.Consecutive d first (x :: xs) := fun i y hy => by
  cases i with
  | zero =>
    obtain rfl : x = y := by simpa using hy
    exact hx
  | succ i =>
    rw [show first + (i + 1) = first + 1 + i by omega]
    exact h i y (by simpa using hy)

lemma Consecutive.congr (h : c.Consecutive d first xs)
    (hh : ∀ x ∈ xs, ∀ d k, c.Holds x d k → c'.Holds x d k) : c'.Consecutive d first xs := fun i x hx =>
  hh x (mem_of_getElem? hx) _ _ (h i x hx)

lemma Consecutive.nodup (h : c.Consecutive d first xs) : xs.Nodup := by
  refine nodup_iff_getElem?_ne_getElem?.2 fun i j hij hj he => ?_
  have h1 := h j _ (List.getElem?_eq_getElem hj)
  have h2 := h i _ (he.trans (List.getElem?_eq_getElem hj))
  have := h1.2.2.symm.trans h2.2.2
  omega

/-- A buffer of a list of consecutive ones is found by its block. -/
lemma Consecutive.mem (h : c.Consecutive d first xs) (hx : x ∈ xs) :
    c.Holds x d (c.bufs x).blkno ∧ first ≤ (c.bufs x).blkno ∧ xs[(c.bufs x).blkno - first]? = some x := by
  obtain ⟨i, hi⟩ := mem_iff_getElem?.1 hx
  have hh := h i x hi
  have hb := hh.2.2
  refine ⟨⟨hh.1, hh.2.1, rfl⟩, by omega, ?_⟩
  rw [hb, Nat.add_sub_cancel_left]
  exact hi

/-- The blocks read ahead of `blkno`. -/
lemma Wf.readAhead (h : Wf c) (mem : Nat → Bool) (len d blkno fuel n : Nat) :
    Wf (readAhead mem len d blkno fuel n c).2 ∧
    Takes c (readAhead mem len d blkno fuel n c).2 (readAhead mem len d blkno fuel n c).1 ∧
    (readAhead mem len d blkno fuel n c).2.Consecutive d (blkno + n) (readAhead mem len d blkno fuel n c).1 := by
  induction fuel generalizing n c with
  | zero => exact ⟨h, .nil c, consecutive_nil _⟩
  | succ fuel ih =>
    rw [Cache.readAhead]
    split
    swap
    · exact ⟨h, .nil c, consecutive_nil _⟩
    rename_i hc
    split
    swap
    · exact ⟨h, .nil c, consecutive_nil _⟩
    rename_i x c₁ hg
    obtain ⟨hw, ht, hh⟩ := h.getblkNowait (h.lookup_eq_none.1 hc.2) hg
    obtain ⟨hw', ht', hh'⟩ := ih hw (n + 1)
    refine ⟨hw', ht.append ht', consecutive_cons ?_ hh'⟩
    -- the later ones are other buffers, since this one is claimed
    have hnot : x ∉ (Cache.readAhead mem len d blkno fuel (n + 1) c₁).1 := fun hm => by
      have := (ht'.idle x hm hh.1).1
      rw [(ht.fresh x (by simp)).2.2] at this
      cases this
    refine ⟨(ht'.nbufs x).2 (.inl hh.1), ?_, ?_⟩
    · rw [ht'.others x hnot]
      exact hh.2.1
    rw [ht'.others x hnot]
    exact hh.2.2

/-- All blocks that are read ahead begin on the device. -/
lemma readAhead_blockLen {mem : Nat → Bool} {blkno : Nat} (fuel n : Nat) (c : Cache) :
    ∀ i < (readAhead mem len d blkno fuel n c).1.length, blockLen len (blkno + n + i) ≠ 0 := by
  induction fuel generalizing n c with
  | zero => simp [readAhead]
  | succ fuel ih =>
    rw [readAhead]
    split
    · rename_i hc
      split
      · rename_i c₁ _
        intro i hi
        cases i with
        | zero => exact hc.1
        | succ i =>
          rw [show blkno + n + (i + 1) = blkno + (n + 1) + i by omega]
          exact ih (n + 1) c₁ i (by simpa using hi)
      · simp
    · simp

/-! ## Writing back -/

lemma clusterMember_iff : c.clusterMember (some x) = true ↔ (c.bufs x).busy = false ∧ (c.bufs x).dirty = true := by
  simp [clusterMember]

/-- The run starts at most half its length before the block, and after a block that is in it or is no
member. -/
lemma clusterFirst_spec (fuel first : Nat) (hf : first ≤ k) (hk : k - first < runMax / 2) :
    c.clusterFirst d k fuel first ≤ first ∧ k - c.clusterFirst d k fuel first < runMax / 2 ∧
      ∀ j, c.clusterFirst d k fuel first ≤ j → j < first → c.clusterMember (c.lookup d j) = true := by
  induction fuel generalizing first with
  | zero => exact ⟨le_rfl, hk, fun j h1 h2 => absurd h1 (Nat.not_le.2 h2)⟩
  | succ fuel ih =>
    rw [clusterFirst]
    split
    · rename_i hc
      obtain ⟨h1, h2, h3⟩ := hc
      obtain ⟨i1, i2, i3⟩ := ih (first - 1) (by omega) (by omega)
      refine ⟨by omega, i2, fun j hj hjf => ?_⟩
      by_cases hj' : j < first - 1
      · exact i3 j hj hj'
      rw [show j = first - 1 by omega]
      exact h3
    · exact ⟨le_rfl, hk, fun j h1 h2 => absurd h1 (Nat.not_le.2 h2)⟩

/-- What the second loop of `writeback_cluster` collects and claims, from block `blk` on. -/
structure Clustered (c c' : Cache) (b d blk : Nat) (run : List Nat) : Prop where
  wf : Wf c'
  same : SameData c c'
  consecutive : c.Consecutive d blk run
  busy : ∀ y, (c'.bufs y).busy = if y ∈ run ∧ y ≠ b then true else (c.bufs y).busy
  members : ∀ x ∈ run, x ≠ b → (c.bufs x).busy = false ∧ (c.bufs x).dirty = true

lemma Wf.clusterRun (fuel blk : Nat) (h : Wf c) (hb : c.Holds b d k) :
    Clustered c (clusterRun b d fuel blk c).2 b d blk (clusterRun b d fuel blk c).1 ∧
    (blk ≤ k → k - blk < fuel → (∀ j, blk ≤ j → j < k → c.clusterMember (c.lookup d j) = true) →
      b ∈ (clusterRun b d fuel blk c).1) := by
  have hstop : ∀ {c : Cache}, Wf c → Clustered c c b d blk [] := fun h =>
    ⟨h, .refl _, consecutive_nil _, fun y => by simp, by simp⟩
  induction fuel generalizing blk c with
  | zero => exact ⟨hstop h, fun _ h2 => absurd h2 (Nat.not_lt_zero _)⟩
  | succ fuel ih =>
    rw [Cache.clusterRun]
    split <;> rename_i hblk <;> rw [hb.2.2] at hblk
    · obtain ⟨hc, -⟩ := ih (blk + 1) h hb fun h => ⟨h, .refl _, consecutive_nil _, fun y => by simp, by simp⟩
      refine ⟨⟨hc.wf, hc.same, consecutive_cons (hblk ▸ hb) hc.consecutive, fun y => ?_, fun x hx hxb => ?_⟩,
        fun _ _ _ => mem_cons_self ..⟩
      · rw [hc.busy y]
        by_cases hy : y = b <;> simp [hy]
      · exact hc.members x ((mem_cons.1 hx).resolve_left hxb) hxb
    split
    · rename_i hl
      refine ⟨hstop h, fun h1 _ h3 => ?_⟩
      have := h3 blk le_rfl (by omega)
      rw [hl] at this
      cases this
    rename_i x hl
    have hx := h.lookup_eq_some.1 hl
    have hxb : x ≠ b := by
      rintro rfl
      exact hblk (hx.2.2.symm.trans hb.2.2)
    split <;> rename_i hm
    · obtain ⟨hidle, hdirty⟩ := clusterMember_iff.1 hm
      have hsame := bufClaim_sameData c x
      obtain ⟨hc, hin⟩ := ih (blk + 1) (h.bufClaim x) (hsame.holds.2 hb)
        fun h => ⟨h, .refl _, consecutive_nil _, fun y => by simp, by simp⟩
      have hcons : c.Consecutive d (blk + 1) (Cache.clusterRun b d fuel (blk + 1) (c.bufClaim x)).1 :=
        hc.consecutive.congr fun y _ _ _ hy => hsame.holds.1 hy
      have hnot : x ∉ (Cache.clusterRun b d fuel (blk + 1) (c.bufClaim x)).1 := fun hmem => by
        have := (hcons.mem hmem).2.1
        rw [hx.2.2] at this
        omega
      refine ⟨⟨hc.wf, hsame.trans hc.same, consecutive_cons hx hcons, fun y => ?_, fun y hy hyb => ?_⟩,
        fun h1 h2 h3 => ?_⟩
      · rw [hc.busy y, bufClaim_busy]
        by_cases hyx : y = x
        · simp [hyx, hxb]
        · simp [hyx]
      · rcases mem_cons.1 hy with rfl | hy
        · exact ⟨hidle, hdirty⟩
        have := hc.members y hy hyb
        rw [bufClaim_busy, if_neg (ne_of_mem_of_not_mem hy hnot), hsame.dirty] at this
        exact this
      refine mem_cons_of_mem _ (hin (by omega) (by omega) fun j hj hjk => ?_)
      have hmem := h3 j (by omega) hjk
      rw [hsame.lookup]
      cases hlj : c.lookup d j with
      | none =>
        rw [hlj] at hmem
        cases hmem
      | some y =>
        rw [hlj] at hmem
        have hy := h.lookup_eq_some.1 hlj
        have hyx : y ≠ x := by
          rintro rfl
          have := hy.2.2.symm.trans hx.2.2
          omega
        rw [clusterMember_iff, bufClaim_busy, if_neg hyx, hsame.dirty]
        exact clusterMember_iff.1 hmem
    · refine ⟨hstop h, fun h1 _ h3 => ?_⟩
      have := h3 blk le_rfl (by omega)
      rw [hl] at this
      exact absurd this hm

/-- `writeback_cluster` writes a run of consecutive dirty blocks around `b`. -/
lemma Wf.cluster (h : Wf c) (hb : b < c.nbufs) :
    ∃ first, Clustered c (c.cluster b).2 b (c.bufs b).dev first (c.cluster b).1 ∧ b ∈ (c.cluster b).1 := by
  have hh : c.Holds b (c.bufs b).dev (c.bufs b).blkno := ⟨hb, rfl, rfl⟩
  obtain ⟨h1, h2, h3⟩ := clusterFirst_spec (runMax / 2) (c.bufs b).blkno le_rfl (by rw [Nat.sub_self]; decide)
  obtain ⟨hc, hin⟩ := h.clusterRun runMax
    (c.clusterFirst (c.bufs b).dev (c.bufs b).blkno (runMax / 2) (c.bufs b).blkno) hh
  exact ⟨_, hc, hin h1 (lt_trans h2 (by decide)) h3⟩

lemma wanted_iff {d : Option Nat} :
    c.wanted d b = true ↔ (c.bufs b).dirty = true ∧ ∀ d', d = some d' → (c.bufs b).dev = d' := by
  unfold wanted
  cases d with
  | none => simp
  | some d => simp

lemma scanBuf_cases (d : Option Nat) (r : Option Nat × Option Nat) (b : Nat) : c.wanted d b = false ∧
    c.scanBuf d r b = r ∨ (∃ y, (c.scanBuf d r b).2 = some y) ∧ (c.scanBuf d r b).1 = r.1 ∨ c.wanted d b = true ∧
    (c.bufs b).busy = false ∧ ∃ i, (c.scanBuf d r b).1 = some i ∧ (i = b ∨ r.1 = some i) := by
  unfold scanBuf
  by_cases hw : c.wanted d b = true
  swap
  · rw [if_neg hw]
    exact .inl ⟨by simpa using hw, rfl⟩
  rw [if_pos hw]
  by_cases hbusy : (c.bufs b).busy = true
  · rw [if_pos hbusy]
    exact .inr (.inl ⟨⟨b, rfl⟩, rfl⟩)
  rw [if_neg hbusy]
  refine .inr (.inr ⟨hw, by simpa using hbusy, ?_⟩)
  cases hr : r.1 with
  | none => exact ⟨b, rfl, .inl rfl⟩
  | some i =>
    simp only
    split
    · exact ⟨b, rfl, .inl rfl⟩
    · exact ⟨i, hr, .inr rfl⟩

lemma foldl_scanBuf (d : Option Nat) (l : List Nat) (r : Option Nat × Option Nat) :
    (∀ i, (l.foldl (c.scanBuf d) r).1 = some i → r.1 = some i ∨ i ∈ l ∧ c.wanted d i = true ∧ (c.bufs i).busy = false) ∧
    (l.foldl (c.scanBuf d) r = (none, none) → r = (none, none) ∧ ∀ b ∈ l, c.wanted d b = false) := by
  induction l generalizing r with
  | nil => exact ⟨fun i hi => .inl hi, fun hr => ⟨hr, by simp⟩⟩
  | cons b l ih =>
    rw [foldl_cons]
    obtain ⟨ih1, ih2⟩ := ih (c.scanBuf d r b)
    rcases c.scanBuf_cases d r b with ⟨hn, he⟩ | ⟨⟨y, hy⟩, he⟩ | ⟨hw, hbusy, i, hi, hir⟩
    · rw [he] at ih1 ih2 ⊢
      refine ⟨fun i hi => ?_, fun hr => ?_⟩
      · exact (ih1 i hi).imp_right fun h => ⟨mem_cons_of_mem _ h.1, h.2⟩
      obtain ⟨h1, h2⟩ := ih2 hr
      refine ⟨h1, fun x hx => ?_⟩
      rcases mem_cons.1 hx with rfl | hx
      · exact hn
      · exact h2 x hx
    · refine ⟨fun i hi => ?_, fun hr => ?_⟩
      · rw [← he]
        exact (ih1 i hi).imp_right fun h => ⟨mem_cons_of_mem _ h.1, h.2⟩
      have := (ih2 hr).1
      rw [this] at hy
      cases hy
    refine ⟨fun j hj => ?_, fun hr => ?_⟩
    · rcases ih1 j hj with h1 | h1
      · rw [hi] at h1
        cases h1
        rcases hir with rfl | hir
        · exact .inr ⟨mem_cons_self .., hw, hbusy⟩
        · exact .inl hir
      · exact .inr ⟨mem_cons_of_mem _ h1.1, h1.2⟩
    · have := (ih2 hr).1
      rw [this] at hi
      cases hi

lemma hashOf_lt (d k : Nat) : hashOf d k < hashSize := Nat.mod_lt _ (by decide)

/-- The scan of `flush_dirty` finds an idle dirty buffer of its device, or there are no dirty ones. -/
lemma Wf.scan (h : Wf c) (d : Option Nat) :
    (∀ b r, c.scan d = (some b, r) → b < c.nbufs ∧ c.wanted d b = true ∧ (c.bufs b).busy = false) ∧
    (c.scan d = (none, none) → ∀ b, b < c.nbufs → c.wanted d b = false) := by
  obtain ⟨h1, h2⟩ := foldl_scanBuf d ((List.range hashSize).flatMap c.hash) (none, none)
  refine ⟨fun b r hs => ?_, fun hs b hb => ?_⟩
  · rcases h1 b (by unfold Cache.scan at hs; rw [hs]) with h3 | ⟨hm, h3⟩
    · cases h3
    obtain ⟨i, -, hm⟩ := mem_flatMap.1 hm
    exact ⟨((h.hashIff i b).1 hm).1, h3⟩
  · refine (h2 hs).2 b (mem_flatMap.2 ⟨_, mem_range.2 (hashOf_lt _ _), (h.hashIff _ b).2 ⟨hb, rfl⟩⟩)

end Cache

end Hermes.L4.Bcache
