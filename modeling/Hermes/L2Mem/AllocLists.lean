import Hermes.L2Mem.AllocInv

/-!
# Objects on the bins' and the processors' lists

`bin_alloc` and `bin_free` only move objects from one list to another, or
to and from the caller: a `Move` writes to the links of the blocks it moves
and to nothing else.
-/
namespace Hermes.L2.Alloc

open Function List

/-- The blocks with callers and threads are as they were. -/
def Untouched (s : Sys) (L : Box → List Nat) (X : List Nat) (h' : Heap) : Prop :=
  ∀ τ, s.Holds L X τ → τ.1.Outside → ∀ x, span s.heap.mem τ x → h'.mem x = s.heap.mem x

structure Move (s : Sys) (L : Box → List Nat) (X : List Nat) (h' : Heap) (L' : Box → List Nat)
    (X' : List Nat) (used new : Tag → Prop) (changed : Box → Prop) : Prop where
  links : ∀ x, (∀ τ, s.Holds L X τ → used τ → x ≠ τ.2 + 8) → h'.mem x = s.heap.mem x
  pages : h'.held = s.heap.held
  inside : ∀ τ, used τ → ¬ τ.1.Outside
  keep : ∀ τ, ({ s with heap := h' } : Sys).Holds L' X' τ → new τ ∨ s.Holds L X τ ∧ ¬ used τ
  source : ∀ τ, new τ → ∃ σ, s.Holds L X σ ∧ used σ ∧ σ.2 = τ.2
  inj : ∀ τ σ, new τ → new σ → τ.2 = σ.2 → τ = σ
  same : ∀ x, ¬ changed x → L' x = L x ∧ ({ s with heap := h' } : Sys).head x = s.head x ∧ ∀ a ∈ L x, ¬ used (.box x, a)
  slab : ∀ t, ¬ changed (.slab t)
  caches : ∀ c b, ¬ changed (.cache c b) → h'.caches c b = s.heap.caches c b
  nodup : ∀ x, changed x → (L' x).Nodup
  chain : ∀ x, changed x → Chain (nextOf h'.mem) (({ s with heap := h' } : Sys).head x) (L' x)
  object : ∀ x n, changed x → x.objectSize s.pc = some n → ∀ a ∈ L' x, s.heap.mem a = n
  spaced : changed .free → Spaced s.heap.mem (L' .free)
  count : ∀ c b, changed (.cache c b) → (h'.caches c b).count = (L' (.cache c b)).length

variable {τ : Tag} {x : Nat}

namespace Move

variable {s : Sys} {L L' : Box → List Nat} {X X' : List Nat} {h' : Heap} {used new : Tag → Prop}
  {changed : Box → Prop}

section

variable (hm : Move s L X h' L' X' used new changed)
include hm

lemma mem_eq (h : Inv s L X) (hτ : s.Holds L X τ) (hu : ¬ used τ) (hx : span s.heap.mem τ x) :
    h'.mem x = s.heap.mem x := by
  refine hm.links x fun σ hσ hσu he => hu ?_
  subst he
  rwa [h.apart.eq hτ hσ hx (h.header_span hσ).2]

/-- No size is written. -/
lemma size_eq (h : Inv s L X) (hτ : s.Holds L X τ) : h'.mem τ.2 = s.heap.mem τ.2 := by
  refine hm.links _ fun σ hσ _ he => ?_
  have hspan := (h.header_span hτ).1
  rw [he] at hspan
  have := congrArg Prod.snd (h.apart.eq hτ hσ hspan (h.header_span hσ).2)
  omega

lemma span_new (h : Inv s L X) (hn : new τ) : ∃ σ, s.Holds L X σ ∧ used σ ∧ σ.2 = τ.2 ∧
      ∀ x, span h'.mem τ x ↔ span s.heap.mem σ x := by
  obtain ⟨σ, hσ, hu, he⟩ := hm.source τ hn
  refine ⟨σ, hσ, hu, he, fun x => ?_⟩
  have := hm.size_eq h hσ
  unfold span
  rw [← he, this]

/-- A block on a list after the move was a block before. -/
lemma was (hτ : ({ s with heap := h' } : Sys).Holds L' X' τ) : ∃ σ, s.Holds L X σ ∧ σ.2 = τ.2 := by
  rcases hm.keep τ hτ with hn | ⟨hk, -⟩
  · obtain ⟨σ, hσ, -, he⟩ := hm.source τ hn
    exact ⟨σ, hσ, he⟩
  · exact ⟨τ, hk, rfl⟩

lemma list_size (h : Inv s L X) {x : Box} {a : Nat} (ha : a ∈ L' x) : h'.mem a = s.heap.mem a := by
  obtain ⟨σ, hσ, he⟩ := hm.was (τ := (.box x, a)) ha
  have := hm.size_eq h hσ
  rwa [he] at this

lemma change (h : Inv s L X) : Change s L X h' L' X' used new changed where
  mem := fun τ hτ hu x hx => hm.mem_eq h hτ hu hx
  outside := fun τ hτ ho => h.sameHeader hτ fun x => hm.mem_eq h hτ fun hu => hm.inside τ hu ho
  __ := hm
  cover := fun τ hn x hx => by
    obtain ⟨σ, hσ, hu, -, hs⟩ := hm.span_new h hn
    exact .inl ⟨σ, hσ, hu, (hs x).1 hx⟩
  disj := fun τ τ' hn hn' hne x hx hx' => by
    obtain ⟨σ, hσ, -, he, hs⟩ := hm.span_new h hn
    obtain ⟨σ', hσ', -, he', hs'⟩ := hm.span_new h hn'
    have := h.apart.eq hσ hσ' ((hs x).1 hx) ((hs' x).1 hx')
    refine hne (hm.inj τ τ' hn hn' ?_)
    rw [← he, ← he', this]
  shape := fun τ hn => by
    obtain ⟨σ, hσ, -, he⟩ := hm.source τ hn
    have hs := h.shape σ hσ
    have hz := hm.size_eq h hσ
    rw [he] at hs hz
    exact hs.congr hz
  held := fun τ hn x hx => by
    obtain ⟨σ, hσ, -, -, hs⟩ := hm.span_new h hn
    rw [hm.pages]
    exact h.held σ hσ x ((hs x).1 hx)
  pages := fun τ hτ _ x hx => by
    rw [hm.pages]
    exact h.held τ hτ x hx
  object := fun x n hx hn a ha => (hm.list_size h ha).trans (hm.object x n hx hn a ha)
  spaced := fun hx => (hm.spaced hx).congr fun _ ha => hm.list_size h ha

lemma inv (h : Inv s L X) : Inv { s with heap := h' } L' X' := (hm.change h).inv h

lemma untouched (h : Inv s L X) :
    Untouched s L X h' := fun _ hτ ho _ hx => hm.mem_eq h hτ (fun hu => hm.inside _ hu ho) hx

end

end Move

section Ops

variable {s : Sys} {L : Box → List Nat} {c b a : Nat} {m : List Nat}

@[simp] lemma setNext_self (a v : Nat) (mem : Nat → Nat) : nextOf (setNext a v mem) a = v := by simp [nextOf, setNext]

lemma setNext_of_ne {a : Nat} (hx : x ≠ a + 8) (v : Nat) (mem : Nat → Nat) :
    setNext a v mem x = mem x := by simp [setNext, hx]

lemma nextOf_setNext {a d : Nat} (hd : d ≠ a) (v : Nat) (mem : Nat → Nat) :
    nextOf (setNext a v mem) d = nextOf mem d := setNext_of_ne (by omega) v mem

lemma setCache_caches (h : Heap) (c b : Nat) (v : CpuBin) (c' b' : Nat) :
    (h.setCache c b v).caches c' b' = if c' = c ∧ b' = b then v else h.caches c' b' := by
  by_cases hc : c' = c
  · subst hc
    by_cases hb : b' = b <;> simp [Heap.setCache, hb]
  · simp [Heap.setCache, hc]

/-- The objects of one size that are on the bin's list, on the list of one
processor, or in flight. -/
def pool (L : Box → List Nat) (X : List Nat) (c b : Nat) : List Nat := L (.cache c b) ++ L (.bin b) ++ X

/-- In the pool, by its tag. -/
def Pooled (L : Box → List Nat) (X : List Nat) (c b : Nat) : Tag → Prop
  | (.box x, a) => (x = .cache c b ∨ x = .bin b) ∧ a ∈ L x
  | (.flight, a) => a ∈ X
  | _ => False

/-- What `bin_alloc` and `bin_free` may do: divide the pool anew. -/
structure Redivide (s : Sys) (L : Box → List Nat) (X : List Nat) (c b : Nat) (h' : Heap)
    (L' : Box → List Nat) (X' : List Nat) : Prop where
  perm : (pool L' X' c b).Perm (pool L X c b)
  others : ∀ x, x ≠ .cache c b → x ≠ .bin b → L' x = L x
  flight : X.Nodup
  size : ∀ a ∈ X, s.heap.mem a = (b + 1) * 16
  links : ∀ x, (∀ a ∈ pool L X c b, x ≠ a + 8) → h'.mem x = s.heap.mem x
  pages : h'.held = s.heap.held
  firstFree : h'.firstFree = s.heap.firstFree
  bins : ∀ d, d ≠ b → h'.bins d = s.heap.bins d
  caches : ∀ e d, ¬ (e = c ∧ d = b) → h'.caches e d = s.heap.caches e d
  cacheChain : Chain (nextOf h'.mem) (h'.caches c b).head (L' (.cache c b))
  binChain : Chain (nextOf h'.mem) (h'.bins b) (L' (.bin b))
  count : (h'.caches c b).count = (L' (.cache c b)).length

variable {X X' : List Nat} {L' : Box → List Nat} {h' : Heap}

lemma Inv.pool_nodup (h : Inv s L X) (hX : X.Nodup) (c b : Nat) : (pool L X c b).Nodup := by
  have hne : ∀ {τ σ : Tag}, s.Holds L X τ → s.Holds L X σ → τ.1 ≠ σ.1 → τ.2 ≠ σ.2 :=
    fun hτ hσ hn he => hn (congrArg Prod.fst (h.eq_of_addr hτ hσ he))
  refine (((h.nodup _).append (h.nodup _)) ?_).append hX ?_
  · intro a h1 h2
    exact hne (τ := (.box _, a)) (σ := (.box _, a)) h1 h2 (by simp) rfl
  intro a h1 h2
  rcases mem_append.1 h1 with h1 | h1 <;> exact hne (τ := (.box _, a)) (σ := (.flight, a)) h1 h2 (by simp) rfl

lemma Pooled.elim (h : Pooled L X c b τ) :
    (∃ x a, (x = .cache c b ∨ x = .bin b) ∧ a ∈ L x ∧ τ = (.box x, a)) ∨ ∃ a ∈ X, τ = (.flight, a) := by
  obtain ⟨o, a⟩ := τ
  cases o with
  | box x => exact .inl ⟨x, a, h.1, h.2, rfl⟩
  | live | hand t => cases h
  | flight => exact .inr ⟨a, h, rfl⟩

lemma Pooled.holds (h : Pooled L X c b τ) : s.Holds L X τ := by
  rcases h.elim with ⟨x, a, -, ha, rfl⟩ | ⟨a, ha, rfl⟩ <;> exact ha

lemma Pooled.mem (h : Pooled L X c b τ) : τ.2 ∈ pool L X c b := by
  rcases h.elim with ⟨x, a, rfl | rfl, ha, rfl⟩ | ⟨a, ha, rfl⟩ <;> simp [pool, ha]

lemma exists_pooled (ha : a ∈ pool L X c b) : ∃ τ, Pooled L X c b τ ∧ τ.2 = a := by
  simp only [pool, mem_append] at ha
  rcases ha with (ha | ha) | ha
  · exact ⟨(.box (.cache c b), a), ⟨.inl rfl, ha⟩, rfl⟩
  · exact ⟨(.box (.bin b), a), ⟨.inr rfl, ha⟩, rfl⟩
  · exact ⟨(.flight, a), ha, rfl⟩

lemma Pooled.eq {σ : Tag} (hn : (pool L X c b).Nodup) (hτ : Pooled L X c b τ) (hσ : Pooled L X c b σ)
    (he : τ.2 = σ.2) : τ = σ := by
  simp only [pool, nodup_append, mem_append] at hn
  obtain ⟨⟨-, -, h1⟩, -, h2⟩ := hn
  rcases hτ.elim with ⟨x, a, hx, ha, rfl⟩ | ⟨a, ha, rfl⟩ <;>
    rcases hσ.elim with ⟨y, d, hy, hd, rfl⟩ | ⟨d, hd, rfl⟩ <;> obtain rfl : a = d := he
  · rcases hx with rfl | rfl <;> rcases hy with rfl | rfl
    · rfl
    · exact absurd rfl (h1 a ha a hd)
    · exact absurd rfl (h1 a hd a ha)
    · rfl
  · rcases hx with rfl | rfl
    · exact absurd rfl (h2 a (.inl ha) a hd)
    · exact absurd rfl (h2 a (.inr ha) a hd)
  · rcases hy with rfl | rfl
    · exact absurd rfl (h2 a (.inl hd) a ha)
    · exact absurd rfl (h2 a (.inr hd) a ha)
  · rfl

namespace Redivide

section

variable (hr : Redivide s L X c b h' L' X')
include hr

lemma mem_pool : a ∈ pool L' X' c b ↔ a ∈ pool L X c b :=
  hr.perm.mem_iff

lemma nodup (h : Inv s L X) : (pool L' X' c b).Nodup := hr.perm.nodup_iff.2 (h.pool_nodup hr.flight c b)

/-- All objects of the pool have the size of the bin. -/
lemma pool_size (h : Inv s L X) (ha : a ∈ pool L X c b) : s.heap.mem a = (b + 1) * 16 := by
  simp only [pool, mem_append] at ha
  rcases ha with (ha | ha) | ha
  · exact h.object (.cache c b) _ rfl a ha
  · exact h.object (.bin b) _ rfl a ha
  · exact hr.size a ha

lemma move (h : Inv s L X) :
    Move s L X h' L' X' (Pooled L X c b) (Pooled L' X' c b) (fun x => x = .cache c b ∨ x = .bin b) where
  links := fun x hx => hr.links x fun a ha => by
    obtain ⟨τ, hτ, rfl⟩ := exists_pooled ha
    exact hx τ hτ.holds hτ
  pages := hr.pages
  inside := by
    rintro ⟨o, d⟩ hu (rfl | ⟨t, rfl⟩) <;> exact hu
  keep := by
    rintro ⟨o, d⟩ hτ
    cases o with
    | box x =>
      by_cases hx : x = .cache c b ∨ x = .bin b
      · exact .inl ⟨hx, hτ⟩
      have he := hr.others x (fun he => hx (.inl he)) (fun he => hx (.inr he))
      exact .inr ⟨by simpa [Sys.Holds, he] using hτ, fun hp => hx hp.1⟩
    | live | hand t => exact .inr ⟨hτ, id⟩
    | flight => exact .inl hτ
  source := fun τ hτ => by
    obtain ⟨σ, hσ, he⟩ := exists_pooled (hr.mem_pool.1 hτ.mem)
    exact ⟨σ, hσ.holds, hσ, he⟩
  inj := fun τ σ hτ hσ he => hτ.eq (hr.nodup h) hσ he
  same := fun x hx => by
    obtain ⟨h1, h2⟩ := not_or.1 hx
    refine ⟨hr.others x h1 h2, ?_, fun a _ hp => hx hp.1⟩
    cases x with
    | free => exact hr.firstFree
    | bin d => exact hr.bins d fun he => h2 (he ▸ rfl)
    | cache e d =>
      show (h'.caches e d).head = _
      rw [hr.caches e d fun he => h1 (he.1 ▸ he.2 ▸ rfl)]
      rfl
    | slab t => rfl
  slab := by simp
  caches := fun e d hx => hr.caches e d fun he => hx (.inl (he.1 ▸ he.2 ▸ rfl))
  nodup := fun x hx => by
    have hn := hr.nodup h
    simp only [pool, nodup_append] at hn
    rcases hx with rfl | rfl
    · exact hn.1.1
    · exact hn.1.2.1
  chain := fun x hx => by
    rcases hx with rfl | rfl
    · exact hr.cacheChain
    · exact hr.binChain
  object := fun x n hx hn a ha => by
    have hp : a ∈ pool L X c b := hr.mem_pool.1 (Pooled.mem (τ := (.box x, a)) ⟨hx, ha⟩)
    rw [hr.pool_size h hp]
    rcases hx with rfl | rfl <;> exact Option.some.inj hn
  spaced := by simp
  count := fun e d hx => by
    obtain ⟨rfl, rfl⟩ : e = c ∧ d = b := by simpa using hx
    exact hr.count

end

end Redivide

/-! ## `bin_alloc` -/

/-- An object of the bin's size has been taken out for the caller. -/
structure Taken (s : Sys) (L : Box → List Nat) (h' : Heap) (L' : Box → List Nat) (a size : Nat) :
    Prop where
  inv : Inv { s with heap := h' } L' [a]
  untouched : Untouched s L [] h'
  tagged : Tagged h'.mem a
  size : size ≤ h'.mem a

lemma Move.taken {used new : Tag → Prop} {changed : Box → Prop} {size : Nat}
    (hm : Move s L [] h' L' [a] used new changed) (h : Inv s L []) (ht : nextOf h'.mem a = blockUsed)
    (hs : size ≤ s.heap.mem a) : Taken s L h' L' a size where
  inv := hm.inv h
  untouched := hm.untouched h
  tagged := .inl ht
  size := by
    obtain ⟨σ, hσ, he⟩ := hm.was (τ := (.flight, a)) (by simp [Sys.Holds])
    have := hm.size_eq h hσ
    rw [he] at this
    rwa [this]

lemma Inv.pop_cache (h : Inv s L []) (hl : L (.cache c b) = a :: m) :
    Redivide s L [] c b { s.heap.setCache c b ⟨nextOf s.heap.mem a, (s.heap.caches c b).count - 1⟩ with
        mem := setNext a blockUsed s.heap.mem } (update L (.cache c b) m) [a] where
  perm := by
    simp only [pool, update_self, ne_eq, reduceCtorEq, not_false_eq_true, update_of_ne, hl, append_nil]
    exact perm_append_singleton _ _
  others := fun x hx _ => by simp [hx]
  flight := nodup_nil
  size := by simp
  links := fun x hx => setNext_of_ne (hx a (by simp [pool, hl])) _ _
  pages := rfl
  firstFree := rfl
  bins := fun _ _ => rfl
  caches := fun e d hx => by simp [setCache_caches, hx]
  cacheChain := by
    have hc := h.chain (.cache c b)
    have hn := h.nodup (.cache c b)
    rw [hl, nodup_cons] at hn
    rw [hl] at hc
    simp only [setCache_caches, update_self]
    exact hc.2.2.congr fun d hd => nextOf_setNext (ne_of_mem_of_not_mem hd hn.1) _ _
  binChain := by
    have hn := h.pool_nodup nodup_nil c b
    simp only [pool, hl, append_nil, cons_append, nodup_cons, mem_append, not_or] at hn
    exact (h.chain (.bin b)).congr fun d hd => nextOf_setNext (ne_of_mem_of_not_mem hd hn.1.2) _ _
  count := by
    have := h.count c b
    simp only [setCache_caches]
    simp [this, hl]

variable {mem : Nat → Nat} {m1 m2 l : List Nat} {t p : Nat}

/-- The loop of `bin_refill_locked` stops at an object of the list. -/
lemma refillTail_spec (n taken : Nat) {tail : Nat} (hm : Chain (nextOf mem) (nextOf mem tail) m) :
    ∃ m1 m2 l, m = m1 ++ m2 ∧ tail :: m1 = l ++ [(refillTail mem n tail taken).1] ∧
      (refillTail mem n tail taken).2 = taken + m1.length ∧
      Chain (nextOf mem) (nextOf mem (refillTail mem n tail taken).1) m2 := by
  induction n generalizing tail taken m with
  | zero => exact ⟨[], m, [], rfl, rfl, rfl, hm⟩
  | succ n ih =>
    unfold refillTail
    split
    · rename_i hne
      obtain ⟨m', rfl, hm'⟩ := hm.cons_of_ne_zero hne
      obtain ⟨m1, m2, l, rfl, h2, h3, h4⟩ := ih (taken + 1) hm'
      refine ⟨nextOf mem tail :: m1, m2, tail :: l, rfl, by simp [h2], ?_, h4⟩
      rw [length_cons]
      omega
    · exact ⟨[], m, [], rfl, rfl, rfl, hm⟩

lemma Inv.refill (h : Inv s L []) (hl : L (.bin b) = a :: m) (hc : L (.cache c b) = [])
    (hm : m = m1 ++ m2) (ht : a :: m1 = l ++ [t]) (h2 : Chain (nextOf s.heap.mem) (nextOf s.heap.mem t) m2) :
    Redivide s L [] c b { { s.heap with
          mem := setNext t 0 s.heap.mem
          bins := update s.heap.bins b (nextOf s.heap.mem t) }.setCache c b
        ⟨nextOf (setNext t 0 s.heap.mem) a, m1.length⟩ with
        mem := setNext a blockUsed (setNext t 0 s.heap.mem) }
      (update (update L (.bin b) m2) (.cache c b) m1) [a] := by
  subst hm
  have hn := h.nodup (.bin b)
  rw [hl] at hn
  have hat : t ∈ a :: m1 := by simp [ht]
  obtain ⟨hn1, hn2, hn12⟩ := nodup_append.1 (show ((a :: m1) ++ m2).Nodup from hn)
  have hsplit : Seg (nextOf s.heap.mem) a (l ++ [t]) (nextOf s.heap.mem t) := by
    have hb := h.chain (.bin b)
    rw [hl, ← cons_append, ht] at hb
    obtain ⟨r, hs, -⟩ := seg_append.1 hb
    obtain ⟨h3, h4, _⟩ := seg_concat.1 hs
    have : s.head (.bin b) = a := by
      have := h.chain (.bin b)
      rw [hl] at this
      exact this.1
    rw [this] at h3
    exact seg_concat.2 ⟨h3, h4, rfl⟩
  have hmem : ∀ d ∈ m2, nextOf (setNext a blockUsed (setNext t 0 s.heap.mem)) d = nextOf s.heap.mem d := fun d hd => by
      rw [nextOf_setNext (fun he => hn12 a (by simp) d hd he.symm), nextOf_setNext (fun he => hn12 t hat d hd he.symm)]
  exact
  { perm := by
      simp only [pool, update_self, ne_eq, reduceCtorEq, not_false_eq_true, update_of_ne, hl, hc, append_nil]
      exact perm_append_singleton _ _
    others := fun x hx hx' => by simp [hx, hx']
    flight := nodup_nil
    size := by simp
    links := fun x hx => by
      have hta : t ∈ pool L [] c b := by
        simp only [pool, hl, ← cons_append, mem_append]
        exact .inl (.inr (.inl hat))
      show setNext a blockUsed (setNext t 0 s.heap.mem) x = _
      rw [setNext_of_ne (hx a (by simp [pool, hl])), setNext_of_ne (hx t hta)]
    pages := rfl
    firstFree := rfl
    bins := fun d hd => by simp [Heap.setCache, hd]
    caches := fun e d hx => by simp [setCache_caches, hx]
    cacheChain := by
      have hcut : Seg (nextOf (setNext t 0 s.heap.mem)) a (a :: m1) 0 := by
        rw [ht] at hn1 ⊢
        refine hsplit.setLast (fun d hd => nextOf_setNext ?_ _ _) (setNext_self t 0 _)
        rintro rfl
        exact (nodup_append.1 hn1).2.2 d hd d (by simp) rfl
      simp only [setCache_caches, update_self]
      exact hcut.2.2.congr fun d hd => nextOf_setNext (ne_of_mem_of_not_mem hd (nodup_cons.1 hn1).1) _ _
    binChain := by
      simp only [Heap.setCache, update_self, ne_eq, reduceCtorEq, not_false_eq_true, update_of_ne]
      exact h2.congr hmem
    count := by simp [setCache_caches] }

/-- `bin_alloc` in one section: nothing, or an object of the bin. -/
lemma binPop_spec (h : Inv s L []) (b c : Nat) : (binPop b c s.heap = (0, s.heap)) ∨
      ∃ a L', (binPop b c s.heap).1 = a + 16 ∧ Taken s L (binPop b c s.heap).2 L' a ((b + 1) * 16) := by
  have hcc : Chain _ (s.heap.caches c b).head _ := h.chain (.cache c b)
  have hbc : Chain _ (s.heap.bins b) _ := h.chain (.bin b)
  by_cases hc : (s.heap.caches c b).head = 0
  · have hnil : L (.cache c b) = [] := Chain.nil_of_zero (hc ▸ hcc)
    by_cases hb : s.heap.bins b = 0
    · simp [binPop, hc, binRefillLocked, hb]
    right
    obtain ⟨m, hl, hm⟩ := hbc.cons_of_ne_zero hb
    obtain ⟨m1, m2, l, h1, h2, h3, h4⟩ := refillTail_spec (cacheBatch - 1) 1 hm
    have hr := h.refill hl hnil h1 h2 h4
    refine ⟨s.heap.bins b, update (update L (.bin b) m2) (.cache c b) m1, ?_, ?_⟩
    · simp [binPop, hc, binRefillLocked, hb]
    have hk : (refillTail s.heap.mem (cacheBatch - 1) (s.heap.bins b) 1).2 - 1 = m1.length := by omega
    simp only [binPop, hc, binRefillLocked, hb, ne_eq, not_true_eq_false, if_false, hk]
    refine (hr.move h).taken h (setNext_self _ _ _) ?_
    exact le_of_eq (h.object (.bin b) _ rfl (s.heap.bins b) (by simp [hl])).symm
  · right
    obtain ⟨m, hl, -⟩ := hcc.cons_of_ne_zero hc
    have hr := h.pop_cache hl
    refine ⟨(s.heap.caches c b).head, update L (.cache c b) m, ?_, ?_⟩
    · simp [binPop, hc]
    simp only [binPop, ne_eq, hc, not_false_eq_true, if_true]
    refine (hr.move h).taken h (setNext_self _ _ _) ?_
    exact le_of_eq (h.object (.cache c b) _ rfl (s.heap.caches c b).head (by simp [hl])).symm

/-! ## `bin_free` and `bin_add_slab` -/

/-- The beginning of `bin_free`: the object goes to the front of the
processor's list. -/
def pushCache (c b a : Nat) (h : Heap) : Heap :=
  { h with mem := setNext a (h.caches c b).head h.mem }.setCache c b ⟨a, (h.caches c b).count + 1⟩

/-- The rest of `bin_free`: the front of the processor's list, `n` objects up
to `t`, goes to the front of the bin's. -/
def flushCache (c b t n : Nat) (h : Heap) : Heap := { h with
    mem := setNext t (h.bins b) h.mem
    bins := update h.bins b (h.caches c b).head }.setCache c b ⟨nextOf h.mem t, (h.caches c b).count - n⟩

lemma binFree_eq (a c : Nat) (h : Heap) {b : Nat} (hb : b = h.mem a / 16 - 1) : binFree a c h =
      if cacheMax ≤ (h.caches c b).count + 1 then
        flushCache c b (batchTail (pushCache c b a h).mem (cacheBatch - 1) a) cacheBatch (pushCache c b a h)
      else pushCache c b a h := by
  subst hb
  by_cases hc : cacheMax ≤ (h.caches c (h.mem a / 16 - 1)).count + 1
  · simp only [binFree]
    simp [flushCache, pushCache, Heap.setCache]
  · simp only [binFree, hc, if_false, pushCache]

lemma Inv.push_cache (h : Inv s L [a]) (hs : s.heap.mem a = (b + 1) * 16) :
    Redivide s L [a] c b (pushCache c b a s.heap) (update L (.cache c b) (a :: L (.cache c b))) [] := by
  have hn := h.pool_nodup (nodup_singleton a) c b
  simp only [pool, nodup_append, mem_append, mem_singleton] at hn
  have hne : ∀ d, d ∈ L (.cache c b) ∨ d ∈ L (.bin b) → d ≠ a := fun d hd => hn.2.2 d hd a rfl
  have hlink : ∀ v d, d ∈ L (.cache c b) ∨ d ∈ L (.bin b) →
      nextOf (setNext a v s.heap.mem) d = nextOf s.heap.mem d := fun v d hd => nextOf_setNext (hne d hd) v _
  exact
  { perm := by
      simp only [pool, update_self, ne_eq, reduceCtorEq, not_false_eq_true, update_of_ne, append_nil]
      exact (perm_append_singleton _ _).symm
    others := fun x hx _ => by simp [hx]
    flight := nodup_singleton a
    size := by simpa using hs
    links := fun x hx => setNext_of_ne (hx a (by simp [pool])) _ _
    pages := rfl
    firstFree := rfl
    bins := fun _ _ => rfl
    caches := fun e d hx => by simp [pushCache, setCache_caches, hx]
    cacheChain := by
      have hc : Chain _ (s.heap.caches c b).head _ :=
        (h.chain (.cache c b)).congr fun d hd => hlink (s.heap.caches c b).head d (.inl hd)
      simp only [pushCache, setCache_caches, update_self]
      refine chain_cons.2 ⟨rfl, (h.shape (.flight, a) (by simp [Sys.Holds])).pos, ?_⟩
      simpa [Heap.setCache] using hc
    binChain := by exact (h.chain (.bin b)).congr fun d hd => hlink _ d (.inr hd)
    count := by simp [pushCache, setCache_caches, h.count c b] }

/-- The loop of `bin_free` stops at the object `n` links behind. -/
lemma batchTail_spec (n : Nat) (hl : Chain (nextOf mem) p l) (hn : n < l.length) :
    ∃ m1 m2, l = m1 ++ [batchTail mem n p] ++ m2 ∧ m1.length = n := by
  induction n generalizing p l with
  | zero =>
    cases l with
    | nil => simp at hn
    | cons d l => exact ⟨[], l, by simp [batchTail, hl.1], rfl⟩
  | succ n ih =>
    cases l with
    | nil => simp at hn
    | cons d l =>
      obtain ⟨rfl, -, hl'⟩ := hl
      obtain ⟨m1, m2, h1, h2⟩ := ih hl' (by simpa using hn)
      exact ⟨p :: m1, m2, by rw [batchTail, cons_append, cons_append, ← h1], by simp [h2]⟩

/-- The front of a processor's list goes to the front of the bin's. -/
lemma Inv.flush (h : Inv s L []) (hl : L (.cache c b) = m1 ++ [t] ++ m2) :
    Redivide s L [] c b (flushCache c b t (m1.length + 1) s.heap)
      (update (update L (.cache c b) m2) (.bin b) (m1 ++ [t] ++ L (.bin b))) [] := by
  have hn := h.pool_nodup nodup_nil c b
  simp only [pool, hl, append_nil, nodup_append, mem_append, mem_singleton] at hn
  have hcc := h.chain (.cache c b)
  rw [hl] at hcc
  obtain ⟨r, hc1, hc2⟩ := seg_append.1 hcc
  have hr : nextOf s.heap.mem t = r := (seg_concat.1 hc1).2.2
  have hlink : ∀ d, d ≠ t → nextOf (setNext t (s.heap.bins b) s.heap.mem) d = nextOf s.heap.mem d :=
    fun d hd => nextOf_setNext hd _ _
  exact
  { perm := by
      simp only [pool, update_self, ne_eq, reduceCtorEq, not_false_eq_true, update_of_ne, hl, append_nil]
      rw [← append_assoc m2]
      exact perm_append_comm.append_right _
    others := fun x hx hx' => by simp [hx, hx']
    flight := nodup_nil
    size := by simp
    links := fun x hx => setNext_of_ne (hx t (by simp [pool, hl])) _ _
    pages := rfl
    firstFree := rfl
    bins := fun d hd => by simp [flushCache, Heap.setCache, hd]
    caches := fun e d hx => by simp [flushCache, setCache_caches, hx]
    cacheChain := by
      simp only [flushCache, setCache_caches, and_self, if_true, ne_eq, reduceCtorEq, not_false_eq_true,
        update_of_ne, update_self, hr]
      exact hc2.congr fun d hd => hlink d fun he => hn.1.2.2 t (.inr rfl) d hd he.symm
    binChain := by
      simp only [flushCache, Heap.setCache, update_self]
      exact hc1.splice (h.chain (.bin b)) (fun d hd => hlink d (hn.1.1.2.2 d hd t rfl))
        (fun d hd => hlink d fun he => hn.2.2 t (.inl (.inr rfl)) d hd he.symm) (setNext_self _ _ _)
    count := by
      have := h.count c b
      rw [hl] at this
      simp [flushCache, setCache_caches, this]
      omega }

/-- A slab's objects go to the front of the bin's list. -/
lemma Inv.push_slab (h : Inv s L (l ++ [t])) (hc : Chain (nextOf s.heap.mem) p (l ++ [t]))
    (hX : (l ++ [t]).Nodup) (hs : ∀ d ∈ l ++ [t], s.heap.mem d = (b + 1) * 16) :
    Redivide s L (l ++ [t]) c b (pushSlab b p t s.heap) (update L (.bin b) (l ++ [t] ++ L (.bin b))) [] := by
  have hn := h.pool_nodup hX c b
  simp only [pool, nodup_append, mem_append, mem_singleton] at hn
  have hlink : ∀ d, d ≠ t → nextOf (setNext t (s.heap.bins b) s.heap.mem) d = nextOf s.heap.mem d :=
    fun d hd => nextOf_setNext hd _ _
  exact
  { perm := by
      simp only [pool, update_self, ne_eq, reduceCtorEq, not_false_eq_true, update_of_ne, append_nil]
      rw [append_assoc (L (.cache c b))]
      exact perm_append_comm.append_left _
    others := fun x _ hx' => by simp [hx']
    flight := hX
    size := hs
    links := fun x hx => setNext_of_ne (hx t (by simp [pool])) _ _
    pages := rfl
    firstFree := rfl
    bins := fun d hd => by simp [pushSlab, hd]
    caches := fun _ _ _ => rfl
    cacheChain := by exact (h.chain (.cache c b)).congr fun d hd => hlink d (hn.2.2 d (.inl hd) t (.inr rfl))
    binChain := by
      simp only [pushSlab, update_self]
      exact hc.splice (h.chain (.bin b)) (fun d hd => hlink d (hn.2.1.2.2 d hd t rfl))
        (fun d hd => hlink d (hn.2.2 d (.inr hd) t (.inr rfl))) (setNext_self _ _ _)
    count := by exact h.count c b }

/-- A block has been given back. -/
def GivenBack (s : Sys) (L : Box → List Nat) (X : List Nat) (h' : Heap) : Prop :=
  (∃ L', Inv { s with heap := h' } L' []) ∧ Untouched s L X h'

lemma Untouched.trans {h'' : Heap} (hi : Inv s L X) (h1 : Untouched s L X h')
    (h2 : Untouched { s with heap := h' } L' X' h'') : Untouched s L X h'' := by
  intro τ hτ ho x hx
  have hτ' : ({ s with heap := h' } : Sys).Holds L' X' τ := by
    obtain ⟨o, d⟩ := τ
    rcases ho with rfl | ⟨t, rfl⟩ <;> exact hτ
  have hz : h'.mem τ.2 = s.heap.mem τ.2 := h1 τ hτ ho _ (hi.header_span hτ).1
  have hx' : span h'.mem τ x := by
    unfold span
    rwa [hz]
  exact (h2 τ hτ' ho x hx').trans (h1 τ hτ ho x hx)

/-- `bin_free` -/
lemma binFree_spec (h : Inv s L [a]) (c : Nat) (hs : 16 ≤ s.heap.mem a) (h16 : s.heap.mem a % 16 = 0) :
    GivenBack s L [a] (binFree a c s.heap) := by
  set b := s.heap.mem a / 16 - 1 with hb
  have hsize : s.heap.mem a = (b + 1) * 16 := by omega
  have hpush := h.push_cache (c := c) hsize
  have hinv := (hpush.move h).inv h
  have hun := (hpush.move h).untouched h
  rw [binFree_eq a c s.heap hb]
  by_cases hc : cacheMax ≤ (s.heap.caches c b).count + 1
  swap
  · rw [if_neg hc]
    exact ⟨⟨_, hinv⟩, hun⟩
  have hcc := hinv.chain (.cache c b)
  have hlen : cacheBatch - 1 < (a :: L (.cache c b)).length := by
    rw [length_cons, ← h.count c b]
    have : 32 ≤ (s.heap.caches c b).count + 1 := hc
    show 15 < _
    omega
  rw [update_self] at hcc
  have hhead : ({ s with heap := pushCache c b a s.heap } : Sys).head (.cache c b) = a := hcc.1
  rw [hhead] at hcc
  obtain ⟨m1, m2, h1, h2⟩ := batchTail_spec (cacheBatch - 1) hcc hlen
  have hflush := hinv.flush (by rw [update_self]; exact h1)
  rw [h2] at hflush
  rw [if_pos hc]
  exact ⟨⟨_, (hflush.move hinv).inv hinv⟩, hun.trans h ((hflush.move hinv).untouched hinv)⟩

end Ops

end Hermes.L2.Alloc
