import Hermes.Core.Apart
import Hermes.Core.Chain
import Hermes.L2Mem.Alloc

/-!
# Who owns which block

Every block is on one of the allocator's lists, in a caller's hand, or in
the hand of the thread that works on it. `Inv` says that the blocks with
their headers do not overlap, that each list is the chain of its blocks,
and what holds of the blocks of each kind.
-/
namespace Hermes.L2.Alloc

/-- The lists that link blocks through their headers. -/
inductive Box
  | free
  | bin (b : Nat)
  | cache (cpu b : Nat)
  | slab (t : Nat)
deriving DecidableEq

/-- `flight`: between the two halves of a step. -/
inductive Owner
  | box (x : Box)
  | live
  | hand (t : Nat)
  | flight
deriving DecidableEq

/-- A block, by who has it and where it is. -/
abbrev Tag := Owner × Nat

/-- The addresses of a block with its header. -/
def span (mem : Nat → Nat) (τ : Tag) (x : Nat) : Prop := τ.2 ≤ x ∧ x < τ.2 + 16 + mem τ.2

/-- The block that `realloc` works on. -/
def Job.hand : Job → List Nat
  | .malloc _ => []
  | .realloc ptr _ _ => [ptr - 16]

def Pc.hand : Pc → List Nat
  | .idle => []
  | .bin j | .slab j | .push j _ _ | .large j | .take j | .grow j _ => j.hand
  | .chunk j block => block :: j.hand
  | .free ptr none => [ptr - 16]
  | .free ptr (some (new, _)) => [ptr - 16, new - 16]

/-- The first object of the slab that a thread has built. -/
def Pc.slabHead : Pc → Nat
  | .push _ head _ => head
  | _ => 0

def Pc.slabSize : Pc → Option Nat
  | .push j _ _ => some j.aligned
  | _ => none

/-- Where a list begins. -/
def Sys.head (s : Sys) : Box → Nat
  | .free => s.heap.firstFree
  | .bin b => s.heap.bins b
  | .cache c b => (s.heap.caches c b).head
  | .slab t => (s.pc t).slabHead

/-- The blocks there are: those of the lists `L`, of the callers, of the
threads, and `X` in flight. -/
def Sys.Holds (s : Sys) (L : Box → List Nat) (X : List Nat) : Tag → Prop
  | (.box x, a) => a ∈ L x
  | (.live, a) => ∃ n, (a + 16, n) ∈ s.live
  | (.hand t, a) => a ∈ (s.pc t).hand
  | (.flight, a) => a ∈ X

structure Shape (mem : Nat → Nat) (a : Nat) : Prop where
  pos : a ≠ 0
  aligned : a % 16 = 0
  size : mem a % 16 = 0
  min : 16 ≤ mem a

/-- Handed out: marked in use, or a large block of whole pages. -/
def Tagged (mem : Nat → Nat) (a : Nat) : Prop := nextOf mem a = blockUsed ∨
    nextOf mem a = blockLarge ∧ a % 4096 = 0 ∧ (mem a + 16) % 4096 = 0

/-- A pointer handed out for `n` bytes. -/
structure Given (mem : Nat → Nat) (ptr n : Nat) : Prop where
  header : 16 ≤ ptr
  size : n ≤ mem (ptr - 16)
  tagged : Tagged mem (ptr - 16)

/-- The size of the objects on a list that holds objects of one size. -/
def Box.objectSize (pc : Nat → Pc) : Box → Option Nat
  | .free => none
  | .bin b | .cache _ b => some ((b + 1) * 16)
  | .slab t => (pc t).slabSize

/-- In address order, with a gap after each block. -/
def Spaced (mem : Nat → Nat) (l : List Nat) : Prop := l.Pairwise fun a b => a + 16 + mem a < b

structure JobOk (mem : Nat → Nat) (j : Job) : Prop where
  pos : 0 < j.size
  bound : j.size ≤ 2 ^ 40
  old : ∀ ptr old size, j = .realloc ptr old size → Given mem ptr old ∧ mem (ptr - 16) < size

def PcOk (mem : Nat → Nat) (slab : List Nat) : Pc → Prop
  | .idle => slab = []
  | .bin j | .slab j => slab = [] ∧ JobOk mem j ∧ j.aligned ≤ binMax
  | .push j _ tail => JobOk mem j ∧ j.aligned ≤ binMax ∧ ∃ l, slab = l ++ [tail]
  | .large j | .take j | .grow j _ => slab = [] ∧ JobOk mem j
  | .chunk j block => slab = [] ∧ JobOk mem j ∧ block ∉ j.hand
  | .free ptr ret => slab = [] ∧ 16 ≤ ptr ∧ Tagged mem (ptr - 16) ∧
      ∀ new n, ret = some (new, n) → Given mem new n ∧ new ≠ ptr ∧ mem (ptr - 16) < n

structure Inv (s : Sys) (L : Box → List Nat) (X : List Nat) : Prop where
  apart : Apart (s.Holds L X) (span s.heap.mem)
  shape : ∀ τ, s.Holds L X τ → Shape s.heap.mem τ.2
  held : ∀ τ, s.Holds L X τ → ∀ x, span s.heap.mem τ x → s.heap.held (x / 4096) = true
  nodup : ∀ x, (L x).Nodup
  chain : ∀ x, Chain (nextOf s.heap.mem) (s.head x) (L x)
  object : ∀ x n, x.objectSize s.pc = some n → ∀ a ∈ L x, s.heap.mem a = n
  spaced : Spaced s.heap.mem (L .free)
  count : ∀ c b, (s.heap.caches c b).count = (L (.cache c b)).length
  given : ∀ p n, (p, n) ∈ s.live → Given s.heap.mem p n
  distinct : (s.live.map Prod.fst).Nodup
  pc : ∀ t, PcOk s.heap.mem (L (.slab t)) (s.pc t)

namespace Inv

variable {s : Sys} {L : Box → List Nat} {X : List Nat}

/-- A header's cells belong to its block. -/
lemma header_span (h : Inv s L X) {τ : Tag} (hτ : s.Holds L X τ) :
    span s.heap.mem τ τ.2 ∧ span s.heap.mem τ (τ.2 + 8) := by
  have := (h.shape τ hτ).min
  unfold span
  omega

/-- Two blocks at one address are one. -/
lemma eq_of_addr (h : Inv s L X) {τ σ : Tag} (hτ : s.Holds L X τ) (hσ : s.Holds L X σ) (he : τ.2 = σ.2) : τ = σ := by
  refine h.apart.eq hτ hσ (h.header_span hτ).1 ?_
  rw [he]
  exact (h.header_span hσ).1

end Inv

/-! ## Frames -/

/-- Both words of the header are as they were. -/
def SameHeader (mem mem' : Nat → Nat) (a : Nat) : Prop := mem' a = mem a ∧ mem' (a + 8) = mem (a + 8)

lemma Inv.sameHeader {s : Sys} {L : Box → List Nat} {X : List Nat} (h : Inv s L X) {τ : Tag} (hτ : s.Holds L X τ)
    {mem' : Nat → Nat} (hm : ∀ x, span s.heap.mem τ x → mem' x = s.heap.mem x) : SameHeader s.heap.mem mem' τ.2 :=
  ⟨hm _ (h.header_span hτ).1, hm _ (h.header_span hτ).2⟩

section Frame

variable {mem mem' : Nat → Nat} {a : Nat}

lemma Shape.congr (hs : Shape mem a) (h : mem' a = mem a) : Shape mem' a :=
  ⟨hs.pos, hs.aligned, h ▸ hs.size, h ▸ hs.min⟩

lemma SameHeader.shape (h : SameHeader mem mem' a) (hs : Shape mem a) : Shape mem' a := hs.congr h.1

lemma SameHeader.tagged (h : SameHeader mem mem' a) (ht : Tagged mem a) : Tagged mem' a := by
  unfold Tagged nextOf
  rw [h.1, h.2]
  exact ht

lemma SameHeader.given {ptr n : Nat} (h : SameHeader mem mem' (ptr - 16)) (hg : Given mem ptr n) : Given mem' ptr n :=
  ⟨hg.header, h.1 ▸ hg.size, h.tagged hg.tagged⟩

lemma JobOk.frame {j : Job} (hj : JobOk mem j) (h : ∀ a ∈ j.hand, SameHeader mem mem' a) : JobOk mem' j where
  __ := hj
  old := by
    rintro ptr old size rfl
    have hk := h (ptr - 16) (by simp [Job.hand])
    obtain ⟨hg, hlt⟩ := hj.old ptr old size rfl
    exact ⟨hk.given hg, hk.1 ▸ hlt⟩

lemma PcOk.frame {pc : Pc} {slab : List Nat} (hp : PcOk mem slab pc)
    (h : ∀ a ∈ pc.hand, SameHeader mem mem' a) : PcOk mem' slab pc := by
  cases pc with
  | idle => exact hp
  | bin j | slab j => exact ⟨hp.1, hp.2.1.frame h, hp.2.2⟩
  | push j head tail => exact ⟨hp.1.frame h, hp.2⟩
  | large j | take j | grow j again => exact ⟨hp.1, hp.2.frame h⟩
  | chunk j block =>
    exact ⟨hp.1, hp.2.1.frame fun a ha => h a (by simp [Pc.hand, ha]), hp.2.2⟩
  | free ptr ret =>
    obtain ⟨h1, h2, h3, h4⟩ := hp
    have hptr : SameHeader mem mem' (ptr - 16) := h _ (by rcases ret with _ | ⟨new, n⟩ <;> simp [Pc.hand])
    refine ⟨h1, h2, hptr.tagged h3, fun new n he => ?_⟩
    subst he
    obtain ⟨hg, hne, hlt⟩ := h4 new n rfl
    exact ⟨(h (new - 16) (by simp [Pc.hand])).given hg, hne, hptr.1 ▸ hlt⟩

end Frame

/-! ## Changes of the heap

What an operation on the heap has to show: which blocks it uses up, which
it makes, and which lists it changes. The rest is as it was. -/

/-- With a thread or with a caller. -/
def Owner.Outside (o : Owner) : Prop := o = .live ∨ ∃ t, o = .hand t

structure Change (s : Sys) (L : Box → List Nat) (X : List Nat) (h' : Heap) (L' : Box → List Nat)
    (X' : List Nat) (used new : Tag → Prop) (changed : Box → Prop) : Prop where
  mem : ∀ τ, s.Holds L X τ → ¬ used τ → ∀ x, span s.heap.mem τ x → h'.mem x = s.heap.mem x
  outside : ∀ τ, s.Holds L X τ → τ.1.Outside → SameHeader s.heap.mem h'.mem τ.2
  keep : ∀ τ, ({ s with heap := h' } : Sys).Holds L' X' τ → new τ ∨ s.Holds L X τ ∧ ¬ used τ
  cover : ∀ τ, new τ → ∀ x, span h'.mem τ x →
    (∃ σ, s.Holds L X σ ∧ used σ ∧ span s.heap.mem σ x) ∨ s.heap.held (x / 4096) = false
  disj : ∀ τ σ, new τ → new σ → τ ≠ σ → ∀ x, span h'.mem τ x → ¬ span h'.mem σ x
  shape : ∀ τ, new τ → Shape h'.mem τ.2
  held : ∀ τ, new τ → ∀ x, span h'.mem τ x → h'.held (x / 4096) = true
  pages : ∀ τ, s.Holds L X τ → ¬ used τ → ∀ x, span s.heap.mem τ x → h'.held (x / 4096) = true
  same : ∀ x, ¬ changed x → L' x = L x ∧ ({ s with heap := h' } : Sys).head x = s.head x ∧ ∀ a ∈ L x, ¬ used (.box x, a)
  slab : ∀ t, ¬ changed (.slab t)
  caches : ∀ c b, ¬ changed (.cache c b) → h'.caches c b = s.heap.caches c b
  nodup : ∀ x, changed x → (L' x).Nodup
  chain : ∀ x, changed x → Chain (nextOf h'.mem) (({ s with heap := h' } : Sys).head x) (L' x)
  object : ∀ x n, changed x → x.objectSize s.pc = some n → ∀ a ∈ L' x, h'.mem a = n
  spaced : changed .free → Spaced h'.mem (L' .free)
  count : ∀ c b, changed (.cache c b) → (h'.caches c b).count = (L' (.cache c b)).length

lemma Spaced.congr {mem mem' : Nat → Nat} {l : List Nat} (h : Spaced mem l)
    (he : ∀ a ∈ l, mem' a = mem a) : Spaced mem' l :=
  List.Pairwise.imp_of_mem (fun {a b} ha _ hab => by rw [he a ha]; exact hab) h

namespace Change

variable {s : Sys} {L L' : Box → List Nat} {X X' : List Nat} {h' : Heap} {used new : Tag → Prop}
  {changed : Box → Prop}

section

variable (hc : Change s L X h' L' X' used new changed)
include hc

lemma sameHeader (h : Inv s L X) {τ : Tag} (hτ : s.Holds L X τ) (hu : ¬ used τ) : SameHeader s.heap.mem h'.mem τ.2 :=
  h.sameHeader hτ (hc.mem τ hτ hu)

lemma span_iff (h : Inv s L X) {τ : Tag}
    (hτ : s.Holds L X τ) (hu : ¬ used τ) (x : Nat) : span h'.mem τ x ↔ span s.heap.mem τ x := by
  unfold span
  rw [(hc.sameHeader h hτ hu).1]

lemma apart (h : Inv s L X) : Apart (({ s with heap := h' } : Sys).Holds L' X') (span h'.mem) := by
  refine h.apart.update used new (fun τ hτ => ?_) (fun τ hτ x hx => ?_) hc.disj
  · rcases hc.keep τ hτ with hn | ⟨hk, hu⟩
    · exact .inl hn
    · exact .inr ⟨hk, hu, fun x hx => (hc.span_iff h hk hu x).1 hx⟩
  rcases hc.cover τ hτ x hx with hu | hfree
  · exact .inl hu
  refine .inr fun σ hσ _ hx' => ?_
  rw [h.held σ hσ x hx'] at hfree
  cases hfree

/-- An operation that shows the above keeps the invariant. -/
lemma inv (h : Inv s L X) : Inv { s with heap := h' } L' X' where
  apart := hc.apart h
  shape := fun τ hτ => by
    rcases hc.keep τ hτ with hn | ⟨hk, hu⟩
    · exact hc.shape τ hn
    · exact (hc.sameHeader h hk hu).shape (h.shape τ hk)
  held := fun τ hτ x hx => by
    rcases hc.keep τ hτ with hn | ⟨hk, hu⟩
    · exact hc.held τ hn x hx
    · exact hc.pages τ hk hu x ((hc.span_iff h hk hu x).1 hx)
  nodup := fun x => by
    by_cases hx : changed x
    · exact hc.nodup x hx
    rw [(hc.same x hx).1]
    exact h.nodup x
  chain := fun x => by
    by_cases hx : changed x
    · exact hc.chain x hx
    obtain ⟨h1, h2, h3⟩ := hc.same x hx
    rw [h1, h2]
    exact (h.chain x).congr fun a ha => (hc.sameHeader (τ := (.box x, a)) h ha (h3 a ha)).2
  object := fun x n hn a ha => by
    by_cases hx : changed x
    · exact hc.object x n hx hn a ha
    obtain ⟨h1, -, h3⟩ := hc.same x hx
    rw [h1] at ha
    exact (hc.sameHeader (τ := (.box x, a)) h ha (h3 a ha)).1.trans (h.object x n hn a ha)
  spaced := by
    by_cases hx : changed .free
    · exact hc.spaced hx
    obtain ⟨h1, -, h3⟩ := hc.same _ hx
    rw [h1]
    exact h.spaced.congr fun a ha => (hc.sameHeader (τ := (.box .free, a)) h ha (h3 a ha)).1
  count := fun c b => by
    by_cases hx : changed (.cache c b)
    · exact hc.count c b hx
    rw [(hc.same _ hx).1, hc.caches c b hx]
    exact h.count c b
  given := fun p n hp => by
    have hg := h.given p n hp
    have hτ : s.Holds L X (.live, p - 16) := ⟨n, by rwa [Nat.sub_add_cancel hg.header]⟩
    exact (hc.outside _ hτ (.inl rfl)).given hg
  distinct := h.distinct
  pc := fun t => by
    rw [(hc.same _ (hc.slab t)).1]
    exact (h.pc t).frame fun a ha => hc.outside (.hand t, a) ha (.inr ⟨t, rfl⟩)

end

end Change

end Hermes.L2.Alloc
