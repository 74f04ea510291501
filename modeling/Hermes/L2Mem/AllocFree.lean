import Hermes.L2Mem.AllocLists

/-!
# The free list

`heap_take` cuts a block off the free list and `insert_free_locked` puts one
back, joined with its neighbours where they touch. Both write to the headers
of free blocks and of the block taken or given, and to nothing else.
-/
namespace Hermes.L2.Alloc

open Function List

/-- On the free list, or in flight. -/
def Unused (L : Box → List Nat) (X : List Nat) : Tag → Prop
  | (.box x, a) => x = .free ∧ a ∈ L x
  | (.flight, a) => a ∈ X
  | _ => False

/-- What `heap_take` and `insert_free_locked` may do. -/
structure Refree (s : Sys) (L : Box → List Nat) (X : List Nat) (h' : Heap) (L' : Box → List Nat)
    (X' : List Nat) : Prop where
  others : ∀ x, x ≠ .free → L' x = L x
  pages : h'.held = s.heap.held
  bins : h'.bins = s.heap.bins
  caches : h'.caches = s.heap.caches
  mem : ∀ x, (∀ a ∈ L .free ++ X, ¬ (a ≤ x ∧ x < a + 16 + s.heap.mem a)) → h'.mem x = s.heap.mem x
  shape : ∀ a ∈ L' .free ++ X', Shape h'.mem a
  cover : ∀ a ∈ L' .free ++ X', ∀ x, a ≤ x → x < a + 16 + h'.mem a →
    ∃ d ∈ L .free ++ X, d ≤ x ∧ x < d + 16 + s.heap.mem d
  flight : ∀ a ∈ X', ∀ d ∈ L' .free, a + 16 + h'.mem a ≤ d ∨ d + 16 + h'.mem d ≤ a
  single : ∀ a ∈ X', ∀ d ∈ X', a = d
  chain : Chain (nextOf h'.mem) h'.firstFree (L' .free)
  spaced : Spaced h'.mem (L' .free)

section

variable {s : Sys} {L L' : Box → List Nat} {X X' : List Nat} {h' : Heap} {τ : Tag}

lemma Unused.elim (h : Unused L X τ) : (∃ a ∈ L .free, τ = (.box .free, a)) ∨ ∃ a ∈ X, τ = (.flight, a) := by
  obtain ⟨o, a⟩ := τ
  cases o with
  | box x =>
    obtain ⟨rfl, ha⟩ := h
    exact .inl ⟨a, ha, rfl⟩
  | live | hand t => cases h
  | flight => exact .inr ⟨a, h, rfl⟩

lemma Unused.holds (h : Unused L X τ) : s.Holds L X τ := by
  rcases h.elim with ⟨a, ha, rfl⟩ | ⟨a, ha, rfl⟩ <;> exact ha

lemma Unused.mem (h : Unused L X τ) : τ.2 ∈ L .free ++ X := by
  rcases h.elim with ⟨a, ha, rfl⟩ | ⟨a, ha, rfl⟩ <;> simp [ha]

variable {a : Nat} {mem : Nat → Nat} {l : List Nat}

lemma exists_unused (ha : a ∈ L .free ++ X) : ∃ τ, Unused L X τ ∧ τ.2 = a := by
  rcases mem_append.1 ha with ha | ha
  · exact ⟨(.box .free, a), ⟨rfl, ha⟩, rfl⟩
  · exact ⟨(.flight, a), ha, rfl⟩

/-- Two blocks of a spaced list do not overlap. -/
lemma Spaced.apart (h : Spaced mem l) {d : Nat} (ha : a ∈ l)
    (hd : d ∈ l) (hne : a ≠ d) : a + 16 + mem a < d ∨ d + 16 + mem d < a := by
  induction l with
  | nil => cases ha
  | cons b l ih =>
    obtain ⟨hb, hl⟩ := pairwise_cons.1 h
    rcases mem_cons.1 ha with rfl | ha' <;> rcases mem_cons.1 hd with rfl | hd'
    · exact absurd rfl hne
    · exact .inl (hb d hd')
    · exact .inr (hb a ha')
    · exact ih hl ha' hd'

lemma Spaced.nodup (h : Spaced mem l) : l.Nodup := h.imp fun hab => by omega

namespace Refree

lemma disj (hr : Refree s L X h' L' X') {τ σ : Tag} (hτ : Unused L' X' τ) (hσ : Unused L' X' σ)
    (hne : τ ≠ σ) {x : Nat} (hx : span h'.mem τ x) : ¬ span h'.mem σ x := by
  unfold span at hx ⊢
  rcases hτ.elim with ⟨a, ha, rfl⟩ | ⟨a, ha, rfl⟩ <;> rcases hσ.elim with ⟨d, hd, rfl⟩ | ⟨d, hd, rfl⟩ <;>
    simp only at hx ⊢
  · have := hr.spaced.apart ha hd fun he => hne (he ▸ rfl)
    omega
  · have := hr.flight d hd a ha
    omega
  · have := hr.flight a ha d hd
    omega
  · exact absurd (by rw [hr.single a ha d hd]) hne

lemma mem_eq (hr : Refree s L X h' L' X') (h : Inv s L X) (hτ : s.Holds L X τ)
    (hu : ¬ Unused L X τ) {x : Nat} (hx : span s.heap.mem τ x) : h'.mem x = s.heap.mem x := by
  refine hr.mem x fun a ha hax => hu ?_
  obtain ⟨σ, hσ, rfl⟩ := exists_unused ha
  rwa [h.apart.eq hτ hσ.holds hx hax]

lemma inside (hu : Unused L X τ) : ¬ τ.1.Outside := by
  obtain ⟨o, d⟩ := τ
  rintro (rfl | ⟨t, rfl⟩) <;> exact hu

lemma change (hr : Refree s L X h' L' X') (h : Inv s L X) :
    Change s L X h' L' X' (Unused L X) (Unused L' X') (· = .free) where
  mem := fun τ hτ hu x hx => hr.mem_eq h hτ hu hx
  outside := fun τ hτ ho => h.sameHeader hτ fun x => hr.mem_eq h hτ fun hu => inside hu ho
  keep := by
    rintro ⟨o, d⟩ hτ
    cases o with
    | box x =>
      by_cases hx : x = .free
      · exact .inl ⟨hx, hτ⟩
      · exact .inr ⟨by simpa [Sys.Holds, hr.others x hx] using hτ, fun hp => hx hp.1⟩
    | live | hand t => exact .inr ⟨hτ, id⟩
    | flight => exact .inl hτ
  cover := fun τ hτ x hx => by
    obtain ⟨d, hd, hdx⟩ := hr.cover τ.2 hτ.mem x hx.1 hx.2
    obtain ⟨σ, hσ, rfl⟩ := exists_unused hd
    exact .inl ⟨σ, hσ.holds, hσ, hdx⟩
  disj := fun _ _ hτ hσ hne _ hx => hr.disj hτ hσ hne hx
  shape := fun τ hτ => hr.shape τ.2 hτ.mem
  held := fun τ hτ x hx => by
    obtain ⟨d, hd, hdx⟩ := hr.cover τ.2 hτ.mem x hx.1 hx.2
    obtain ⟨σ, hσ, rfl⟩ := exists_unused hd
    rw [hr.pages]
    exact h.held σ hσ.holds x hdx
  pages := fun τ hτ _ x hx => by
    rw [hr.pages]
    exact h.held τ hτ x hx
  same := fun x hx => by
    refine ⟨hr.others x hx, ?_, fun a _ hp => hx hp.1⟩
    cases x with
    | free => exact absurd rfl hx
    | bin b => exact congrFun hr.bins b
    | cache c b =>
      show (h'.caches c b).head = _
      rw [hr.caches]
      rfl
    | slab t => rfl
  slab := by simp
  caches := fun c b _ => by rw [hr.caches]
  nodup := by
    rintro x rfl
    exact hr.spaced.nodup
  chain := by
    rintro x rfl
    exact hr.chain
  object := by
    rintro x n rfl hn
    cases hn
  spaced := fun _ => hr.spaced
  count := by simp

lemma untouched (hr : Refree s L X h' L' X') (h : Inv s L X) : Untouched s L X h' :=
  fun _ hτ ho _ hx => hr.mem_eq h hτ (fun hu => inside hu ho) hx

end Refree

end

/-! ## Words of headers

Headers are aligned, so a size is never mistaken for a link. -/

section Words

variable {mem : Nat → Nat} {a d v : Nat}

lemma setSize_of_ne (h : d ≠ a) : setSize a v mem d = mem d := by simp [setSize, h]

@[simp] lemma setSize_self : setSize a v mem a = v := by simp [setSize]

lemma nextOf_setSize (ha : a % 16 = 0) (hd : d % 16 = 0) : nextOf (setSize a v mem) d = nextOf mem d :=
  setSize_of_ne (by omega)

lemma setNext_size (ha : a % 16 = 0) (hd : d % 16 = 0) : setNext a v mem d = mem d := setNext_of_ne (by omega) v mem

end Words

/-! ## `heap_take` -/

/-- The body of the loop of `heap_take` at the block it takes. -/
def takeAt (size previous current : Nat) (h : Heap) : Heap :=
  let cut := cutBlock size current h.mem
  let h := if previous ≠ 0 then { h with mem := setNext previous cut.2 cut.1 }
    else { h with mem := cut.1, firstFree := cut.2 }
  { h with mem := setNext current blockUsed h.mem }

lemma takeFrom_spec (size n : Nat) {previous current : Nat} {h : Heap} {pre rest : List Nat}
    (hp : Before pre previous) (hc : Chain (nextOf h.mem) current rest) : takeFrom size n previous current h = (0, h) ∨
    ∃ l a post p, pre ++ rest = l ++ a :: post ∧ Before l p ∧ size ≤ h.mem a ∧
    takeFrom size n previous current h = (a + 16, takeAt size p a h) := by
  induction n generalizing previous current pre rest with
  | zero => exact .inl rfl
  | succ n ih =>
    unfold takeFrom
    by_cases h0 : current = 0
    · exact .inl (if_pos h0)
    rw [if_neg h0]
    obtain ⟨post, rfl, hpost⟩ := hc.cons_of_ne_zero h0
    by_cases hs : size ≤ h.mem current
    · rw [if_pos hs]
      exact .inr ⟨pre, current, post, previous, rfl, hp, hs, rfl⟩
    rw [if_neg hs]
    have hnext := @ih current _ (pre ++ [current]) post (.inr ⟨pre, rfl⟩) hpost
    rwa [append_assoc] at hnext

/-- The blocks behind the one taken, with the one cut off it. -/
structure Cut (mem mem' : Nat → Nat) (size a next : Nat) (post rest : List Nat) : Prop where
  fits : size ≤ mem' a
  shape : ∀ d ∈ a :: rest, Shape mem' d
  chain : Chain (nextOf mem') next rest
  spaced : Spaced mem' rest
  after : ∀ d ∈ rest, a + 16 + mem' a ≤ d
  within : ∀ d ∈ a :: rest, ∀ x, d ≤ x → x < d + 16 + mem' d → ∃ e ∈ a :: post, e ≤ x ∧ x < e + 16 + mem e
  frame : ∀ x, ¬ (a ≤ x ∧ x < a + 16 + mem a) → mem' x = mem x

lemma cutBlock_spec {mem : Nat → Nat} {size a : Nat} {post : List Nat} (hs : size % 16 = 0)
    (hpos : 16 ≤ size) (hfit : size ≤ mem a) (hshape : ∀ d ∈ a :: post, Shape mem d)
    (hc : Chain (nextOf mem) (nextOf mem a) post) (hsp : Spaced mem (a :: post)) :
    ∃ rest, Cut mem (cutBlock size a mem).1 size a (cutBlock size a mem).2 post rest := by
  have ha := hshape a (by simp)
  have ha1 := ha.pos
  have ha2 := ha.aligned
  have ha3 := ha.size
  obtain ⟨hgap, hpost⟩ := pairwise_cons.1 hsp
  unfold cutBlock
  by_cases hcut : size + 16 + 16 ≤ mem a
  · simp only [hcut, if_true]
    set sp := a + (size + 16) with hsp'
    obtain ⟨mem', hmem⟩ : ∃ m, m = setSize a size
      (setNext sp (nextOf mem a) (setSize sp (mem a - (size + 16)) mem)) := ⟨_, rfl⟩
    rw [← hmem]
    have hne : sp ≠ a := by omega
    -- the words of the headers after the cut
    have hz : mem' a = size := by simp [hmem]
    have hzsp : mem' sp = mem a - (size + 16) := by
      rw [hmem, setSize_of_ne hne, setNext_size (by omega) (by omega), setSize_self]
    have hframe : ∀ x, x ≠ a → x ≠ sp → x ≠ sp + 8 → mem' x = mem x := fun x h1 h2 h3 => by
      rw [hmem, setSize_of_ne h1, setNext_of_ne h3, setSize_of_ne h2]
    have hlink : nextOf mem' sp = nextOf mem a := by rw [hmem, nextOf_setSize ha2 (by omega), setNext_self]
    have hpostz : ∀ d ∈ post, mem' d = mem d ∧ nextOf mem' d = nextOf mem d := fun d hd => by
      have := hgap d hd
      exact ⟨hframe d (by omega) (by omega) (by omega), hframe _ (by omega) (by omega) (by omega)⟩
    refine ⟨sp :: post, ?_, ?_, ?_, ?_, ?_, ?_, ?_⟩
    · exact le_of_eq hz.symm
    · intro d hd
      simp only [mem_cons] at hd
      rcases hd with rfl | rfl | hd
      · exact ⟨ha1, ha2, hz ▸ hs, hz ▸ hpos⟩
      · exact ⟨by omega, by omega, by omega, by omega⟩
      · exact (hshape d (by simp [hd])).congr (hpostz d hd).1
    · refine chain_cons.2 ⟨rfl, by omega, ?_⟩
      rw [hlink]
      exact hc.congr fun d hd => (hpostz d hd).2
    · refine pairwise_cons.2 ⟨fun d hd => ?_, Spaced.congr hpost fun d hd => (hpostz d hd).1⟩
      have := hgap d hd
      omega
    · intro d hd
      rcases mem_cons.1 hd with rfl | hd
      · omega
      have := hgap d hd
      omega
    · intro d hd x h1 h2
      simp only [mem_cons] at hd
      rcases hd with rfl | rfl | hd
      · exact ⟨d, by simp, h1, by omega⟩
      · exact ⟨a, by simp, by omega, by omega⟩
      · rw [(hpostz d hd).1] at h2
        exact ⟨d, by simp [hd], h1, h2⟩
    · intro x hx
      exact hframe x (by omega) (by omega) (by omega)
  · simp only [hcut]
    exact ⟨post, hfit, hshape, hc, hpost, fun d hd => le_of_lt (hgap d hd),
      fun d hd x h1 h2 => ⟨d, hd, h1, h2⟩, fun _ _ => rfl⟩

section Take

variable {s : Sys} {L : Box → List Nat} {size a p : Nat} {pre post rest : List Nat}

/-- The words that `heap_take` leaves. -/
structure TookAt (mem mem' : Nat → Nat) (a p next : Nat) : Prop where
  sizes : ∀ d, d % 16 = 0 → mem' d = mem d
  used : nextOf mem' a = blockUsed
  link : p ≠ 0 → p ≠ a → nextOf mem' p = next
  links : ∀ d, d ≠ a → d ≠ p → nextOf mem' d = nextOf mem d
  frame : ∀ x, x ≠ a + 8 → x ≠ p + 8 ∨ p = 0 → mem' x = mem x

lemma takeAt_words (h : Heap) (ha : a % 16 = 0) (hp : p % 16 = 0) :
    TookAt (cutBlock size a h.mem).1 (takeAt size p a h).mem a p (cutBlock size a h.mem).2 := by
  unfold takeAt
  by_cases h0 : p = 0
  · simp only [h0]
    exact ⟨fun d hd => setNext_size ha hd, setNext_self _ _ _, fun hc => absurd rfl hc,
      fun d hd _ => nextOf_setNext hd _ _, fun x hx _ => setNext_of_ne hx _ _⟩
  simp only [h0, ne_eq, not_false_eq_true, if_true]
  refine ⟨fun d hd => ?_, setNext_self _ _ _, fun _ hne => ?_, fun d h1 h2 => ?_, fun x hx hx' => ?_⟩
  · rw [setNext_size ha hd, setNext_size hp hd]
  · rw [nextOf_setNext hne, setNext_self]
  · rw [nextOf_setNext h1, nextOf_setNext h2]
  · rw [setNext_of_ne hx, setNext_of_ne (hx'.resolve_right h0)]

lemma Inv.before_free {X : List Nat} (h : Inv s L X) (hl : L .free = pre ++ rest) (hb : Before pre p) :
    p % 16 = 0 ∧ (p = 0 ∨ p ∈ pre) := by
  rcases hb with ⟨-, rfl⟩ | ⟨l, rfl⟩
  · exact ⟨rfl, .inl rfl⟩
  have hp : p ∈ L .free := by simp [hl]
  exact ⟨(h.shape (.box .free, p) hp).aligned, .inr (by simp)⟩

lemma Inv.take_at (h : Inv s L []) (hl : L .free = pre ++ a :: post) (hb : Before pre p)
    (hc : Cut s.heap.mem (cutBlock size a s.heap.mem).1 size a (cutBlock size a s.heap.mem).2 post rest) :
    Refree s L [] (takeAt size p a s.heap) (update L .free (pre ++ rest)) [a] := by
  have hshape : ∀ d ∈ pre ++ a :: post, Shape s.heap.mem d := fun d hd =>
    h.shape (.box .free, d) (by rw [← hl] at hd; exact hd)
  have hsp := h.spaced
  rw [hl] at hsp
  obtain ⟨hsp1, hsp2, hsp12⟩ := pairwise_append.1 hsp
  have hpa : ∀ d ∈ pre, d + 16 + s.heap.mem d < a := fun d hd => hsp12 d hd a (by simp)
  have ha := hshape a (by simp)
  have hp := h.before_free hl hb
  have hw := @takeAt_words size a p s.heap ha.aligned hp.1
  have hrest : ∀ d ∈ rest, a < d := fun d hd => by
    have := hc.after d hd
    omega
  -- sizes before and behind the block
  have hzpre : ∀ d ∈ pre, (takeAt size p a s.heap).mem d = s.heap.mem d := fun d hd => by
    have := hpa d hd
    rw [hw.sizes d (hshape d (by simp [hd])).aligned, hc.frame d (by omega)]
  have hzrest : ∀ d ∈ a :: rest, (takeAt size p a s.heap).mem d = (cutBlock size a s.heap.mem).1 d :=
    fun d hd => hw.sizes d (hc.shape d hd).aligned
  have hmem : ∀ d, d ∈ (update L .free (pre ++ rest)) .free ++ [a] ↔ d ∈ pre ∨ d ∈ a :: rest := by
    simp only [update_self, mem_append, mem_cons]
    tauto
  exact
  { others := fun x hx => by simp [hx]
    pages := by
      unfold takeAt
      split <;> rfl
    bins := by
      unfold takeAt
      split <;> rfl
    caches := by
      unfold takeAt
      split <;> rfl
    mem := fun x hx => by
      have hfree : ∀ d ∈ pre ++ a :: post, ¬ (d ≤ x ∧ x < d + 16 + s.heap.mem d) := fun d hd =>
        hx d (by simpa [hl] using hd)
      have hxa := hfree a (by simp)
      rw [hw.frame x (by omega), hc.frame x hxa]
      rcases hp.2 with hp | hp
      · exact .inr hp
      have := hfree p (by simp [hp])
      exact .inl (by omega)
    shape := fun d hd => by
      rcases (hmem d).1 hd with hd | hd
      · exact (hshape d (by simp [hd])).congr (hzpre d hd)
      · exact (hc.shape d hd).congr (hzrest d hd)
    cover := fun d hd x h1 h2 => by
      rcases (hmem d).1 hd with hd | hd
      · rw [hzpre d hd] at h2
        exact ⟨d, by simp [hl, hd], h1, h2⟩
      rw [hzrest d hd] at h2
      obtain ⟨e, he, hex⟩ := hc.within d hd x h1 h2
      refine ⟨e, ?_, hex⟩
      rw [hl]
      simp only [append_nil, mem_append]
      exact .inr he
    flight := by
      intro a' ha' d hd
      obtain rfl := mem_singleton.1 ha'
      rw [update_self, mem_append] at hd
      rcases hd with hd | hd
      · right
        rw [hzpre d hd]
        exact le_of_lt (hpa d hd)
      left
      rw [hzrest a' (by simp)]
      exact hc.after d hd
    single := by simp
    chain := by
      have hchain := h.chain .free
      have hlrest : Chain (nextOf (takeAt size p a s.heap).mem) (cutBlock size a s.heap.mem).2 rest := by
        refine hc.chain.congr fun d hd => hw.links d (ne_of_gt (hrest d hd)) fun he => ?_
        have := hrest d hd
        rcases hp.2 with hp | hp
        · omega
        have := hpa p hp
        omega
      rcases hb with ⟨rfl, rfl⟩ | ⟨l, rfl⟩
      · simpa [takeAt] using hlrest
      have hp0 : p ≠ 0 := (hshape p (by simp)).pos
      have hfirst : (takeAt size p a s.heap).firstFree = s.heap.firstFree := by simp [takeAt, hp0]
      have hpa' := hpa p (by simp)
      rw [hl] at hchain
      obtain ⟨r, hs1, -⟩ := seg_append.1 hchain
      rw [hfirst]
      refine seg_append.2 ⟨_, hs1.setLast (fun d hd => ?_) (hw.link hp0 (by omega)), hlrest⟩
      have hda := hpa d (by simp [hd])
      have hdp : d ≠ p := (nodup_append.1 (Spaced.nodup hsp1)).2.2 d hd p (by simp)
      rw [hw.links d (by omega) hdp]
      exact hc.frame _ (by omega)
    spaced := by
      refine pairwise_append.2 ⟨Spaced.congr hsp1 hzpre, ?_, fun d hd e he => ?_⟩
      · exact hc.spaced.congr fun d hd => hzrest d (by simp [hd])
      have h1 := hpa d hd
      have h2 := hrest e he
      rw [hzpre d hd]
      omega }

/-- `heap_take`: nothing, or a block of the size asked for at least. -/
lemma heapTake_spec (h : Inv s L []) (hs : size % 16 = 0) (hpos : 16 ≤ size) : heapTake size s.heap = (0, s.heap) ∨
      ∃ a L', (heapTake size s.heap).1 = a + 16 ∧ Taken s L (heapTake size s.heap).2 L' a size := by
  have hchain : Chain (nextOf s.heap.mem) s.heap.firstFree (L .free) := h.chain .free
  rcases takeFrom_spec size (2 ^ 64) (.inl ⟨rfl, rfl⟩) hchain with h0 | ⟨pre, a, post, p, hl, hb, hfit, he⟩
  · exact .inl h0
  rw [nil_append] at hl
  have hshape : ∀ d ∈ a :: post, Shape s.heap.mem d := fun d hd =>
    h.shape (.box .free, d) (by show d ∈ L .free; rw [hl]; exact mem_append_right _ hd)
  have hsp := h.spaced
  rw [hl] at hsp hchain
  obtain ⟨r, -, -, -, hpost⟩ := seg_append.1 hchain
  obtain ⟨rest, hc⟩ := cutBlock_spec hs hpos hfit hshape hpost (pairwise_append.1 hsp).2.1
  have hr := h.take_at hl hb hc
  have ha := hshape a (by simp)
  refine .inr ⟨a, update L .free (pre ++ rest), by rw [heapTake, he], ?_⟩
  have hheap : (heapTake size s.heap).2 = takeAt size p a s.heap := by rw [heapTake, he]
  rw [hheap]
  refine ⟨(hr.change h).inv h, hr.untouched h, .inl ?_, ?_⟩
  · simp [takeAt]
  rw [(@takeAt_words size a p s.heap ha.aligned (h.before_free hl hb).1).sizes a ha.aligned]
  exact hc.fits

end Take

end Hermes.L2.Alloc
