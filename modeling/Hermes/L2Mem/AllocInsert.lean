import Hermes.L2Mem.AllocFree

/-!
# Putting a block back on the free list

`insert_free_locked` finds the block's place by address and joins it with
the block behind it and the block before it where they touch, so that the
list stays sorted and coalesced.
-/
namespace Hermes.L2.Alloc

open Function List

variable {s : Sys} {L : Box → List Nat} {b p r : Nat} {pre post rest : List Nat} {mem mem' : Nat → Nat}

/-! ## The place -/

lemma findPlace_spec (n : Nat) {previous next : Nat} (hp : Before pre previous)
    (hpre : ∀ d ∈ pre, d < b) (hc : Chain (nextOf mem) next rest)
    (hs : (previous :: rest).Pairwise (· < ·)) (hb : previous < b) (hn : b ≤ n + previous) :
    ∃ pre' post, pre ++ rest = pre' ++ post ∧ Before pre' (findPlace mem b n previous next).1 ∧
      Chain (nextOf mem) (findPlace mem b n previous next).2 post ∧
      (∀ d ∈ pre', d < b) ∧ ∀ d ∈ post, b ≤ d := by
  induction n generalizing previous next pre rest with
  | zero => omega
  | succ n ih =>
    unfold findPlace
    split <;> rename_i h
    · obtain ⟨l, rfl, hl⟩ := hc.cons_of_ne_zero h.1
      obtain ⟨hlt, hs'⟩ := pairwise_cons.1 hs
      have hnext := hlt next (by simp)
      have hpre' : ∀ d ∈ pre ++ [next], d < b := by
        intro d hd
        rcases mem_append.1 hd with hd | hd
        · exact hpre d hd
        rw [mem_singleton.1 hd]
        exact h.2
      have hrec := ih (.inr ⟨pre, rfl⟩) hpre' hl hs' h.2 (by omega)
      rwa [append_assoc] at hrec
    refine ⟨pre, rest, rfl, hp, hc, hpre, fun d hd => ?_⟩
    cases rest with
    | nil => cases hd
    | cons e l =>
      obtain ⟨rfl, h0, -⟩ := hc
      have he : b ≤ next := by
        by_contra hlt
        exact h ⟨h0, by omega⟩
      rcases mem_cons.1 hd with rfl | hd
      · exact he
      have := (pairwise_cons.1 (pairwise_cons.1 hs).2).1 d hd
      omega

/-! ## The block behind -/

/-- The block, joined with the one behind it if they touch; `rest` follows. -/
structure Joined (mem mem' : Nat → Nat) (b : Nat) (post rest : List Nat) : Prop where
  shape : Shape mem' b
  frame : ∀ x, x ≠ b → x ≠ b + 8 → mem' x = mem x
  chain : Chain (nextOf mem') (nextOf mem' b) rest
  suffix : rest <:+ post
  gap : ∀ d ∈ rest, b + 16 + mem' b < d
  within : ∀ x, b ≤ x → x < b + 16 + mem' b → ∃ d ∈ b :: post, d ≤ x ∧ x < d + 16 + mem d

lemma joinNext_spec {next : Nat} (hb : Shape mem b) (hpost : ∀ d ∈ post, Shape mem d)
    (hc : Chain (nextOf mem) next post) (hs : Spaced mem post) (hgap : ∀ d ∈ post, b + 16 + mem b ≤ d) :
    ∃ rest, Joined mem (joinNext b next mem) b post rest := by
  have hal := hb.aligned
  have hmin := hb.min
  have hz : setNext b next mem b = mem b := setNext_size hal hal
  unfold joinNext
  by_cases hj : next ≠ 0 ∧ b + 16 + setNext b next mem b = next
  · simp only [hj, ne_eq, not_false_eq_true, and_self, if_true]
    obtain ⟨l, rfl, hl⟩ := hc.cons_of_ne_zero hj.1
    obtain ⟨hnext, hsl⟩ := pairwise_cons.1 hs
    have hn := hpost next (by simp)
    have hadj : b + 16 + mem b = next := hz ▸ hj.2
    have hnal := hn.aligned
    have hnz : setNext b next mem next = mem next := setNext_size hal hnal
    rw [hz, hnz]
    obtain ⟨mem', hmem⟩ : ∃ m, m = setNext b (nextOf (setSize b (mem b + (16 + mem next)) (setNext b next mem)) next)
      (setSize b (mem b + (16 + mem next)) (setNext b next mem)) := ⟨_, rfl⟩
    rw [← hmem]
    have hz' : mem' b = mem b + (16 + mem next) := by rw [hmem, setNext_size hal hal, setSize_self]
    have hframe : ∀ x, x ≠ b → x ≠ b + 8 → mem' x = mem x := fun x h1 h2 => by
      rw [hmem, setNext_of_ne h2, setSize_of_ne h1, setNext_of_ne h2]
    have hlink : nextOf mem' b = nextOf mem next := by
      rw [hmem, setNext_self, nextOf_setSize hal hnal, nextOf_setNext (by omega)]
    have hlgap : ∀ d ∈ l, b + 16 + mem' b < d := fun d hd => by
      have := hnext d hd
      omega
    have hsz := hb.size
    have hnsz := hn.size
    refine ⟨l, ⟨hb.pos, hal, by omega, by omega⟩, hframe, ?_, ⟨[next], rfl⟩, hlgap, fun x h1 h2 => ?_⟩
    · rw [hlink]
      refine hl.congr fun d hd => ?_
      have := hlgap d hd
      exact hframe _ (by omega) (by omega)
    · by_cases hx : x < b + 16 + mem b
      · exact ⟨b, by simp, h1, hx⟩
      · exact ⟨next, by simp, by omega, by omega⟩
  · simp only [hj, if_false]
    have hframe : ∀ x, x ≠ b + 8 → setNext b next mem x = mem x := fun x hx => setNext_of_ne hx _ _
    have hgap' : ∀ d ∈ post, b + 16 + mem b < d := fun d hd => by
      cases post with
      | nil => cases hd
      | cons e l =>
        obtain ⟨rfl, h0, -⟩ := hc
        have hne : b + 16 + mem b ≠ next := fun he => hj ⟨h0, by rw [hz]; exact he⟩
        have := hgap next (by simp)
        rcases mem_cons.1 hd with rfl | hd
        · omega
        have := (pairwise_cons.1 hs).1 d hd
        omega
    refine ⟨post, hb.congr hz, fun x _ hx => hframe x hx, ?_, suffix_rfl,
      fun d hd => by rw [hz]; exact hgap' d hd, fun x h1 h2 => ⟨b, by simp, h1, by rw [hz] at h2; exact h2⟩⟩
    rw [setNext_self]
    refine hc.congr fun d hd => ?_
    have := hgap' d hd
    exact hframe _ (by omega)

/-! ## The list after the insertion -/

lemma Inv.refree_insert (h : Inv s L [b]) (first : Nat)
    (hpre : ∀ d ∈ pre, d ∈ L .free ∧ mem' d = s.heap.mem d ∧ d + 16 + s.heap.mem d < r)
    (hrest : ∀ d ∈ rest, d ∈ L .free ∧ mem' d = s.heap.mem d ∧ r + 16 + mem' r < d)
    (hsp : Spaced s.heap.mem pre) (hsr : Spaced s.heap.mem rest) (hr : Shape mem' r)
    (hcover : ∀ x, r ≤ x → x < r + 16 + mem' r → ∃ d ∈ L .free ++ [b], d ≤ x ∧ x < d + 16 + s.heap.mem d)
    (hmem : ∀ x, (∀ a ∈ L .free ++ [b], ¬ (a ≤ x ∧ x < a + 16 + s.heap.mem a)) → mem' x = s.heap.mem x)
    (hchain : Chain (nextOf mem') first (pre ++ r :: rest)) :
    Refree s L [b] { s.heap with mem := mem', firstFree := first } (update L .free (pre ++ r :: rest)) [] := by
  have hsame : ∀ d, d ∈ pre ∨ d ∈ rest → d ∈ L .free ∧ mem' d = s.heap.mem d := by
    rintro d (hd | hd)
    · exact ⟨(hpre d hd).1, (hpre d hd).2.1⟩
    · exact ⟨(hrest d hd).1, (hrest d hd).2.1⟩
  have hlist : ∀ d, d ∈ (update L .free (pre ++ r :: rest)) .free ++ [] ↔ (d ∈ pre ∨ d ∈ rest) ∨ d = r := by
    intro d
    simp only [update_self, append_nil, mem_append, mem_cons]
    tauto
  exact
  { others := fun x hx => by simp [hx]
    pages := rfl
    bins := rfl
    caches := rfl
    mem := hmem
    shape := fun d hd => by
      rcases (hlist d).1 hd with hd | rfl
      · exact (h.shape (.box .free, d) (hsame d hd).1).congr (hsame d hd).2
      · exact hr
    cover := fun d hd x h1 h2 => by
      rcases (hlist d).1 hd with hd | rfl
      · have h2 : x < d + 16 + mem' d := h2
        rw [(hsame d hd).2] at h2
        exact ⟨d, mem_append_left _ (hsame d hd).1, h1, h2⟩
      · exact hcover x h1 h2
    flight := by simp
    single := by simp
    chain := by
      rw [update_self]
      exact hchain
    spaced := by
      rw [update_self]
      refine pairwise_append.2 ⟨hsp.congr fun d hd => (hpre d hd).2.1,
        pairwise_cons.2 ⟨fun d hd => (hrest d hd).2.2, hsr.congr fun d hd => (hrest d hd).2.1⟩,
        fun d hd e he => ?_⟩
      obtain ⟨-, h1, h2⟩ := hpre d hd
      show d + 16 + mem' d < e
      rw [h1]
      rcases mem_cons.1 he with rfl | he
      · exact h2
      have := (hrest e he).2.2
      omega }

/-- The block's place on the free list, with the block joined to what is behind. -/
structure Placed (s : Sys) (L : Box → List Nat) (b p : Nat) (mem' : Nat → Nat)
    (pre post rest : List Nat) : Prop where
  list : L .free = pre ++ post
  before : Before pre p
  low : ∀ d ∈ pre, d + 16 + s.heap.mem d ≤ b
  joined : Joined s.heap.mem mem' b post rest

lemma Inv.placed (h : Inv s L [b]) : ∃ p next pre post rest, findPlace s.heap.mem b b 0 s.heap.firstFree = (p, next) ∧
      Placed s L b p (joinNext b next s.heap.mem) pre post rest := by
  have hb := h.shape (.flight, b) (by simp [Sys.Holds])
  have hchain : Chain (nextOf s.heap.mem) s.heap.firstFree (L .free) := h.chain .free
  have hsorted : (0 :: L .free).Pairwise (· < ·) :=
    pairwise_cons.2 ⟨fun d hd => pos_of_ne_zero (hchain.ne_zero hd), h.spaced.imp fun hab => by omega⟩
  have hpos := hb.pos
  have hplace := findPlace_spec b (show Before [] 0 from .inl ⟨rfl, rfl⟩) (by simp) hchain hsorted
    (pos_of_ne_zero hpos) (by omega)
  obtain ⟨⟨p, next⟩, hfp⟩ : ∃ r, findPlace s.heap.mem b b 0 s.heap.firstFree = r := ⟨_, rfl⟩
  rw [hfp] at hplace
  obtain ⟨pre, post, hl, hbefore, hpost, hlow, hhigh⟩ := hplace
  rw [nil_append] at hl
  have hfree : ∀ d ∈ pre ++ post, Shape s.heap.mem d := fun d hd =>
    h.shape (.box .free, d) (by rw [← hl] at hd; exact hd)
  -- the block does not overlap the free blocks
  have hapart : ∀ d ∈ pre ++ post, ∀ x, span s.heap.mem (.flight, b) x → ¬ (d ≤ x ∧ x < d + 16 + s.heap.mem d) :=
    fun d hd x hx => h.apart (.flight, b) (.box .free, d) (by simp [Sys.Holds])
      (by rw [← hl] at hd; exact hd) (by simp) x hx
  have hlow' : ∀ d ∈ pre, d + 16 + s.heap.mem d ≤ b := fun d hd => by
    have := hapart d (by simp [hd]) b ⟨le_rfl, by simp only; omega⟩
    have := hlow d hd
    omega
  have hhigh' : ∀ d ∈ post, b + 16 + s.heap.mem b ≤ d := fun d hd => by
    by_contra hlt
    have := hhigh d hd
    exact hapart d (by simp [hd]) d ⟨this, by simp only; omega⟩ ⟨le_rfl, by omega⟩
  have hsp := h.spaced
  rw [hl] at hsp
  obtain ⟨rest, hj⟩ := joinNext_spec hb (fun d hd => hfree d (by simp [hd])) hpost (pairwise_append.1 hsp).2.1 hhigh'
  exact ⟨p, next, pre, post, rest, hfp, hl, hbefore, hlow', hj⟩

lemma Placed.rest_spec (hp : Placed s L b p mem' pre post rest) {d : Nat} (hd : d ∈ rest) :
    d ∈ L .free ∧ mem' d = s.heap.mem d ∧ b + 16 + mem' b < d := by
  have hgap := hp.joined.gap d hd
  refine ⟨?_, hp.joined.frame d (by omega) (by omega), hgap⟩
  rw [hp.list]
  exact mem_append_right _ (hp.joined.suffix.subset hd)

lemma Placed.pre_spec (hp : Placed s L b p mem' pre post rest) {d : Nat} (hd : d ∈ pre) :
    d ∈ L .free ∧ mem' d = s.heap.mem d ∧ nextOf mem' d = nextOf s.heap.mem d := by
  have hlow := hp.low d hd
  refine ⟨?_, hp.joined.frame d (by omega) (by omega), hp.joined.frame _ (by omega) (by omega)⟩
  rw [hp.list]
  exact mem_append_left _ hd

namespace Placed

section

variable (hp : Placed s L b p mem' pre post rest)
include hp

lemma spaced (h : Inv s L [b]) : Spaced s.heap.mem pre ∧ Spaced s.heap.mem rest := by
  have hsp := h.spaced
  rw [hp.list] at hsp
  obtain ⟨h1, h2, -⟩ := pairwise_append.1 hsp
  exact ⟨h1, List.Pairwise.sublist hp.joined.suffix.sublist h2⟩

lemma within {x : Nat} (h1 : b ≤ x)
    (h2 : x < b + 16 + mem' b) : ∃ d ∈ L .free ++ [b], d ≤ x ∧ x < d + 16 + s.heap.mem d := by
  obtain ⟨d, hd, hx⟩ := hp.joined.within x h1 h2
  refine ⟨d, ?_, hx⟩
  rw [hp.list]
  simp only [mem_append, mem_cons] at hd ⊢
  tauto

lemma outside (h : Inv s L [b]) {x : Nat}
    (hx : ∀ a ∈ L .free ++ [b], ¬ (a ≤ x ∧ x < a + 16 + s.heap.mem a)) : mem' x = s.heap.mem x := by
  have := (h.shape (.flight, b) (by simp [Sys.Holds])).min
  have hb := hx b (by simp)
  exact hp.joined.frame x (by omega) (by omega)

end

/-- In front of all. -/
lemma first (hp : Placed s L b p mem' [] post rest) (h : Inv s L [b]) :
    Refree s L [b] { s.heap with mem := mem', firstFree := b } (update L .free ([] ++ b :: rest)) [] :=
  h.refree_insert b (by simp) (fun d hd => hp.rest_spec hd) List.Pairwise.nil (hp.spaced h).2
    hp.joined.shape (fun x h1 h2 => hp.within h1 h2) (fun x hx => hp.outside h hx)
    ⟨rfl, hp.joined.shape.pos, hp.joined.chain⟩

variable {l : List Nat}

section

variable (hp : Placed s L b p mem' (l ++ [p]) post rest)
include hp

/-- The links up to the block before. -/
lemma seg (h : Inv s L [b]) : Seg (nextOf mem') s.heap.firstFree l p ∧ p ≠ 0 ∧ p ∉ l := by
  have hchain : Chain (nextOf s.heap.mem) s.heap.firstFree (L .free) := h.chain .free
  rw [hp.list] at hchain
  obtain ⟨r, hs, -⟩ := seg_append.1 hchain
  obtain ⟨h1, h2, -⟩ := seg_concat.1 hs
  refine ⟨h1.congr fun d hd => (hp.pre_spec (by simp [hd])).2.2, h2, fun hmem => ?_⟩
  exact (nodup_append.1 (Spaced.nodup (hp.spaced h).1)).2.2 p hmem p (by simp) rfl

/-- Behind another block that it does not touch. -/
lemma behind (h : Inv s L [b]) (hne : p + 16 + mem' p ≠ b) : Refree s L [b] { s.heap with mem := setNext p b mem' }
      (update L .free ((l ++ [p]) ++ b :: rest)) [] := by
  have hb := hp.joined.shape
  obtain ⟨hseg, hp0, hpl⟩ := hp.seg h
  have hpal : p % 16 = 0 := (h.shape (.box .free, p) (hp.pre_spec (by simp)).1).aligned
  have hlow := hp.low p (by simp)
  have hzb : setNext p b mem' b = mem' b := setNext_size hpal hb.aligned
  have hz : ∀ d ∈ L .free, setNext p b mem' d = mem' d := fun d hd =>
    setNext_size hpal (h.shape (.box .free, d) hd).aligned
  have hsp := (hp.spaced h).1
  refine h.refree_insert s.heap.firstFree (fun d hd => ?_) (fun d hd => ?_) hsp (hp.spaced h).2
    (hb.congr hzb) (fun x h1 h2 => hp.within h1 (hzb ▸ h2))
    (fun x hx => ?_) ?_
  · obtain ⟨h1, h2, -⟩ := hp.pre_spec hd
    refine ⟨h1, (hz d h1).trans h2, ?_⟩
    -- the last block does not touch, the others are before it
    rcases mem_append.1 hd with hd' | hd'
    · have := (pairwise_append.1 hsp).2.2 d hd' p (by simp)
      omega
    obtain rfl := mem_singleton.1 hd'
    have := hp.low d hd
    omega
  · obtain ⟨h1, h2, h3⟩ := hp.rest_spec hd
    exact ⟨h1, (hz d h1).trans h2, hzb ▸ h3⟩
  · have hxp := hx p (mem_append_left _ (hp.pre_spec (by simp)).1)
    have hmin := (h.shape (.box .free, p) (hp.pre_spec (by simp)).1).min
    simp only at hmin
    rw [setNext_of_ne (by omega) b mem', hp.outside h hx]
  · refine seg_append.2 ⟨b, seg_concat.2 ⟨hseg.congr fun d hd => ?_, hp0, setNext_self _ _ _⟩, rfl, hb.pos, ?_⟩
    · exact nextOf_setNext (ne_of_mem_of_not_mem hd hpl) _ _
    rw [nextOf_setNext (by omega)]
    refine hp.joined.chain.congr fun d hd => nextOf_setNext ?_ _ _
    have := hp.joined.gap d hd
    omega

/-- Joined with the block before it. -/
lemma merged (h : Inv s L [b]) (he : p + 16 + mem' p = b) :
    Refree s L [b] { s.heap with mem := setNext p (nextOf mem' b) (setSize p (mem' p + (16 + mem' b)) mem') }
      (update L .free (l ++ p :: rest)) [] := by
  have hb := hp.joined.shape
  obtain ⟨hseg, hp0, hpl⟩ := hp.seg h
  obtain ⟨hpL, hpz, -⟩ := hp.pre_spec (d := p) (by simp)
  have hps := h.shape (.box .free, p) hpL
  have hpal : p % 16 = 0 := hps.aligned
  have hpsz : s.heap.mem p % 16 = 0 := hps.size
  have hpmin : 16 ≤ s.heap.mem p := hps.min
  have hbsz := hb.size
  obtain ⟨mem2, hmem2⟩ : ∃ m, m = setNext p (nextOf mem' b) (setSize p (mem' p + (16 + mem' b)) mem') := ⟨_, rfl⟩
  rw [← hmem2]
  have hzp : mem2 p = mem' p + (16 + mem' b) := by rw [hmem2, setNext_size hpal hpal, setSize_self]
  have hframe : ∀ x, x ≠ p → x ≠ p + 8 → mem2 x = mem' x := fun x h1 h2 => by
    rw [hmem2, setNext_of_ne h2, setSize_of_ne h1]
  have hz : ∀ d ∈ L .free, d ≠ p → mem2 d = mem' d := fun d hd hne => by
    have : d % 16 = 0 := (h.shape (.box .free, d) hd).aligned
    exact hframe d hne (by omega)
  have hsp := pairwise_append.1 (hp.spaced h).1
  refine h.refree_insert s.heap.firstFree (fun d hd => ?_) (fun d hd => ?_) hsp.1 (hp.spaced h).2
    ⟨hp0, hpal, by omega, by omega⟩ (fun x h1 h2 => ?_) (fun x hx => ?_) ?_
  · obtain ⟨h1, h2, -⟩ := hp.pre_spec (d := d) (by simp [hd])
    exact ⟨h1, (hz d h1 (ne_of_mem_of_not_mem hd hpl)).trans h2, hsp.2.2 d hd p (by simp)⟩
  · obtain ⟨h1, h2, h3⟩ := hp.rest_spec hd
    exact ⟨h1, (hz d h1 (by omega)).trans h2, by omega⟩
  · by_cases hx : x < b
    · exact ⟨p, mem_append_left _ hpL, h1, by omega⟩
    · exact hp.within (by omega) (by omega)
  · have hxp := hx p (mem_append_left _ hpL)
    rw [hframe x (by omega) (by omega), hp.outside h hx]
  refine seg_append.2 ⟨p, hseg.congr fun d hd => ?_, rfl, hp0, ?_⟩
  · have hd' : d % 16 = 0 := (h.shape (.box .free, d) (hp.pre_spec (d := d) (by simp [hd])).1).aligned
    have hne := ne_of_mem_of_not_mem hd hpl
    exact hframe _ (by omega) (by omega)
  have hlink : nextOf mem2 p = nextOf mem' b := by rw [hmem2, setNext_self]
  rw [hlink]
  refine hp.joined.chain.congr fun d hd => ?_
  have := hp.joined.gap d hd
  exact hframe _ (by omega) (by omega)

end

end Placed

/-- `insert_free_locked` -/
lemma insertFree_spec (h : Inv s L [b]) : GivenBack s L [b] (insertFreeLocked b s.heap) := by
  suffices hr : ∃ L', Refree s L [b] (insertFreeLocked b s.heap) L' [] by
    obtain ⟨L', hr⟩ := hr
    exact ⟨⟨L', (hr.change h).inv h⟩, hr.untouched h⟩
  obtain ⟨p, next, pre, post, rest, hfp, hp⟩ := h.placed
  unfold insertFreeLocked
  simp only [hfp]
  rcases hp.before with ⟨rfl, rfl⟩ | ⟨l, rfl⟩
  · rw [if_pos rfl]
    exact ⟨_, hp.first h⟩
  rw [if_neg (hp.seg h).2.1]
  split <;> rename_i he
  · have hm := hp.merged h he
    rw [nextOf_setSize (h.shape (.box .free, p) (hp.pre_spec (by simp)).1).aligned hp.joined.shape.aligned]
    exact ⟨_, hm⟩
  · exact ⟨_, hp.behind h he⟩

end Hermes.L2.Alloc
