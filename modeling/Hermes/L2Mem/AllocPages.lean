import Hermes.L2Mem.AllocInsert

/-!
# Pages for the heap

A new chunk, a large block and the objects of a slab lie in pages that
nothing else is in; a large block goes back to the page allocator with its
pages. Writes to the bytes behind a header change nothing for the heap.
-/
namespace Hermes.L2.Alloc

open List

variable {s : Sys} {L : Box → List Nat} {X : List Nat} {a lo n : Nat}

/-! ## New pages -/

/-- Blocks `X'` have been set up in `n` new pages at `lo`. -/
structure Fresh (h h' : Heap) (lo n : Nat) (X' : List Nat) : Prop where
  page : lo % 4096 = 0
  free : ∀ k < n, h.held (lo / 4096 + k) = false
  held : h'.held = fun p => if lo / 4096 ≤ p ∧ p < lo / 4096 + n then true else h.held p
  mem : ∀ x, ¬ (lo ≤ x ∧ x < lo + n * 4096) → h'.mem x = h.mem x
  firstFree : h'.firstFree = h.firstFree
  bins : h'.bins = h.bins
  caches : h'.caches = h.caches
  shape : ∀ a ∈ X', Shape h'.mem a
  within : ∀ a ∈ X', lo ≤ a ∧ a + 16 + h'.mem a ≤ lo + n * 4096
  disj : ∀ a ∈ X', ∀ d ∈ X', a ≠ d → a + 16 + h'.mem a ≤ d ∨ d + 16 + h'.mem d ≤ a

namespace Fresh

variable {h' : Heap} {X' : List Nat}

section

variable (hf : Fresh s.heap h' lo n X')
include hf

lemma not_held {x : Nat} (h1 : lo ≤ x) (h2 : x < lo + n * 4096) : s.heap.held (x / 4096) = false := by
  have hpage := hf.page
  have := hf.free (x / 4096 - lo / 4096) (by omega)
  rwa [show lo / 4096 + (x / 4096 - lo / 4096) = x / 4096 by omega] at this

lemma mem_eq (h : Inv s L []) {τ : Tag} (hτ : s.Holds L [] τ) {x : Nat}
    (hx : span s.heap.mem τ x) : h'.mem x = s.heap.mem x := by
  refine hf.mem x fun hc => ?_
  have := hf.not_held hc.1 hc.2
  rw [h.held τ hτ x hx] at this
  cases this

lemma change (h : Inv s L []) :
    Change s L [] h' L X' (fun _ => False) (fun τ => τ.1 = .flight ∧ τ.2 ∈ X') (fun _ => False) where
  mem := fun τ hτ _ x hx => hf.mem_eq h hτ hx
  outside := fun τ hτ _ => h.sameHeader hτ fun x => hf.mem_eq h hτ
  keep := by
    rintro ⟨o, d⟩ hτ
    cases o with
    | box x | live | hand t => exact .inr ⟨hτ, id⟩
    | flight => exact .inl ⟨rfl, hτ⟩
  cover := fun τ hτ x hx => by
    have hw := hf.within τ.2 hτ.2
    unfold span at hx
    exact .inr (hf.not_held (by omega) (by omega))
  disj := fun τ σ hτ hσ hne x hx hx' => by
    have hd := hf.disj τ.2 hτ.2 σ.2 hσ.2 fun he => hne (Prod.ext (hτ.1.trans hσ.1.symm) he)
    unfold span at hx hx'
    omega
  shape := fun τ hτ => hf.shape τ.2 hτ.2
  held := fun τ hτ x hx => by
    have hw := hf.within τ.2 hτ.2
    have hpage := hf.page
    unfold span at hx
    rw [hf.held]
    exact if_pos (by omega)
  pages := fun τ hτ _ x hx => by
    rw [hf.held]
    simp only [h.held τ hτ x hx, ite_self]
  same := fun x _ => by
    refine ⟨rfl, ?_, fun _ _ => id⟩
    cases x with
    | free => exact hf.firstFree
    | bin b => exact congrFun hf.bins b
    | cache c b =>
      show (h'.caches c b).head = _
      rw [hf.caches]
      rfl
    | slab t => rfl
  slab := fun _ => id
  caches := fun c b _ => by rw [hf.caches]
  nodup := fun _ => False.elim
  chain := fun _ => False.elim
  object := fun _ _ => False.elim
  spaced := False.elim
  count := fun _ _ => False.elim

lemma untouched (h : Inv s L []) : Untouched s L [] h' := fun _ hτ _ _ hx => hf.mem_eq h hτ hx

end

end Fresh

lemma allocKernelPages_cases (at' : Nat) (junk : Nat → Nat) (n : Nat) (h : Heap) :
    allocKernelPages at' junk n h = (0, h) ∨ at' ≠ 0 ∧ at' % 4096 = 0 ∧ (∀ k < n, h.held (at' / 4096 + k) = false) ∧
        allocKernelPages at' junk n h = (at', { h with
          held := fun p => if at' / 4096 ≤ p ∧ p < at' / 4096 + n then true else h.held p
          mem := fun x => if at' ≤ x ∧ x < at' + n * 4096 then junk x else h.mem x }) := by
  unfold allocKernelPages
  split
  · rename_i hc
    exact .inr ⟨hc.1, hc.2.1, hc.2.2.2, rfl⟩
  · exact .inl rfl

variable {at' : Nat} {junk : Nat → Nat} {h : Heap}

lemma allocKernelPages_none
    (hgot : (allocKernelPages at' junk n h).1 = 0) : allocKernelPages at' junk n h = (0, h) := by
  rcases allocKernelPages_cases at' junk n h with hc | ⟨h0, -, -, hc⟩
  · exact hc
  rw [hc] at hgot
  exact absurd hgot h0

/-- Pages that have been got are at the place asked for. -/
lemma allocKernelPages_some (hgot : (allocKernelPages at' junk n h).1 ≠ 0) :
    (allocKernelPages at' junk n h).1 = at' ∧ at' ≠ 0 ∧ at' % 4096 = 0 := by
  rcases allocKernelPages_cases at' junk n h with hc | ⟨h0, hpage, -, hc⟩
  · exact absurd (by rw [hc]) hgot
  rw [hc]
  exact ⟨rfl, h0, hpage⟩

section New

variable {at' : Nat} {junk : Nat → Nat} {h : Heap} {mem' : Nat → Nat}

/-- Blocks set up in pages just got. -/
lemma fresh_blocks {X' : List Nat} (hgot : (allocKernelPages at' junk n h).1 ≠ 0)
    (hframe : ∀ x, ¬ (at' ≤ x ∧ x < at' + n * 4096) → mem' x = (allocKernelPages at' junk n h).2.mem x)
    (hshape : ∀ a ∈ X', Shape mem' a) (hwithin : ∀ a ∈ X', at' ≤ a ∧ a + 16 + mem' a ≤ at' + n * 4096)
    (hdisj : ∀ a ∈ X', ∀ d ∈ X', a ≠ d → a + 16 + mem' a ≤ d ∨ d + 16 + mem' d ≤ a) :
    Fresh h { (allocKernelPages at' junk n h).2 with mem := mem' } at' n X' := by
  rcases allocKernelPages_cases at' junk n h with hc | ⟨-, hpage, hfree, hc⟩
  · exact absurd (by rw [hc]) hgot
  rw [hc] at hframe ⊢
  exact ⟨hpage, hfree, rfl, fun x hx => (hframe x hx).trans (if_neg hx), rfl, rfl, rfl, hshape, hwithin, hdisj⟩

/-- One block in whole new pages, with any link. -/
lemma fresh_chunk (hpos : 0 < n) (hgot : (allocKernelPages at' junk n h).1 ≠ 0) (hz : mem' at' = n * 4096 - 16)
    (hframe : ∀ x, x ≠ at' → x ≠ at' + 8 → mem' x = (allocKernelPages at' junk n h).2.mem x) :
    Fresh h { (allocKernelPages at' junk n h).2 with mem := mem' } at' n [at'] := by
  obtain ⟨-, h0, hpage⟩ := allocKernelPages_some hgot
  refine fresh_blocks hgot (fun x hx => hframe x (by omega) (by omega)) ?_ ?_ ?_
  · intro a ha
    obtain rfl := mem_singleton.1 ha
    exact ⟨h0, by omega, by omega, by omega⟩
  · intro a ha
    obtain rfl := mem_singleton.1 ha
    omega
  intro a ha d hd hne
  rw [mem_singleton.1 ha, mem_singleton.1 hd] at hne
  exact absurd rfl hne

end New

/-! ## A slab -/

section Slab

variable {slab size : Nat}

/-- The object `k` of a slab. -/
def object (slab size k : Nat) : Nat := slab + k * (size + 16)

def objects (slab size n : Nat) : List Nat := (List.range n).map (object slab size)

lemma objects_succ : objects slab size (n + 1) = objects slab size n ++ [object slab size n] := by
  simp [objects, range_succ]

variable {i k : Nat}

lemma object_gap (h : i < k) : object slab size i + (size + 16) ≤ object slab size k := by
  unfold object
  have := Nat.mul_le_mul_right (size + 16) (show i + 1 ≤ k from h)
  rw [Nat.succ_mul] at this
  omega

lemma object_apart (h : i ≠ k) : object slab size i + (size + 16) ≤ object slab size k ∨
    object slab size k + (size + 16) ≤ object slab size i :=
  (Nat.lt_or_gt_of_ne h).imp object_gap object_gap

lemma objects_nodup : (objects slab size n).Nodup := nodup_range.map_on fun i _ k _ he => by
    by_contra hne
    have := @object_apart slab size i k hne
    omega

lemma object_aligned (hal : slab % 16 = 0) (hsz : size % 16 = 0) (k : Nat) : object slab size k % 16 = 0 := by
  obtain ⟨m, rfl⟩ := Nat.dvd_of_mod_eq_zero hsz
  rw [object, show k * (16 * m + 16) = 16 * (k * (m + 1)) by ring]
  omega

lemma objects_lt {d : Nat} (hd : d ∈ objects slab size n) : slab ≤ d ∧ d + (size + 16) ≤ object slab size n := by
  simp only [objects, mem_map, mem_range] at hd
  obtain ⟨k, hk, rfl⟩ := hd
  exact ⟨by unfold object; omega, object_gap hk⟩

/-- The loop of `bin_add_slab` with `l` linked already. -/
lemma buildSlab_spec (n : Nat) {head : Nat} {mem : Nat → Nat} {l : List Nat} (h0 : slab ≠ 0) (hal : slab % 16 = 0)
    (hsz : size % 16 = 0) (hl : Chain (nextOf mem) head l) (hl' : ∀ d ∈ l, mem d = size ∧ object slab size n ≤ d) :
    Chain (nextOf (buildSlab slab size n head mem).2) (buildSlab slab size n head mem).1 (objects slab size n ++ l) ∧
    (∀ d ∈ objects slab size n ++ l, (buildSlab slab size n head mem).2 d = size) ∧ ∀ x,
    ¬ (slab ≤ x ∧ x < object slab size n) → (buildSlab slab size n head mem).2 x = mem x := by
  induction n generalizing head mem l with
  | zero => exact ⟨hl, fun d hd => (hl' d hd).1, fun _ _ => rfl⟩
  | succ n ih =>
    set o := object slab size n with ho
    have hoal : o % 16 = 0 := ho ▸ object_aligned hal hsz n
    have hgap : object slab size n + (size + 16) ≤ object slab size (n + 1) := object_gap (Nat.lt_succ_self n)
    have ho0 : slab ≤ o := by rw [ho, object]; omega
    obtain ⟨mem', hmem⟩ : ∃ m, m = setNext o head (setSize o size mem) := ⟨_, rfl⟩
    have hframe : ∀ x, x ≠ o → x ≠ o + 8 → mem' x = mem x := fun x h1 h2 => by
      rw [hmem, setNext_of_ne h2, setSize_of_ne h1]
    have hz : mem' o = size := by rw [hmem, setNext_size hoal hoal, setSize_self]
    have hchain : Chain (nextOf mem') o (o :: l) := by
      refine chain_cons.2 ⟨rfl, by omega, ?_⟩
      rw [show nextOf mem' o = head by rw [hmem, setNext_self]]
      refine hl.congr fun d hd => ?_
      have := (hl' d hd).2
      exact hframe _ (by omega) (by omega)
    have hrec := ih hchain fun d hd => by
      rcases mem_cons.1 hd with rfl | hd
      · exact ⟨hz, le_of_eq ho.symm⟩
      have := hl' d hd
      exact ⟨by rw [hframe d (by omega) (by omega)]; exact this.1, by omega⟩
    have heq : buildSlab slab size (n + 1) head mem = buildSlab slab size n o mem' := by
      rw [buildSlab, hmem, ho]
      rfl
    have hlist : objects slab size (n + 1) ++ l = objects slab size n ++ o :: l := by
      rw [objects_succ, ho, append_assoc]
      rfl
    rw [heq, hlist]
    refine ⟨hrec.1, hrec.2.1, fun x hx => ?_⟩
    rw [hrec.2.2 x (by omega), hframe x (by omega) (by omega)]

/-- `bin_add_slab` before it takes the lock: the objects are linked in the
new pages. -/
lemma fresh_slab (hsz : size % 16 = 0) (hpos : 16 ≤ size)
    (hgot : (allocKernelPages at' junk binSlabPages h).1 ≠ 0) {b : Nat × (Nat → Nat)}
    (hb : b = buildSlab at' size (slabCount size) 0 (allocKernelPages at' junk binSlabPages h).2.mem) :
    Fresh h { (allocKernelPages at' junk binSlabPages h).2 with mem := b.2 } at' binSlabPages
        (objects at' size (slabCount size)) ∧
      Chain (nextOf b.2) b.1 (objects at' size (slabCount size)) ∧
      ∀ d ∈ objects at' size (slabCount size), b.2 d = size := by
  obtain ⟨-, hat⟩ := allocKernelPages_some hgot
  obtain ⟨hc, hz, hframe⟩ := @buildSlab_spec at' size (slabCount size) 0
    (allocKernelPages at' junk binSlabPages h).2.mem [] hat.1 (by omega) hsz rfl (by simp)
  rw [append_nil, ← hb] at hc hz
  rw [← hb] at hframe
  have hend : object at' size (slabCount size) ≤ at' + binSlabPages * 4096 :=
    Nat.add_le_add_left (Nat.div_mul_le_self _ _) _
  refine ⟨fresh_blocks hgot (fun x hx => hframe x (by omega)) (fun d hd => ?_) (fun d hd => ?_) ?_, hc, hz⟩
  · have hal : d % 16 = 0 := by
      simp only [objects, mem_map, mem_range] at hd
      obtain ⟨k, -, rfl⟩ := hd
      exact object_aligned (by omega) hsz k
    have := (objects_lt hd).1
    exact ⟨by omega, hal, by rw [hz d hd]; exact hsz, by rw [hz d hd]; exact hpos⟩
  · have := objects_lt hd
    rw [hz d hd]
    omega
  intro d hd e he hne
  rw [hz d hd, hz e he]
  simp only [objects, mem_map, mem_range] at hd he
  obtain ⟨i, -, rfl⟩ := hd
  obtain ⟨k, -, rfl⟩ := he
  have := @object_apart at' size i k fun he => hne (he ▸ rfl)
  omega

lemma slabCount_pos (h : size ≤ binMax) : 0 < slabCount size := by
  have : size ≤ 1024 := h
  exact Nat.div_pos (by show size + 16 ≤ 16 * 4096; omega) (by omega)

end Slab

/-! ## A large block goes back -/

lemma freePages_spec (h : Inv s L [a]) (hl : a % 4096 = 0 ∧ (s.heap.mem a + 16) % 4096 = 0) :
    GivenBack s L [a] (freeKernelPages a ((s.heap.mem a + 16) / 4096)
      { s.heap with mem := setNext a 0 s.heap.mem }) := by
  have ha : s.Holds L [a] (.flight, a) := by simp [Sys.Holds]
  have hmem : ∀ τ, s.Holds L [a] τ → τ ≠ (.flight, a) → ∀ x, span s.heap.mem τ x →
      setNext a 0 s.heap.mem x = s.heap.mem x := by
    intro τ hτ hne x hx
    refine setNext_of_ne (fun he => hne ?_) _ _
    subst he
    exact h.apart.eq hτ ha hx (h.header_span ha).2
  have hout : ∀ {τ : Tag}, τ.1.Outside → τ ≠ (.flight, a) := by
    rintro τ (he | ⟨t, he⟩) rfl <;> cases he
  have hc : Change s L [a] (freeKernelPages a ((s.heap.mem a + 16) / 4096)
      { s.heap with mem := setNext a 0 s.heap.mem }) L [] (· = (.flight, a)) (fun _ => False)
      (fun _ => False) :=
  { mem := hmem
    outside := fun τ hτ ho => h.sameHeader hτ (hmem τ hτ (hout ho))
    keep := by
      rintro ⟨o, d⟩ hτ
      cases o with
      | box x | live | hand t => exact .inr ⟨hτ, by simp⟩
      | flight => cases hτ
    cover := fun _ => False.elim
    disj := fun _ _ => False.elim
    shape := fun _ => False.elim
    held := fun _ => False.elim
    pages := fun τ hτ hne x hx => by
      have hx' : ¬ span s.heap.mem (.flight, a) x := h.apart τ _ hτ ha hne x hx
      unfold span at hx'
      simp only at hx'
      have hheld := h.held τ hτ x hx
      simp only [freeKernelPages]
      rw [if_neg (by omega)]
      exact hheld
    same := fun x _ => ⟨rfl, by cases x <;> rfl, fun _ _ => by simp⟩
    slab := fun _ => id
    caches := fun _ _ _ => rfl
    nodup := fun _ => False.elim
    chain := fun _ => False.elim
    object := fun _ _ => False.elim
    spaced := False.elim
    count := fun _ _ => False.elim }
  exact ⟨⟨L, hc.inv h⟩, fun τ hτ ho x hx => hmem τ hτ (hout ho) x hx⟩

/-! ## Bytes behind a header -/

/-- Whatever is written to the bytes of one block, the heap is well formed. -/
lemma Inv.write_bytes (h : Inv s L X) {τ : Tag} (hτ : s.Holds L X τ) (hbox : ∀ x, τ.1 ≠ .box x) {mem' : Nat → Nat}
    (hm : ∀ x, ¬ (τ.2 + 16 ≤ x ∧ x < τ.2 + 16 + s.heap.mem τ.2) → mem' x = s.heap.mem x) :
    Inv { s with heap := { s.heap with mem := mem' } } L X ∧
      ∀ σ, s.Holds L X σ → σ ≠ τ → ∀ x, span s.heap.mem σ x → mem' x = s.heap.mem x := by
  have hother : ∀ σ, s.Holds L X σ → σ ≠ τ → ∀ x, span s.heap.mem σ x → mem' x = s.heap.mem x :=
    fun σ hσ hne x hx => hm x fun hx' => h.apart σ τ hσ hτ hne x hx ⟨by omega, hx'.2⟩
  have hheader : ∀ σ, s.Holds L X σ → SameHeader s.heap.mem mem' σ.2 := fun σ hσ => by
    by_cases hne : σ = τ
    · subst hne
      exact ⟨hm _ (by omega), hm _ (by omega)⟩
    · exact h.sameHeader hσ (hother σ hσ hne)
  have hspan : ∀ x, span mem' τ x ↔ span s.heap.mem τ x := fun x => by
    unfold span
    rw [(hheader τ hτ).1]
  have hc : Change s L X { s.heap with mem := mem' } L X (· = τ) (· = τ) (fun _ => False) :=
  { mem := hother
    outside := fun σ hσ _ => hheader σ hσ
    keep := fun σ hσ => by
      by_cases hne : σ = τ
      · exact .inl hne
      refine .inr ⟨?_, hne⟩
      obtain ⟨o, d⟩ := σ
      cases o <;> exact hσ
    cover := by
      rintro σ rfl x hx
      exact .inl ⟨σ, hτ, rfl, (hspan x).1 hx⟩
    disj := by
      rintro σ σ' rfl rfl hne
      exact absurd rfl hne
    shape := by
      rintro σ rfl
      exact (hheader σ hτ).shape (h.shape σ hτ)
    held := by
      rintro σ rfl x hx
      exact h.held σ hτ x ((hspan x).1 hx)
    pages := fun σ hσ _ x hx => h.held σ hσ x hx
    same := fun x _ => ⟨rfl, by cases x <;> rfl, fun a _ he => hbox x (he ▸ rfl)⟩
    slab := fun _ => id
    caches := fun _ _ _ => rfl
    nodup := fun _ => False.elim
    chain := fun _ => False.elim
    object := fun _ _ => False.elim
    spaced := False.elim
    count := fun _ _ => False.elim }
  exact ⟨hc.inv h, hother⟩

end Hermes.L2.Alloc
