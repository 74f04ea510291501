import Hermes.L2Mem.AllocSys
import Hermes.L2Mem.PmmBitmap

/-!
# The heap allocator, over every run

In every reachable state the blocks in the callers' hands are aligned, hold
what was asked for and overlap neither each other nor a header, a free
block or a cached object, and the allocator's lists are in order. What
`realloc` has to preserve is recorded when it is called.

* `heap_allocator`: the above, and that `realloc` (alloc.c:407) keeps the bytes.
* `allocKernelPages_takePages`: the page allocator may answer every range that the heap is given.
-/
namespace Hermes.L2.Alloc

open Function

variable {s : Sys} {L : Box → List Nat}

/-- The heap is well formed; `L` are the blocks of its lists. -/
structure WellFormed (s : Sys) (L : Box → List Nat) : Prop where
  /-- each list is the chain of its blocks -/
  chain : ∀ x, Chain (nextOf s.heap.mem) (s.head x) (L x)
  /-- sorted, without overlap, and no two free blocks touch -/
  free : (L .free).Pairwise fun a b => a + 16 + s.heap.mem a < b
  count : ∀ c b, (s.heap.caches c b).count = (L (.cache c b)).length
  nodup : ∀ x, (L x).Nodup
  /-- no object is on two lists -/
  once : ∀ x y a, a ∈ L x → a ∈ L y → x = y
  aligned : ∀ p n, (p, n) ∈ s.live → p ≠ 0 ∧ p % 16 = 0
  size : ∀ p n, (p, n) ∈ s.live → n ≤ s.heap.mem (p - 16)
  distinct : (s.live.map Prod.fst).Nodup
  /-- two live blocks do not overlap, headers included -/
  live : ∀ p n q m, (p, n) ∈ s.live → (q, m) ∈ s.live → p ≠ q →
    p + s.heap.mem (p - 16) ≤ q - 16 ∨ q + s.heap.mem (q - 16) ≤ p - 16
  /-- nor do a live block and one that is on a list -/
  listed : ∀ p n x a, (p, n) ∈ s.live → a ∈ L x → p + s.heap.mem (p - 16) ≤ a ∨ a + 16 + s.heap.mem a ≤ p - 16
  /-- nor a live block and one that a thread is allocating or freeing -/
  handed : ∀ p n t a, (p, n) ∈ s.live → a ∈ (s.pc t).hand → p + s.heap.mem (p - 16) ≤ a ∨ a + 16 + s.heap.mem a ≤ p - 16

lemma Inv.wellFormed (h : Inv s L []) : WellFormed s L := by
  have hlive : ∀ p n, (p, n) ∈ s.live → 16 ≤ p ∧ s.Holds L [] (.live, p - 16) := fun p n hp =>
    ⟨(h.given p n hp).header, n, by rwa [Nat.sub_add_cancel (h.given p n hp).header]⟩
  have hdisj : ∀ p n (τ : Tag), (p, n) ∈ s.live → s.Holds L [] τ → τ ≠ (.live, p - 16) →
      p + s.heap.mem (p - 16) ≤ τ.2 ∨ τ.2 + 16 + s.heap.mem τ.2 ≤ p - 16 := fun p n τ hp hτ hne => by
    obtain ⟨h16, hpl⟩ := hlive p n hp
    have h1 := h.apart τ _ hτ hpl hne (p - 16)
    have h2 := h.apart _ τ hpl hτ hne.symm τ.2
    unfold span at h1 h2
    simp only at h1 h2
    omega
  exact
  { chain := h.chain
    free := h.spaced
    count := h.count
    nodup := h.nodup
    once := fun x y a hx hy => by
      have := h.eq_of_addr (τ := (.box x, a)) (σ := (.box y, a)) hx hy rfl
      cases this
      rfl
    aligned := fun p n hp => by
      obtain ⟨h16, hpl⟩ := hlive p n hp
      have hal : (p - 16) % 16 = 0 := (h.shape _ hpl).aligned
      omega
    size := fun p n hp => (h.given p n hp).size
    distinct := h.distinct
    live := fun p n q m hp hq hne => by
      obtain ⟨h16, -⟩ := hlive p n hp
      obtain ⟨hq16, hql⟩ := hlive q m hq
      have := hdisj p n _ hp hql fun he => by
        have : q - 16 = p - 16 := congrArg Prod.snd he
        omega
      simp only at this
      omega
    listed := fun p n x a hp ha => hdisj p n (.box x, a) hp ha (by simp)
    handed := fun p n t a hp ha => hdisj p n (.hand t, a) hp ha (by simp) }

/-! ## What `realloc` has to preserve -/

/-- The block of the `realloc` that a thread is in. -/
def Pc.old : Pc → Option Nat
  | .bin (.realloc ptr _ _) | .slab (.realloc ptr _ _) | .push (.realloc ptr _ _) _ _
  | .large (.realloc ptr _ _) | .take (.realloc ptr _ _) | .grow (.realloc ptr _ _) _
  | .chunk (.realloc ptr _ _) _ => some ptr
  | .free ptr (some _) => some ptr
  | _ => none

/-- The size and the bytes of the block that a thread's last `realloc` was
called on. -/
abbrev Notes := Nat → Nat × (Nat → Nat)

def note (s : Sys) (g : Notes) : Ev → Notes
  | .realloc t ptr _ _ =>
    if s.pc t = .idle then update g t (s.heap.mem (ptr - 16), fun k => s.heap.mem (ptr + k)) else g
  | _ => g

/-- The heap, with what `realloc` has to preserve. -/
def tracked : LTS (Sys × Notes) Ev := LTS.ofFn (fun p => Sys.Boot p.1) (fun p e => (p.1.step e, note p.1 p.2 e))

/-- The old block still has the bytes noted. -/
def Noted (s : Sys) (g : Notes) : Prop := ∀ t ptr, (s.pc t).old = some ptr → s.heap.mem (ptr - 16) = (g t).1 ∧
    ∀ k < (g t).1, s.heap.mem (ptr + k) = (g t).2 k

lemma Pc.old_hand {pc : Pc} {ptr : Nat} (h : pc.old = some ptr) : ptr - 16 ∈ pc.hand := by
  have hj : ∀ j : Job, (match j with | .realloc ptr _ _ => some ptr | .malloc _ => none) = some ptr →
      ptr - 16 ∈ j.hand := by
    intro j hj
    cases j with
    | malloc size => cases hj
    | realloc p old size =>
      obtain rfl := Option.some.inj hj
      simp [Job.hand]
  cases pc with
  | idle => cases h
  | free p ret =>
    rcases ret with _ | ⟨new, n⟩
    · cases h
    obtain rfl := Option.some.inj h
    simp [Pc.hand]
  | chunk j block =>
    refine List.mem_cons_of_mem _ (hj j ?_)
    cases j <;> exact h
  | bin j | slab j | push j | large j | take j | grow j =>
    refine hj j ?_
    cases j <;> exact h

/-! ## How program counters move -/

section Pcs

variable {t t' : Nat} {j : Job} {ptr : Nat}

lemma fail_pc : (s.fail t j).pc = update s.pc t .idle := by
  cases j <;> rfl

lemma finish_pc : ∃ pc, (s.finish t j ptr).pc = update s.pc t pc ∧
    ∀ p, pc.old = some p → (Pc.take j).old = some p := by
  cases j with
  | malloc size => exact ⟨.idle, rfl, by nofun⟩
  | realloc old n size => exact ⟨.free old (some (ptr, size)), rfl, fun p hp => hp⟩

/-- A thread's own step stays with its `realloc`. -/
lemma run_pc (t cpu at' : Nat) (junk : Nat → Nat) : ∃ pc,
    (s.run t cpu at' junk).pc = update s.pc t pc ∧ ∀ p, pc.old = some p → (s.pc t).old = some p := by
  have hjob : ∀ {j : Job} {h : Heap} {ptr : Nat} {pc : Pc}, s.pc t = pc →
      (∀ p, (Pc.take j).old = some p → pc.old = some p) →
      ∃ pc', (Sys.finish t j ptr { s with heap := h }).pc = update s.pc t pc' ∧
        ∀ p, pc'.old = some p → (s.pc t).old = some p := by
    intro j h ptr pc hpc hold
    obtain ⟨pc', h1, h2⟩ := @finish_pc { s with heap := h } t j ptr
    exact ⟨pc', h1, fun p hp => by rw [hpc]; exact hold p (h2 p hp)⟩
  unfold Sys.run
  cases hpc : s.pc t with
  | idle => exact ⟨.idle, by simp [← hpc], by nofun⟩
  | bin j =>
    simp only
    split
    · rw [← hpc]
      exact hjob hpc fun p hp => by cases j <;> exact hp
    · exact ⟨.slab j, rfl, fun p hp => by cases j <;> exact hp⟩
  | slab j =>
    simp only
    split
    · exact ⟨.take j, rfl, fun p hp => by cases j <;> exact hp⟩
    · exact ⟨_, rfl, fun p hp => by cases j <;> exact hp⟩
  | push j head tail => exact ⟨.bin j, rfl, fun p hp => by cases j <;> exact hp⟩
  | large j =>
    simp only
    split
    · exact ⟨.take j, rfl, fun p hp => by cases j <;> exact hp⟩
    rw [← hpc]
    exact hjob hpc fun p hp => by cases j <;> exact hp
  | take j =>
    simp only
    split
    · rw [← hpc]
      exact hjob hpc fun p hp => hp
    · exact ⟨.grow j false, rfl, fun p hp => by cases j <;> exact hp⟩
  | grow j again =>
    simp only
    split
    · exact ⟨_, rfl, fun p hp => by cases j <;> exact hp⟩
    split
    · exact ⟨.grow j true, rfl, fun p hp => by cases j <;> exact hp⟩
    · exact ⟨.idle, fail_pc, by nofun⟩
  | chunk j block => exact ⟨.take j, rfl, fun p hp => by cases j <;> exact hp⟩
  | free q ret =>
    rcases ret with _ | ⟨new, n⟩ <;> exact ⟨.idle, rfl, by nofun⟩

lemma start_pc : ∃ pc, (s.start t j).pc = update s.pc t pc ∧ ∀ p, pc.old = some p → (Pc.take j).old = some p := by
  unfold Sys.start
  split
  · exact ⟨.idle, fail_pc, by nofun⟩
  split
  · exact ⟨.bin j, rfl, fun p hp => by cases j <;> exact hp⟩
  split
  · exact ⟨.large j, rfl, fun p hp => by cases j <;> exact hp⟩
  · exact ⟨.take j, rfl, fun p hp => hp⟩

lemma start_heap : (s.start t j).heap = s.heap := by
  unfold Sys.start
  split
  · cases j <;> rfl
  split
  · rfl
  · split <;> rfl

lemma update_old {pcs : Nat → Pc} {pc : Pc} (h : (update pcs t pc t').old = some ptr) :
    (t' ≠ t ∧ (pcs t').old = some ptr) ∨ (t' = t ∧ pc.old = some ptr) := by
  by_cases ht : t' = t
  · subst ht
    exact .inr ⟨rfl, by simpa using h⟩
  · exact .inl ⟨ht, by simpa [ht] using h⟩

/-- A thread that is in a `realloc` after a step was in it before, or the
step was the call. -/
lemma step_old (e : Ev) (h : ((s.step e).pc t).old = some ptr) : (s.pc t).old = some ptr ∨
      (∃ old size, e = .realloc t ptr old size) ∧ s.pc t = .idle ∧ (s.step e).heap = s.heap := by
  cases e with simp only [Sys.step] at h ⊢
  | malloc u size =>
    split at h
    · obtain ⟨pc, h1, h2⟩ := @start_pc s u (.malloc size)
      rw [h1] at h
      rcases update_old h with ⟨-, h⟩ | ⟨-, h⟩
      · exact .inl h
      · cases h2 _ h
    · exact .inl h
  | free u p n =>
    split at h
    · rcases update_old h with ⟨-, h⟩ | ⟨-, h⟩
      · exact .inl h
      · cases h
    · exact .inl h
  | realloc u p old size =>
    split at h
    swap
    · exact .inl h
    rename_i hc
    rw [if_pos hc]
    split at h
    · rcases update_old h with ⟨-, h⟩ | ⟨-, h⟩
      · exact .inl h
      · cases h
    rename_i h0
    rw [if_neg h0]
    split at h
    · exact .inl h
    rename_i htag
    rw [if_neg htag]
    split at h
    · exact .inl h
    rename_i hfit
    rw [if_neg hfit]
    obtain ⟨pc, h1, h2⟩ := @start_pc (s.take p old) u (.realloc p old size)
    rw [h1] at h
    rcases update_old h with ⟨-, h⟩ | ⟨rfl, hpc⟩
    · exact .inl h
    obtain rfl := Option.some.inj (h2 _ hpc)
    exact .inr ⟨⟨old, size, rfl⟩, hc.1, start_heap⟩
  | run u cpu at' junk =>
    obtain ⟨pc, h1, h2⟩ := @run_pc s u cpu at' junk
    rw [h1] at h
    rcases update_old h with ⟨-, h⟩ | ⟨rfl, hpc⟩
    · exact .inl h
    · exact .inl (h2 _ hpc)
  | store p n off v =>
    split at h <;> exact .inl h

end Pcs

/-! ## Runs -/

lemma Inv.old_header (h : Inv s L []) {t ptr : Nat} (ho : (s.pc t).old = some ptr) : 16 ≤ ptr := by
  have hp := h.pc t
  have hj : ∀ {j : Job}, JobOk s.heap.mem j → (Pc.take j).old = some ptr → 16 ≤ ptr := by
    intro j hj hpj
    cases j with
    | malloc size => cases hpj
    | realloc p old size =>
      obtain rfl := Option.some.inj hpj
      exact (hj.old p old size rfl).1.header
  cases hpc : s.pc t with rw [hpc] at ho hp
  | idle => cases ho
  | free p ret =>
    rcases ret with _ | ⟨new, n⟩
    · cases ho
    obtain rfl := Option.some.inj ho
    exact hp.2.1
  | push j head tail =>
    exact hj hp.1 (by cases j <;> exact ho)
  | bin j | slab j | chunk j =>
    exact hj hp.2.1 (by cases j <;> exact ho)
  | large j | take j | grow j =>
    exact hj hp.2 (by cases j <;> exact ho)

/-- The invariant of a run. -/
structure RunInv (s : Sys) (g : Notes) : Prop where
  inv : ∃ L, Inv s L []
  noted : Noted s g
  copied : ∀ t, s.Copied t

lemma RunInv.step {g : Notes} (h : RunInv s g) (e : Ev) : RunInv (s.step e) (note s g e) := by
  obtain ⟨L, hinv⟩ := h.inv
  have hg := step_good hinv e
  refine ⟨hg.inv, fun t ptr ho => ?_, fun t => ?_⟩
  · rcases step_old e ho with hold | ⟨⟨old, size, rfl⟩, hidle, hheap⟩
    swap
    · rw [hheap]
      simp [note, hidle]
    -- the old block has been in hand all the time
    have hnote : note s g e t = g t := by
      cases e with
      | realloc u p old size =>
        simp only [note]
        split
        · rename_i hi
          have : t ≠ u := fun he => by
            rw [he, hi] at hold
            cases hold
          simp [this]
        · rfl
      | _ => rfl
    obtain ⟨hsize, hbytes⟩ := h.noted t ptr hold
    have h16 := hinv.old_header hold
    have hkeep := hg.keeps t (ptr - 16) (Pc.old_hand hold) (.inl (Pc.old_hand ho))
    rw [hnote]
    refine ⟨by rw [hkeep _ (by omega) (by omega), hsize], fun k hk => ?_⟩
    rw [hkeep (ptr + k) (by omega) (by omega)]
    exact hbytes k hk
  · rcases hg.copied t with hsame | hc
    swap
    · exact hc
    intro ptr new size he k hk
    rw [hsame] at he
    have hp := hinv.pc t
    rw [he] at hp
    obtain ⟨-, h16, -, hret⟩ := hp
    obtain ⟨hgiven, -, hlt⟩ := hret new size rfl
    have hn16 := hgiven.header
    have hnsz := hgiven.size
    have hptr := hg.keeps t (ptr - 16) (by simp [he, Pc.hand]) (.inl (by simp [hsame, he, Pc.hand]))
    have hnew := hg.keeps t (new - 16) (by simp [he, Pc.hand]) (.inl (by simp [hsame, he, Pc.hand]))
    rw [hptr _ (by omega) (by omega)] at hk
    rw [hptr (ptr + k) (by omega) (by omega), hnew (new + k) (by omega) (by omega)]
    exact h.copied t ptr new size he k hk

/-- No block anywhere. -/
lemma inv_empty {h : Heap} (he : Sys.Empty h) (hpc : ∀ t, s.pc t = .idle) (hlive : s.live = []) :
    Inv { s with heap := h } (fun _ => []) [] := by
  obtain ⟨h1, h2, h3, _⟩ := he
  have hnone : ∀ τ, ¬ ({ s with heap := h } : Sys).Holds (fun _ => []) [] τ := by
    rintro ⟨o, a⟩
    cases o <;> simp [Sys.Holds, hpc, hlive, Pc.hand]
  exact
  { apart := fun τ _ hτ => absurd hτ (hnone τ)
    shape := fun τ hτ => absurd hτ (hnone τ)
    held := fun τ hτ => absurd hτ (hnone τ)
    nodup := fun _ => List.nodup_nil
    chain := fun x => by cases x <;> simp [Chain, Seg, Sys.head, h1, h2, h3, hpc, Pc.slabHead]
    object := by simp
    spaced := List.Pairwise.nil
    count := fun c b => by simp [h3]
    given := by simp [hlive]
    distinct := by simp [hlive]
    pc := fun t => by
      rw [show ({ s with heap := h } : Sys).pc t = .idle from hpc t]
      rfl }

/-- `memory_initialize` -/
lemma boot_inv (hb : Sys.Boot s) : ∃ L, Inv s L [] := by
  obtain ⟨⟨h, at', junk, he, hgot, hheap⟩, hpc, hlive⟩ := hb
  have h0 := inv_empty he hpc hlive
  obtain ⟨haddr, -⟩ := allocKernelPages_some hgot
  have hf : Fresh h (newChunk heapInitialSize (allocKernelPages at' junk (heapInitialSize / 4096) h)) at'
      (heapInitialSize / 4096) [at'] := by
    unfold newChunk
    rw [haddr]
    exact fresh_chunk (by decide) hgot (by rw [setSize_self]; rfl) fun x h1 _ => setSize_of_ne h1
  have h1 := (Fresh.change (s := { s with heap := h }) hf h0).inv h0
  obtain ⟨⟨L, hL⟩, -⟩ := insertFree_spec h1
  refine ⟨L, ?_⟩
  have : s = { s with heap := memoryInitialize at' junk h } := by rw [← hheap]
  rw [this, memoryInitialize, haddr]
  exact hL

lemma reachable_runInv {g : Notes} (h : tracked.Reachable (s, g)) : RunInv s g := by
  refine LTS.Inductive.reachable (I := fun p => RunInv p.1 p.2) ⟨fun p hp => ?_, ?_⟩ h
  · have hidle : ∀ t, p.1.pc t = .idle := hp.2.1
    refine ⟨boot_inv hp, fun t ptr ho => ?_, fun t ptr new size he => ?_⟩
    · rw [hidle t] at ho
      cases ho
    rw [hidle t] at he
    cases he
  · rintro p e q hp rfl
    exact hp.step e

/-- The heap allocator, in every reachable state: the blocks and the lists are
in order; `realloc` that returns another block returns one with the bytes
that the old one had when it was called, and `realloc` in place changes no
byte. -/
theorem heap_allocator {g : Notes} (h : tracked.Reachable (s, g)) : (∃ L, WellFormed s L) ∧
    (∀ t cpu at' junk ptr new size, s.pc t = .free ptr (some (new, size)) →
      (new, size) ∈ (s.step (.run t cpu at' junk)).live ∧ (g t).1 < size ∧
      ∀ k < (g t).1, (s.step (.run t cpu at' junk)).heap.mem (new + k) = (g t).2 k) ∧
    (∀ t ptr old size, s.pc t = .idle → (ptr, old) ∈ s.live → 0 < size → size ≤ s.heap.mem (ptr - 16) →
      (ptr, size) ∈ (s.step (.realloc t ptr old size)).live ∧
      (s.step (.realloc t ptr old size)).heap.mem = s.heap.mem) := by
  have hrun := reachable_runInv h
  obtain ⟨L, hinv⟩ := hrun.inv
  refine ⟨⟨L, hinv.wellFormed⟩, fun t cpu at' junk ptr new size hpc => ?_, fun t ptr old size hpc hm h0 hfit => ?_⟩
  · have hlive : (new, size) ∈ (s.step (.run t cpu at' junk)).live := by
      simp [Sys.step, Sys.run, hpc, Sys.give, Sys.goto]
    have hp := hinv.pc t
    rw [hpc] at hp
    obtain ⟨-, h16, -, hret⟩ := hp
    obtain ⟨hgiven, -, hlt⟩ := hret new size rfl
    have hn16 := hgiven.header
    have hnsz := hgiven.size
    obtain ⟨hsize, hbytes⟩ := hrun.noted t ptr (by rw [hpc]; rfl)
    refine ⟨hlive, by omega, fun k hk => ?_⟩
    have hnew := (step_good hinv (.run t cpu at' junk)).keeps t (new - 16) (by simp [hpc, Pc.hand])
      (.inr ⟨size, by rwa [Nat.sub_add_cancel hn16]⟩)
    rw [hnew (new + k) (by omega) (by omega), hrun.copied t ptr new size hpc k (by omega)]
    exact hbytes k hk
  · have hg := hinv.given ptr old hm
    have htag : ¬ (nextOf s.heap.mem (ptr - 16) ≠ blockUsed ∧ nextOf s.heap.mem (ptr - 16) ≠ blockLarge) := by
      rcases hg.tagged with ht | ⟨ht, -⟩ <;> simp [ht]
    simp only [Sys.step, hpc, hm, htag, hfit, ne_of_gt h0]
    exact ⟨by simp [Sys.give], rfl⟩

/-! A block of 64 bytes from a new slab, by way of the CPU's cache of its bin,
written to and then grown to 3000; the old block goes back into the cache. -/

def emptyHeap : Heap := ⟨fun _ => 0, 0, fun _ => 0, fun _ _ => ⟨0, 0⟩, fun _ => false⟩

/-- The heap after `memory_initialize` with the first chunk at 4096. -/
def booted : Sys where
  heap := { emptyHeap with
      mem := setNext 4096 0 (setSize 4096 (heapInitialSize - 16) fun _ => 0)
      firstFree := 4096
      held := fun p => if 1 ≤ p ∧ p < 8193 then true else false }
  pc := fun _ => .idle
  live := []

/-- Thread 0 goes on, on CPU 0, with free pages at `0x3000000`. -/
def goOn : Ev := .run 0 0 0x3000000 fun _ => 0

def growBlock : List Ev := [.malloc 0 64, goOn, goOn, goOn, goOn, .store 0x3000010 64 5 7, .realloc 0 0x3000010 64 3000, goOn]

@[irreducible]
def growBlockEnd : Sys × Notes :=
  growBlock.foldl (fun p e => (p.1.step e, note p.1 p.2 e)) (booted, fun _ => (0, fun _ => 0))

lemma booted_boot : booted.Boot := by
  have hgot : allocKernelPages 4096 (fun _ => 0) (heapInitialSize / 4096) emptyHeap =
      (4096, { emptyHeap with held := fun p => if 1 ≤ p ∧ p < 8193 then true else false }) := by
    unfold allocKernelPages
    simp [emptyHeap, heapInitialSize]
  refine ⟨⟨emptyHeap, 4096, fun _ => 0, ⟨rfl, fun _ => rfl, fun _ _ => rfl, fun _ => rfl⟩, ?_, ?_⟩, fun _ => rfl, rfl⟩
  · rw [hgot]
    decide
  rw [memoryInitialize, hgot]
  simp [insertFreeLocked, findPlace, joinNext, newChunk, booted, emptyHeap]

lemma growBlock_reachable : tracked.Reachable growBlockEnd := by
  unfold growBlockEnd
  exact ⟨(booted, fun _ => (0, fun _ => 0)), growBlock, booted_boot, LTS.run_ofFn _ _ growBlock _⟩

theorem heap_allocator_grown : growBlockEnd.1.pc 0 = .free 0x3000010 (some (4112, 3000)) ∧ (growBlockEnd.2 0).2 5 = 7 ∧
    (growBlockEnd.1.step goOn).heap.mem (4112 + 5) = (growBlockEnd.2 0).2 5 := by
  have hpc : growBlockEnd.1.pc 0 = .free 0x3000010 (some (4112, 3000)) := by decide +kernel
  have hsize : 5 < (growBlockEnd.2 0).1 := by decide +kernel
  have hkept := (heap_allocator growBlock_reachable).2.1 0 0 0x3000000 (fun _ => 0) _ _ _ hpc
  exact ⟨hpc, by decide +kernel, hkept.2.2 5 hsize⟩

/-! ## Where the pages come from -/

/-- A range that `take_pages` answers may be given to the heap, and the pages
the heap holds are then still among those handed out: `allocKernelPages` asks
of its range no more than the page allocator promises. -/
lemma allocKernelPages_takePages {m : Pmm.Memory} {b : Pmm.Sys} (hb : (Pmm.system m).Reachable b) {n : Nat} (hn : 0 < n)
    {h : Heap} (hheld : ∀ p, h.held p = true → b.live p = true) (junk : Nat → Nat)
    (h0 : (b.bits.takePages m n).1 ≠ 0) (hlim : (b.bits.takePages m n).1 + n * 4096 ≤ 2 ^ 64) :
    (allocKernelPages (b.bits.takePages m n).1 junk n h).1 = (b.bits.takePages m n).1 ∧
      ∀ p, (allocKernelPages (b.bits.takePages m n).1 junk n h).2.held p = true →
        (Pmm.step m b (.takePages n)).live p = true := by
  have hi := Pmm.reachable_inv hb
  obtain ⟨hz, -⟩ | ⟨first, hf, -, ht⟩ := (Pmm.Bitmap.takePages_spec hi.bits hn).2
  · exact absurd hz h0
  have hdiv : (b.bits.takePages m n).1 / 4096 = first := by rw [hf, Nat.mul_div_cancel _ (by decide)]
  have hfree : ∀ k < n, h.held (first + k) = false := fun k hk => by
    by_contra hc
    have hu := hi.live _ (hheld _ (Bool.not_eq_false _ ▸ hc))
    rw [ht.free _ (Nat.le_add_right _ _) (Nat.add_lt_add_left hk _)] at hu
    cases hu
  have hok : (b.bits.takePages m n).1 ≠ 0 ∧ (b.bits.takePages m n).1 % 4096 = 0 ∧
      (b.bits.takePages m n).1 + n * 4096 ≤ 2 ^ 64 ∧ ∀ k < n, h.held ((b.bits.takePages m n).1 / 4096 + k) = false :=
    ⟨h0, by rw [hf, Nat.mul_mod_left], hlim, by rwa [hdiv]⟩
  rw [allocKernelPages, if_pos hok, Pmm.step, if_neg hn.ne']
  refine ⟨rfl, fun p hp => ?_⟩
  simp only [Pmm.grant, Bool.or_eq_true, decide_eq_true_eq]
  by_cases hin : (b.bits.takePages m n).1 / 4096 ≤ p ∧ p < (b.bits.takePages m n).1 / 4096 + n
  · exact .inr ⟨h0, hin⟩
  · dsimp only at hp
    rw [if_neg hin] at hp
    exact .inl (hheld p hp)

end Hermes.L2.Alloc
