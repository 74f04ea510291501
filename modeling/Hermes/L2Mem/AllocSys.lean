import Hermes.L2Mem.AllocPages

/-!
# The heap allocator, one step

Blocks pass between the heap, the threads inside the allocator and the
callers. `Inv.regroup` is the rule for the latter two; with the operations
on the heap it gives the step lemma.
-/
namespace Hermes.L2.Alloc

open Function List

variable {s : Sys} {L : Box → List Nat} {X : List Nat}

/-! ## Between threads and callers -/

/-- The addresses of the blocks with the callers, with one thread, on its
slab, and in flight. -/
def addrs (pc : Pc) (live : List (Nat × Nat)) (slab X : List Nat) : List Nat :=
  live.map (fun p => p.1 - 16) ++ pc.hand ++ slab ++ X

/-- The same blocks with their owners. -/
def around (t : Nat) (pc : Pc) (live : List (Nat × Nat)) (slab X : List Nat) : List Tag :=
  live.map (fun p => (.live, p.1 - 16)) ++ pc.hand.map (.hand t, ·) ++ slab.map (.box (.slab t), ·) ++
    X.map (.flight, ·)

lemma around_addrs (t : Nat) (pc : Pc) (live : List (Nat × Nat)) (slab X : List Nat) :
    (around t pc live slab X).map Prod.snd = addrs pc live slab X := by
  simp [around, addrs]

def Near (t : Nat) (o : Owner) : Prop := o = .live ∨ o = .hand t ∨ o = .box (.slab t) ∨ o = .flight

lemma near_of_around {t : Nat} {pc : Pc} {live : List (Nat × Nat)} {slab : List Nat} {τ : Tag}
    (h : τ ∈ around t pc live slab X) : Near t τ.1 := by
  simp only [around, mem_append, mem_map] at h
  rcases h with ((⟨p, -, rfl⟩ | ⟨a, -, rfl⟩) | ⟨a, -, rfl⟩) | ⟨a, -, rfl⟩
  · exact .inl rfl
  · exact .inr (.inl rfl)
  · exact .inr (.inr (.inl rfl))
  · exact .inr (.inr (.inr rfl))

lemma mem_around {t : Nat} (hg : ∀ p n, (p, n) ∈ s.live → 16 ≤ p) {τ : Tag} (hn : Near t τ.1) :
    τ ∈ around t (s.pc t) s.live (L (.slab t)) X ↔ s.Holds L X τ := by
  obtain ⟨o, a⟩ := τ
  simp only [around, mem_append, mem_map, Prod.mk.injEq]
  rcases hn with rfl | rfl | rfl | rfl
  · simp only [reduceCtorEq, false_and, and_false, exists_false, or_false, true_and]
    constructor
    · rintro ⟨⟨p, n⟩, hp, rfl⟩
      exact ⟨n, by rwa [Nat.sub_add_cancel (hg p n hp)]⟩
    rintro ⟨n, hp⟩
    exact ⟨(a + 16, n), hp, by simp⟩
  · simp [Sys.Holds]
  · simp [Sys.Holds]
  · simp [Sys.Holds]

variable {mem : Nat → Nat} {h' : Heap} {s' : Sys}

lemma PcOk.hand_nodup {slab : List Nat} {pc : Pc} (h : PcOk mem slab pc) : pc.hand.Nodup := by
  have hj : ∀ j : Job, j.hand.Nodup := fun j => by cases j <;> simp [Job.hand]
  cases pc with
  | idle => exact nodup_nil
  | bin j | slab j | push j head tail | large j | take j | grow j again => exact hj j
  | chunk j block => exact nodup_cons.2 ⟨h.2.2, hj j⟩
  | free ptr ret =>
    rcases ret with _ | ⟨new, n⟩
    · exact nodup_singleton _
    obtain ⟨-, h1, -, h2⟩ := h
    obtain ⟨hg, hne, -⟩ := h2 new n rfl
    have := hg.header
    simp only [Pc.hand, nodup_cons, mem_singleton, not_mem_nil, not_false_eq_true, nodup_nil, and_self, and_true]
    omega

lemma Inv.addrs_nodup (h : Inv s L X) (hX : X.Nodup) (t : Nat) : (addrs (s.pc t) s.live (L (.slab t)) X).Nodup := by
  have hg : ∀ p n, (p, n) ∈ s.live → 16 ≤ p := fun p n hp => (h.given p n hp).header
  have hheld : ∀ τ ∈ around t (s.pc t) s.live (L (.slab t)) X, s.Holds L X τ := fun τ hτ =>
    (mem_around hg (near_of_around hτ)).1 hτ
  have hlive : (s.live.map fun p => ((.live, p.1 - 16) : Tag)).Nodup := by
    have hd := h.distinct
    refine List.Nodup.map_on (fun p hp q hq he => ?_) (List.Nodup.of_map _ hd)
    have h1 := hg p.1 p.2 hp
    have h2 := hg q.1 q.2 hq
    have h3 : p.1 - 16 = q.1 - 16 := congrArg Prod.snd he
    exact inj_on_of_nodup_map hd hp hq (by omega)
  rw [← around_addrs t]
  refine List.Nodup.map_on (fun τ hτ σ hσ he => h.eq_of_addr (hheld τ hτ) (hheld σ hσ) he) ?_
  have hinj : ∀ (o : Owner) (l : List Nat), l.Nodup → (l.map fun a => ((o, a) : Tag)).Nodup :=
    fun o l hl => hl.map fun a b he => congrArg Prod.snd he
  refine List.Nodup.append (List.Nodup.append (hlive.append (hinj _ _ (h.pc t).hand_nodup) ?_)
    (hinj _ _ (h.nodup _)) ?_) (hinj _ _ hX) ?_
  · intro τ h1 h2
    simp only [mem_map] at h1 h2
    obtain ⟨p, -, rfl⟩ := h1
    obtain ⟨a, -, he⟩ := h2
    cases he
  · intro τ h1 h2
    simp only [mem_append, mem_map] at h1 h2
    obtain ⟨a, -, rfl⟩ := h2
    rcases h1 with ⟨p, -, he⟩ | ⟨d, -, he⟩ <;> cases he
  · intro τ h1 h2
    simp only [mem_append, mem_map] at h1 h2
    obtain ⟨a, -, rfl⟩ := h2
    rcases h1 with (⟨p, -, he⟩ | ⟨d, -, he⟩) | ⟨d, -, he⟩ <;> cases he

/-- The state after thread `t` has passed on blocks. -/
def Sys.pass (t : Nat) (pc : Pc) (live : List (Nat × Nat)) (s : Sys) : Sys :=
  { s with pc := update s.pc t pc, live := live }

section Regroup

variable {t : Nat} {pc' : Pc} {live' : List (Nat × Nat)} {l' X' : List Nat}

lemma not_near_holds {τ : Tag} (hn : ¬ Near t τ.1) :
    (s.pass t pc' live').Holds (update L (.slab t) l') X' τ ↔ s.Holds L X τ := by
  obtain ⟨o, a⟩ := τ
  simp only [Near, not_or] at hn
  obtain ⟨h1, h2, h3, h4⟩ := hn
  cases o with
  | box x =>
    have : x ≠ .slab t := fun he => h3 (he ▸ rfl)
    simp [Sys.Holds, this]
  | live => exact absurd rfl h1
  | hand t' =>
    have : t' ≠ t := fun he => h2 (he ▸ rfl)
    simp [Sys.Holds, Sys.pass, this]
  | flight => exact absurd rfl h4

/-- Blocks may pass between the callers, a thread, its slab and the middle
of a step, as long as each ends up in one hand. -/
lemma Inv.regroup (h : Inv s L X) (hX : X.Nodup) (t : Nat) (pc' : Pc) (live' : List (Nat × Nat)) (l' X' : List Nat)
    (hperm : (addrs pc' live' l' X').Perm (addrs (s.pc t) s.live (L (.slab t)) X))
    (hchain : Chain (nextOf s.heap.mem) pc'.slabHead l')
    (hobj : ∀ n, pc'.slabSize = some n → ∀ a ∈ l', s.heap.mem a = n)
    (hgiven : ∀ p n, (p, n) ∈ live' → Given s.heap.mem p n)
    (hpc : PcOk s.heap.mem l' pc') :
    Inv (s.pass t pc' live') (update L (.slab t) l') X' := by
  have hnd := hperm.nodup_iff.2 (h.addrs_nodup hX t)
  have hg : ∀ p n, (p, n) ∈ s.live → 16 ≤ p := fun p n hp => (h.given p n hp).header
  have haround : ∀ τ, Near t τ.1 → (s.pass t pc' live').Holds (update L (.slab t) l') X' τ →
      τ ∈ around t pc' live' l' X' := fun τ hn hτ => by
    have := (@mem_around (s.pass t pc' live') (update L (.slab t) l') X' t
      (fun p n hp => (hgiven p n hp).header) _ hn).2 hτ
    simpa [Sys.pass] using this
  -- every block was there before, and no address is held twice
  have hsrc : ∀ τ, (s.pass t pc' live').Holds (update L (.slab t) l') X' τ →
      ∃ σ, s.Holds L X σ ∧ σ.2 = τ.2 ∧ (Near t τ.1 → Near t σ.1) := fun τ hτ => by
    by_cases hn : Near t τ.1
    swap
    · exact ⟨τ, (not_near_holds hn).1 hτ, rfl, fun hn' => absurd hn' hn⟩
    have hm : τ.2 ∈ addrs pc' live' l' X' := by
      rw [← around_addrs t]
      exact mem_map_of_mem (haround τ hn hτ)
    rw [hperm.mem_iff, ← around_addrs t] at hm
    obtain ⟨σ, hσ, he⟩ := mem_map.1 hm
    have hσn := near_of_around hσ
    exact ⟨σ, (mem_around hg hσn).1 hσ, he, fun _ => hσn⟩
  have huniq : ∀ τ σ, (s.pass t pc' live').Holds (update L (.slab t) l') X' τ →
      (s.pass t pc' live').Holds (update L (.slab t) l') X' σ → τ.2 = σ.2 → τ = σ := by
    -- a block that stays with its owner is not one of those passed on
    have hmix : ∀ τ σ, (s.pass t pc' live').Holds (update L (.slab t) l') X' τ →
        (s.pass t pc' live').Holds (update L (.slab t) l') X' σ → τ.2 = σ.2 →
        Near t τ.1 → Near t σ.1 := fun τ σ hτ hσ he hn => by
      by_contra hn'
      obtain ⟨τ0, hτ0, heτ, hnτ⟩ := hsrc τ hτ
      rw [h.eq_of_addr hτ0 ((not_near_holds hn').1 hσ) (heτ.trans he)] at hnτ
      exact hn' (hnτ hn)
    intro τ σ hτ hσ he
    by_cases hn : Near t τ.1
    · refine inj_on_of_nodup_map ?_ (haround τ hn hτ) (haround σ (hmix τ σ hτ hσ he hn) hσ) he
      rwa [around_addrs]
    have hn' : ¬ Near t σ.1 := fun hn' => hn (hmix σ τ hσ hτ he.symm hn')
    exact h.eq_of_addr ((not_near_holds hn).1 hτ) ((not_near_holds hn').1 hσ) he
  have hnd' := hnd
  simp only [addrs, nodup_append] at hnd'
  have hlist : ∀ x, x ≠ .slab t → update L (.slab t) l' x = L x := fun x hx => by simp [hx]
  have hslab : ∀ {t'}, t' ≠ t → (s.pass t pc' live').pc t' = s.pc t' := fun ht => by simp [Sys.pass, ht]
  exact
  { apart := fun τ σ hτ hσ hne x hx hx' => by
      obtain ⟨τ0, hτ0, heτ, -⟩ := hsrc τ hτ
      obtain ⟨σ0, hσ0, heσ, -⟩ := hsrc σ hσ
      have h0 := h.apart.eq hτ0 hσ0 (x := x) (by unfold span; rw [heτ]; exact hx) (by unfold span; rw [heσ]; exact hx')
      exact hne (huniq τ σ hτ hσ (by rw [← heτ, ← heσ, h0]))
    shape := fun τ hτ => by
      obtain ⟨σ, hσ, he, -⟩ := hsrc τ hτ
      exact he ▸ h.shape σ hσ
    held := fun τ hτ x hx => by
      obtain ⟨σ, hσ, he, -⟩ := hsrc τ hτ
      exact h.held σ hσ x (by unfold span; rw [he]; exact hx)
    nodup := fun x => by
      by_cases hx : x = .slab t
      · subst hx
        rw [update_self]
        exact hnd'.1.2.1
      · rw [hlist x hx]
        exact h.nodup x
    chain := fun x => by
      by_cases hx : x = .slab t
      · subst hx
        rw [update_self]
        simpa [Sys.head, Sys.pass] using hchain
      have hhead : (s.pass t pc' live').head x = s.head x := by
        cases x with
        | slab t' => rw [Sys.head, hslab fun he => hx (he ▸ rfl)]; rfl
        | _ => rfl
      rw [hlist x hx, hhead]
      exact h.chain x
    object := fun x n hn a ha => by
      by_cases hx : x = .slab t
      · subst hx
        rw [update_self] at ha
        refine hobj n ?_ a ha
        simpa [Box.objectSize, Sys.pass] using hn
      rw [hlist x hx] at ha
      refine h.object x n ?_ a ha
      cases x with
      | slab t' =>
        rw [Box.objectSize, hslab fun he => hx (he ▸ rfl)] at hn
        exact hn
      | _ => exact hn
    spaced := by
      rw [hlist _ (by simp)]
      exact h.spaced
    count := fun c b => by
      rw [hlist _ (by simp)]
      exact h.count c b
    given := hgiven
    distinct := by
      have hm : (live'.map fun p => p.1 - 16) = (live'.map Prod.fst).map (· - 16) := by simp
      rw [hm] at hnd'
      exact List.Nodup.of_map _ hnd'.1.1.1
    pc := fun t' => by
      by_cases ht : t' = t
      · subst ht
        simpa [Sys.pass] using hpc
      rw [hslab ht, hlist _ (by simp [ht])]
      exact h.pc t' }

end Regroup

/-! ## One step -/

/-- Blocks that stay in the hand of a thread or go from it to a caller are
as they were. -/
def Sys.Keeps (s s' : Sys) : Prop := ∀ t a, a ∈ (s.pc t).hand → (a ∈ (s'.pc t).hand ∨ ∃ n, (a + 16, n) ∈ s'.live) →
    ∀ x, a ≤ x → x < a + 16 + s.heap.mem a → s'.heap.mem x = s.heap.mem x

/-- The new block of a `realloc` that frees the old one has the bytes of the
old one. -/
def Sys.Copied (s : Sys) (t : Nat) : Prop := ∀ ptr new size, s.pc t = .free ptr (some (new, size)) →
    ∀ k < s.heap.mem (ptr - 16), s.heap.mem (new + k) = s.heap.mem (ptr + k)

/-- What a step guarantees. -/
structure Good (s s' : Sys) : Prop where
  inv : ∃ L', Inv s' L' []
  keeps : s.Keeps s'
  copied : ∀ t, s'.pc t = s.pc t ∨ s'.Copied t

lemma Untouched.keeps (hu : Untouched s L X h') (he : s'.heap.mem = h'.mem) : s.Keeps s' := fun t a ha _ x h1 h2 => by
  rw [he]
  exact hu (.hand t, a) ha (.inr ⟨t, rfl⟩) x ⟨h1, h2⟩

lemma Sys.keeps_of_mem (he : s'.heap.mem = s.heap.mem) : s.Keeps s' := fun _ _ _ _ _ _ _ => by rw [he]

/-- Not the step of `realloc` that follows the copy. -/
@[simp] def Pc.NoCopy (pc : Pc) : Prop := ∀ ptr r, pc ≠ .free ptr (some r)

lemma Pc.NoCopy.pass {t : Nat} {pc' : Pc} {live' : List (Nat × Nat)} (h : pc'.NoCopy) (t' : Nat) :
    ({ s.pass t pc' live' with heap := h' } : Sys).pc t' = s.pc t' ∨
      ({ s.pass t pc' live' with heap := h' } : Sys).Copied t' := by
  by_cases ht : t' = t
  · subst ht
    refine .inr fun ptr new size he => absurd ?_ (h ptr (new, size))
    simpa [Sys.pass] using he
  · exact .inl (by simp [Sys.pass, ht])

namespace Job

variable (j : Job)

lemma size_le : j.size ≤ j.aligned := by
  unfold Job.aligned alignUp
  omega

lemma aligned_mod : j.aligned % 16 = 0 := by
  unfold Job.aligned alignUp
  omega

lemma aligned_pos (h : 0 < j.size) : 16 ≤ j.aligned := by
  have := j.size_le
  have := j.aligned_mod
  omega

lemma bin_aligned (h : 0 < j.size) : (j.bin + 1) * 16 = j.aligned := by
  have := j.aligned_mod
  have := j.aligned_pos h
  unfold Job.bin
  omega

end Job

section Steps

variable {t : Nat} {j : Job} {pc' : Pc}

/-- The thread goes on with the same blocks in hand. -/
lemma Inv.goto (h : Inv s L []) (hL : L (.slab t) = []) (hhand : pc'.hand = (s.pc t).hand)
    (hhead : pc'.slabHead = 0) (hpc : PcOk s.heap.mem [] pc') (hn : pc'.NoCopy) : Good s (s.goto t pc') := by
  refine ⟨⟨_, h.regroup nodup_nil t pc' s.live [] [] ?_ (by rw [hhead]; rfl) (by simp) h.given hpc⟩,
    Sys.keeps_of_mem rfl, hn.pass⟩
  rw [addrs, addrs, hhand, hL]

variable {live : List (Nat × Nat)} {ptr a n : Nat}

/-- What callers hold with one pointer more. -/
lemma given_cons {size : Nat} (h : ∀ p n, (p, n) ∈ live → Given mem p n) (hg : Given mem ptr size) :
    ∀ p n, (p, n) ∈ (ptr, size) :: live → Given mem p n := by
  intro p n hp
  rcases mem_cons.1 hp with he | hp
  · obtain ⟨rfl, rfl⟩ := Prod.mk.inj he
    exact hg
  · exact h p n hp

lemma Inv.fail (h : Inv s L []) (hL : L (.slab t) = []) (hhand : (s.pc t).hand = j.hand)
    (hj : JobOk s.heap.mem j) : Good s (s.fail t j) := by
  cases j with
  | malloc size => exact h.goto hL (by rw [hhand]; rfl) rfl rfl (by simp)
  | realloc ptr old size =>
    obtain ⟨hg, -⟩ := hj.old ptr old size rfl
    refine ⟨⟨_, h.regroup nodup_nil t .idle ((ptr, old) :: s.live) [] [] ?_ rfl (by simp)
      (given_cons h.given hg) rfl⟩, Sys.keeps_of_mem rfl, Pc.NoCopy.pass (by simp)⟩
    rw [addrs, addrs, hhand, hL]
    simp only [Job.hand, Pc.hand, map_cons, append_nil]
    exact (perm_append_singleton _ _).symm

/-- `malloc` returns the block that has been taken out. -/
lemma Taken.finish {L' : Box → List Nat} (ht : Taken s L h' L' a j.aligned) (h : Inv s L []) (hL : L' (.slab t) = [])
    (hhand : (s.pc t).hand = j.hand) (hj : JobOk h'.mem j) :
    Good s (Sys.finish t j (a + 16) { s with heap := h' }) := by
  have hsize := j.size_le
  have hfit := ht.size
  have hgot : Given h'.mem (a + 16) j.size := ⟨by omega, by simp only [Nat.add_sub_cancel]; omega,
    by simpa using ht.tagged⟩
  cases j with
  | malloc size =>
    refine ⟨⟨_, ht.inv.regroup (nodup_singleton a) t .idle ((a + 16, size) :: s.live) [] [] ?_ rfl
      (by simp) (given_cons ht.inv.given hgot) rfl⟩, ht.untouched.keeps rfl,
      Pc.NoCopy.pass (s := s) (by simp)⟩
    rw [addrs, addrs, hL, show ({ s with heap := h' } : Sys).pc t = s.pc t from rfl, hhand]
    simp only [Job.hand, Pc.hand, map_cons, append_nil, Nat.add_sub_cancel]
    exact (perm_append_singleton _ _).symm
  | realloc ptr old size =>
    obtain ⟨hg, hlt⟩ := hj.old ptr old size rfl
    have hflight : ({ s with heap := h' } : Sys).Holds L' [a] (.flight, a) := by simp [Sys.Holds]
    have hhold : ({ s with heap := h' } : Sys).Holds L' [a] (.hand t, ptr - 16) := by
      show ptr - 16 ∈ (s.pc t).hand
      rw [hhand]
      simp [Job.hand]
    have hne : a ≠ ptr - 16 := fun he => by
      have := ht.inv.eq_of_addr hflight hhold he
      cases this
    obtain ⟨mem', hmem⟩ : ∃ m, m = Sys.copy (a + 16) ptr (h'.mem (ptr - 16)) h'.mem := ⟨_, rfl⟩
    have hsz : size ≤ h'.mem a := hsize.trans hfit
    have hframe : ∀ x, ¬ (a + 16 ≤ x ∧ x < a + 16 + h'.mem a) → mem' x = h'.mem x := fun x hx => by
      rw [hmem, Sys.copy, if_neg (by omega)]
    obtain ⟨hinv, hother⟩ := ht.inv.write_bytes hflight (by simp) hframe
    have hold : SameHeader h'.mem mem' (ptr - 16) := ht.inv.sameHeader hhold (hother _ hhold (by simp))
    have hnew : SameHeader h'.mem mem' (a + 16 - 16) := by
      rw [Nat.add_sub_cancel]
      exact ⟨hframe a (by omega), hframe (a + 8) (by omega)⟩
    have hcopy : Untouched { s with heap := h' } L' [a] { h' with mem := mem' } := fun τ hτ ho x hx =>
      hother τ hτ (by rintro rfl; rcases ho with he | ⟨t, he⟩ <;> cases he) x hx
    have hfin : Sys.finish t (.realloc ptr old size) (a + 16) { s with heap := h' } =
        Sys.pass t (.free ptr (some (a + 16, size))) s.live { s with heap := { h' with mem := mem' } } := by
      rw [hmem]
      rfl
    rw [hfin]
    refine ⟨⟨_, hinv.regroup (nodup_singleton a) t _ s.live [] [] ?_ rfl (by simp) hinv.given
      ⟨rfl, hg.header, hold.tagged hg.tagged, ?_⟩⟩, (ht.untouched.trans h hcopy).keeps rfl, fun t' => ?_⟩
    · rw [addrs, addrs, hL, show ({ s with heap := { h' with mem := mem' } } : Sys).pc t = s.pc t from rfl, hhand]
      simp [Job.hand, Pc.hand]
    · rintro new n ⟨⟩
      have := hg.header
      exact ⟨hnew.given hgot, by omega, (le_of_eq hold.1).trans_lt hlt⟩
    by_cases htt : t' = t
    · subst htt
      right
      intro ptr' new n he k hk
      obtain ⟨rfl, rfl, rfl⟩ : ptr = ptr' ∧ a + 16 = new ∧ size = n := by simpa [Sys.pass] using he
      have h16 := hg.header
      have hk : k < h'.mem (ptr - 16) := hold.1 ▸ hk
      have hcopied : mem' (a + 16 + k) = h'.mem (ptr + k) := by
        rw [hmem, Sys.copy, if_pos (by omega), Nat.add_sub_cancel_left]
      exact hcopied.trans (hother _ hhold (by simp) (ptr + k) (by unfold span; simp only; omega)).symm
    · exact .inl (by simp [Sys.pass, htt])

/-! ### `malloc` -/

lemma run_bin (h : Inv s L []) (hpc : s.pc t = .bin j) (cpu at' : Nat) (junk : Nat → Nat) :
    Good s (s.run t cpu at' junk) := by
  have hp := h.pc t
  rw [hpc] at hp
  obtain ⟨hL, hj, hmax⟩ := hp
  unfold Sys.run
  simp only [hpc]
  rcases binPop_spec h j.bin cpu with hnone | ⟨a, L', ha, ht⟩
  · rw [hnone]
    exact h.goto hL (by rw [hpc]; rfl) rfl ⟨rfl, hj, hmax⟩ (by simp)
  have hp' := ht.inv.pc t
  simp only [hpc] at hp'
  rw [ha]
  rw [j.bin_aligned hj.pos] at ht
  exact ht.finish h hp'.1 (by rw [hpc]; rfl) hp'.2.1

lemma run_take (h : Inv s L []) (hpc : s.pc t = .take j) (cpu at' : Nat) (junk : Nat → Nat) :
    Good s (s.run t cpu at' junk) := by
  have hp := h.pc t
  rw [hpc] at hp
  obtain ⟨hL, hj⟩ := hp
  unfold Sys.run
  simp only [hpc]
  rcases heapTake_spec h j.aligned_mod (j.aligned_pos hj.pos) with hnone | ⟨a, L', ha, ht⟩
  · rw [hnone]
    exact h.goto hL (by rw [hpc]; rfl) rfl ⟨rfl, hj⟩ (by simp)
  have hp' := ht.inv.pc t
  simp only [hpc] at hp'
  rw [if_pos (by omega), ha]
  exact ht.finish h hp'.1 (by rw [hpc]; rfl) hp'.2

lemma pageUp_spec (x : Nat) : x ≤ pageUp x ∧ pageUp x % 4096 = 0 := by
  unfold pageUp
  omega

lemma run_large (h : Inv s L []) (hpc : s.pc t = .large j) (cpu at' : Nat) (junk : Nat → Nat) :
    Good s (s.run t cpu at' junk) := by
  have hp := h.pc t
  rw [hpc] at hp
  obtain ⟨hL, hj⟩ := hp
  unfold Sys.run
  simp only [hpc]
  obtain ⟨bytes, hbytes⟩ : ∃ b, b = pageUp (j.aligned + 16) := ⟨_, rfl⟩
  have hpu := pageUp_spec (j.aligned + 16)
  rw [← hbytes] at hpu ⊢
  by_cases hgot : (allocKernelPages at' junk (bytes / 4096) s.heap).1 = 0
  · rw [if_pos hgot]
    rw [allocKernelPages_none hgot]
    exact h.goto hL (by rw [hpc]; rfl) rfl ⟨rfl, hj⟩ (by simp)
  rw [if_neg hgot]
  obtain ⟨haddr, h0, hpage⟩ := allocKernelPages_some hgot
  set r := allocKernelPages at' junk (bytes / 4096) s.heap with hr
  obtain ⟨mem', hmem⟩ : ∃ m, m = setNext at' blockLarge (setSize at' (bytes - 16) r.2.mem) := ⟨_, rfl⟩
  have hz : mem' at' = bytes - 16 := by rw [hmem, setNext_size (by omega) (by omega), setSize_self]
  have hf : Fresh s.heap { r.2 with mem := mem' } at' (bytes / 4096) [at'] := by
    rw [hr]
    refine fresh_chunk (by omega) hgot (by omega) fun x h1 h2 => ?_
    rw [hmem, setNext_of_ne h2, setSize_of_ne h1, hr]
  have ht : Taken s L { r.2 with mem := mem' } L at' j.aligned := ⟨(hf.change h).inv h, hf.untouched h,
      .inr ⟨by rw [hmem, setNext_self], hpage, by show (mem' at' + 16) % 4096 = 0; omega⟩,
      by show j.aligned ≤ mem' at'; omega⟩
  have hp' := ht.inv.pc t
  simp only [hpc] at hp'
  have hfin := ht.finish h hp'.1 (by rw [hpc]; rfl) hp'.2
  rw [hmem] at hfin
  simpa only [newChunk, haddr] using hfin

lemma chunkBytes_spec (j : Job) (again : Bool) :
    0 < j.chunkBytes again / 4096 ∧ j.chunkBytes again / 4096 * 4096 = j.chunkBytes again := by
  have hp := pageUp_spec (j.aligned + 16)
  unfold Job.chunkBytes
  split
  · decide
  · omega

lemma perm_last (l m : List Nat) (a : Nat) : (l ++ a :: m).Perm (l ++ m ++ [a]) := by
  rw [append_assoc]
  exact (perm_append_singleton a m).symm.append_left l

lemma run_grow (h : Inv s L []) {again : Bool} (hpc : s.pc t = .grow j again) (cpu at' : Nat)
    (junk : Nat → Nat) : Good s (s.run t cpu at' junk) := by
  have hp := h.pc t
  rw [hpc] at hp
  obtain ⟨hL, hj⟩ := hp
  obtain ⟨hpos, hbytes⟩ := chunkBytes_spec j again
  unfold Sys.run
  simp only [hpc]
  by_cases hgot : (allocKernelPages at' junk (j.chunkBytes again / 4096) s.heap).1 = 0
  · rw [if_neg (by simpa using hgot), allocKernelPages_none hgot]
    split
    · exact h.goto hL (by rw [hpc]; rfl) rfl ⟨rfl, hj⟩ (by simp)
    · exact h.fail hL (by rw [hpc]; rfl) hj
  rw [if_pos hgot]
  obtain ⟨haddr, _⟩ := allocKernelPages_some hgot
  set r := allocKernelPages at' junk (j.chunkBytes again / 4096) s.heap with hr
  have hf : Fresh s.heap (newChunk (j.chunkBytes again) r) at' (j.chunkBytes again / 4096) [at'] := by
    unfold newChunk
    rw [haddr, hr]
    exact fresh_chunk hpos hgot (by rw [setSize_self, hbytes]) fun x h1 _ => setSize_of_ne h1
  have hinv := (hf.change h).inv h
  have hp' := hinv.pc t
  simp only [hpc] at hp'
  have hne : at' ∉ j.hand := fun hmem => by
    have := hinv.eq_of_addr (τ := (.hand t, at')) (σ := (.flight, at'))
      (by show at' ∈ (s.pc t).hand; rw [hpc]; exact hmem) (by simp [Sys.Holds]) rfl
    cases this
  rw [haddr]
  refine ⟨⟨_, hinv.regroup (nodup_singleton at') t (.chunk j at') s.live [] [] ?_ rfl (by simp)
    hinv.given ⟨rfl, hp'.2, hne⟩⟩, (hf.untouched h).keeps rfl, Pc.NoCopy.pass (by simp)⟩
  rw [addrs, addrs, hL, hpc]
  simp only [append_nil]
  exact perm_last _ j.hand at'

/-- A step that passes blocks on first and then works on the heap. -/
lemma GivenBack.good {L1 : Box → List Nat} {X1 : List Nat} {live' : List (Nat × Nat)}
    (hg : GivenBack (s.pass t pc' live') L1 X1 h') (hn : pc'.NoCopy) :
    Good s { s.pass t pc' live' with heap := h' } := by
  refine ⟨hg.1, fun t' a _ ha x h1 h2 => ?_, hn.pass⟩
  rcases ha with ha | ha
  · exact hg.2 (.hand t', a) ha (.inr ⟨t', rfl⟩) x ⟨h1, h2⟩
  · exact hg.2 (.live, a) ha (.inl rfl) x ⟨h1, h2⟩

lemma run_chunk (h : Inv s L []) {block : Nat} (hpc : s.pc t = .chunk j block) (cpu at' : Nat)
    (junk : Nat → Nat) : Good s (s.run t cpu at' junk) := by
  have hp := h.pc t
  rw [hpc] at hp
  obtain ⟨hL, hj, -⟩ := hp
  have hinv := h.regroup nodup_nil t (.take j) s.live [] [block] (by
    rw [addrs, addrs, hL, hpc]
    simp only [append_nil]
    exact (perm_last _ j.hand block).symm)
    rfl (by simp) h.given ⟨rfl, hj⟩
  unfold Sys.run
  simp only [hpc]
  exact (insertFree_spec hinv).good (by simp)

lemma run_slab (h : Inv s L []) (hpc : s.pc t = .slab j) (cpu at' : Nat) (junk : Nat → Nat) :
    Good s (s.run t cpu at' junk) := by
  have hp := h.pc t
  rw [hpc] at hp
  obtain ⟨hL, hj, hmax⟩ := hp
  unfold Sys.run
  simp only [hpc]
  by_cases hgot : (allocKernelPages at' junk binSlabPages s.heap).1 = 0
  · rw [if_pos hgot, allocKernelPages_none hgot]
    exact h.goto hL (by rw [hpc]; rfl) rfl ⟨rfl, hj⟩ (by simp)
  rw [if_neg hgot]
  obtain ⟨haddr, -⟩ := allocKernelPages_some hgot
  rw [haddr]
  set b := buildSlab at' j.aligned (slabCount j.aligned) 0 (allocKernelPages at' junk binSlabPages s.heap).2.mem with hb
  obtain ⟨hf, hchain, hz⟩ := fresh_slab j.aligned_mod (j.aligned_pos hj.pos) hgot hb
  have hinv := (hf.change h).inv h
  have hp' := hinv.pc t
  simp only [hpc] at hp'
  obtain ⟨n, hn⟩ : ∃ n, slabCount j.aligned = n + 1 :=
    Nat.exists_eq_succ_of_ne_zero (Nat.pos_iff_ne_zero.1 (slabCount_pos hmax))
  refine ⟨⟨_, hinv.regroup objects_nodup t (.push j b.1 (at' + (slabCount j.aligned - 1) * (j.aligned + 16))) s.live
    (objects at' j.aligned (slabCount j.aligned)) [] ?_ hchain ?_ hinv.given ⟨hp'.2.1, hmax, ?_⟩⟩,
    (hf.untouched h).keeps rfl, Pc.NoCopy.pass (s := s) (by simp)⟩
  · simp only [addrs, hL, hpc, Pc.hand, append_nil]
    exact List.Perm.refl _
  · rintro m ⟨⟩
    exact hz
  · exact ⟨objects at' j.aligned n, by rw [hn, objects_succ]; rfl⟩

lemma run_push (h : Inv s L []) {head tail : Nat} (hpc : s.pc t = .push j head tail) (cpu at' : Nat)
    (junk : Nat → Nat) : Good s (s.run t cpu at' junk) := by
  have hp := h.pc t
  rw [hpc] at hp
  obtain ⟨hj, hmax, l, hl⟩ := hp
  have hchain : Chain (nextOf s.heap.mem) (s.pc t).slabHead (L (.slab t)) := h.chain (.slab t)
  rw [hpc] at hchain
  have hz := h.object (.slab t) j.aligned (by rw [Box.objectSize, hpc]; rfl)
  have hnd := h.nodup (.slab t)
  have hinv := h.regroup nodup_nil t (.bin j) s.live [] (L (.slab t)) (by
    simp only [addrs, hpc, append_nil]
    exact List.Perm.refl _) rfl (by simp) h.given ⟨rfl, hj, hmax⟩
  rw [hl] at hchain hz hnd hinv
  have hr := hinv.push_slab (c := cpu) hchain hnd fun d hd => by
    rw [j.bin_aligned hj.pos]
    exact hz d hd
  unfold Sys.run
  simp only [hpc]
  exact (show GivenBack _ _ _ _ from ⟨⟨_, (hr.move hinv).inv hinv⟩, (hr.move hinv).untouched hinv⟩).good (by simp)

/-! ### `free` -/

lemma freeBlock_spec (h : Inv s L [a]) (ha : a = ptr - 16) (ht : Tagged s.heap.mem a) (cpu : Nat) :
    GivenBack s L [a] (freeBlock ptr cpu s.heap) := by
  have hs := h.shape (.flight, a) (by simp [Sys.Holds])
  unfold freeBlock
  rw [← ha]
  simp only
  rcases ht with ht | ⟨ht, hl⟩
  · rw [if_neg (by rw [ht]; decide), if_neg (by simp [ht])]
    split
    · exact binFree_spec h cpu hs.min hs.size
    · exact insertFree_spec h
  · rw [if_pos ht]
    exact freePages_spec h hl

lemma run_free (h : Inv s L []) {ret : Option (Nat × Nat)} (hpc : s.pc t = .free ptr ret) (cpu at' : Nat)
    (junk : Nat → Nat) : Good s (s.run t cpu at' junk) := by
  have hp := h.pc t
  rw [hpc] at hp
  obtain ⟨hL, -, htag, hret⟩ := hp
  unfold Sys.run
  simp only [hpc]
  rcases ret with _ | ⟨new, n⟩
  · have hinv := h.regroup nodup_nil t .idle s.live [] [ptr - 16] (by
      simp [addrs, hL, hpc, Pc.hand]) rfl (by simp) h.given rfl
    exact (freeBlock_spec hinv rfl htag cpu).good (by simp)
  have hinv := h.regroup nodup_nil t .idle ((new, n) :: s.live) [] [ptr - 16] (by
    simp only [addrs, hL, hpc, Pc.hand, map_cons, append_nil]
    rw [append_cons _ (ptr - 16) [new - 16]]
    exact (perm_append_singleton _ _).symm) rfl (by simp) (given_cons h.given (hret new n rfl).1) rfl
  exact (freeBlock_spec hinv rfl htag cpu).good (by simp)

/-! ### The calls -/

lemma run_good (h : Inv s L []) (t cpu at' : Nat) (junk : Nat → Nat) : Good s (s.run t cpu at' junk) := by
  cases hpc : s.pc t with
  | idle =>
    have : s.run t cpu at' junk = s := by simp [Sys.run, hpc]
    rw [this]
    exact ⟨⟨L, h⟩, Sys.keeps_of_mem rfl, fun _ => .inl rfl⟩
  | bin j => exact run_bin h hpc cpu at' junk
  | slab j => exact run_slab h hpc cpu at' junk
  | push j head tail => exact run_push h hpc cpu at' junk
  | large j => exact run_large h hpc cpu at' junk
  | take j => exact run_take h hpc cpu at' junk
  | grow j again => exact run_grow h hpc cpu at' junk
  | chunk j block => exact run_chunk h hpc cpu at' junk
  | free ptr ret => exact run_free h hpc cpu at' junk

/-- An idle thread has nothing in hand. -/
lemma Inv.idle_pass (h : Inv s L []) (hpc : s.pc t = .idle) (pc' : Pc) (live' : List (Nat × Nat))
    (hperm : (live'.map (fun p : Nat × Nat => p.1 - 16) ++ pc'.hand).Perm (s.live.map fun p : Nat × Nat => p.1 - 16))
    (hhead : pc'.slabHead = 0) (hgiven : ∀ p n, (p, n) ∈ live' → Given s.heap.mem p n)
    (hok : PcOk s.heap.mem [] pc') (hn : pc'.NoCopy) : Good s (s.pass t pc' live') := by
  have hp := h.pc t
  rw [hpc] at hp
  refine ⟨⟨_, h.regroup nodup_nil t pc' live' [] [] ?_ (by rw [hhead]; rfl) (by simp) hgiven hok⟩,
    Sys.keeps_of_mem rfl, hn.pass⟩
  rw [addrs, addrs, show L (.slab t) = [] from hp, hpc]
  simpa [Pc.hand] using hperm

/-- `malloc` begins, for `malloc` itself or for `realloc`. -/
lemma Inv.start (h : Inv s L []) (hpc : s.pc t = .idle) (live' : List (Nat × Nat))
    (hperm : (live'.map (fun p : Nat × Nat => p.1 - 16) ++ j.hand).Perm (s.live.map fun p : Nat × Nat => p.1 - 16))
    (hgiven : ∀ p n, (p, n) ∈ live' → Given s.heap.mem p n)
    (hold : ∀ ptr old size, j = .realloc ptr old size → Given s.heap.mem ptr old ∧ s.heap.mem (ptr - 16) < size) :
    Good s (Sys.start t j { s with live := live' }) := by
  unfold Sys.start
  split
  · cases j with
    | malloc size => exact h.idle_pass hpc .idle live' hperm rfl hgiven rfl (by simp)
    | realloc ptr old size =>
      refine h.idle_pass hpc .idle ((ptr, old) :: live') ?_ rfl
        (given_cons hgiven (hold ptr old size rfl).1) rfl (by simp)
      simp only [map_cons, Pc.hand, append_nil]
      exact (perm_append_singleton _ _).symm.trans hperm
  rename_i hsize
  have hj : JobOk s.heap.mem j := ⟨by omega, by omega, hold⟩
  split
  · rename_i hmax
    exact h.idle_pass hpc (.bin j) live' hperm rfl hgiven ⟨rfl, hj, hmax⟩ (by simp)
  split
  · exact h.idle_pass hpc (.large j) live' hperm rfl hgiven ⟨rfl, hj⟩ (by simp)
  · exact h.idle_pass hpc (.take j) live' hperm rfl hgiven ⟨rfl, hj⟩ (by simp)

lemma erase_perm (h : (ptr, n) ∈ live) :
    ((live.erase (ptr, n)).map (fun p : Nat × Nat => p.1 - 16) ++ [ptr - 16]).Perm (live.map fun p : Nat × Nat => p.1 - 16) :=
  (perm_append_singleton _ _).trans ((perm_cons_erase h).map fun p : Nat × Nat => p.1 - 16).symm

lemma Inv.given_erase (h : Inv s L X) (ptr n : Nat) : ∀ p m, (p, m) ∈ s.live.erase (ptr, n) → Given s.heap.mem p m :=
  fun p m hp => h.given p m (mem_of_mem_erase hp)

lemma Inv.call_free (h : Inv s L []) (hpc : s.pc t = .idle) (hm : (ptr, n) ∈ s.live) :
    Good s ((s.take ptr n).goto t (.free ptr none)) := by
  have hg := h.given ptr n hm
  exact h.idle_pass hpc (.free ptr none) (s.live.erase (ptr, n)) (erase_perm hm) rfl (h.given_erase ptr n)
    ⟨rfl, hg.header, hg.tagged, by simp⟩ (by simp)

lemma Inv.store (h : Inv s L []) {off v : Nat} (hm : (ptr, n) ∈ s.live) (hoff : off < n) :
    Good s { s with heap.mem := update s.heap.mem (ptr + off) v } := by
  have hg := h.given ptr n hm
  have h16 := hg.header
  have hsz := hg.size
  have hτ : s.Holds L [] (.live, ptr - 16) := ⟨n, by rwa [Nat.sub_add_cancel h16]⟩
  obtain ⟨hinv, hother⟩ := h.write_bytes hτ (by simp)
    (show ∀ x, _ → update s.heap.mem (ptr + off) v x = s.heap.mem x from fun x hx => by
      simp only at hx
      rw [update_of_ne (by omega)])
  refine ⟨⟨L, hinv⟩, fun t a ha _ x h1 h2 => ?_, fun _ => .inl rfl⟩
  exact hother (.hand t, a) ha (by simp) x ⟨h1, h2⟩

/-- One step keeps the heap well formed. -/
lemma step_good (h : Inv s L []) (e : Ev) : Good s (s.step e) := by
  have hrefl : Good s s := ⟨⟨L, h⟩, Sys.keeps_of_mem rfl, fun _ => .inl rfl⟩
  cases e with simp only [Sys.step]
  | malloc t size =>
    split
    · rename_i hpc
      exact h.start hpc s.live (by simp [Job.hand]) h.given (by simp)
    · exact hrefl
  | free t ptr n =>
    split
    · rename_i hc
      exact h.call_free hc.1 hc.2
    · exact hrefl
  | realloc t ptr old size =>
    split
    swap
    · exact hrefl
    rename_i hc
    have hg := h.given ptr old hc.2
    split
    · exact h.call_free hc.1 hc.2
    split
    · exact hrefl
    split
    · rename_i hfit
      have hpass := h.idle_pass hc.1 .idle ((ptr, size) :: s.live.erase (ptr, old))
        ((perm_append_singleton _ _).symm.trans (erase_perm hc.2) |> fun hp => by simpa [Pc.hand] using hp)
        rfl (given_cons (h.given_erase ptr old) ⟨hg.header, hfit, hg.tagged⟩) rfl (by simp)
      have heq : (s.take ptr old).give ptr size = s.pass t .idle ((ptr, size) :: s.live.erase (ptr, old)) := by
        simp [Sys.take, Sys.give, Sys.pass, ← hc.1]
      rw [heq]
      exact hpass
    · refine h.start hc.1 (s.live.erase (ptr, old)) (erase_perm hc.2) (h.given_erase ptr old) ?_
      rintro p o n ⟨⟩
      exact ⟨hg, by omega⟩
  | run t cpu at' junk => exact run_good h t cpu at' junk
  | store ptr n off v =>
    split
    · rename_i hc
      exact h.store hc.1 hc.2
    · exact hrefl

end Steps

end Hermes.L2.Alloc
