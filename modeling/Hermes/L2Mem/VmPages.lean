import Hermes.L2Mem.VmAreas

/-!
# What the per-page loops do

Every loop over the pages of a range applies one function to each entry of
the range. `foldl_pages` says so once; each loop of `vm.c` then has its
entry function: `Pte.cleared` for `free_frames`, `Pte.cleaned` for the
clearing form of `queue_dirty`, `Pte.reprot` for `protect_locked`. What such
a loop leaves alone is `layout`.
-/
namespace Hermes.L2.Vm

open Function List

/-- The address space apart from page table and queue. -/
def VmSpace.layout (vm : VmSpace) : VmSpace := { vm with pageMap := fun _ => Pte.zero, pending := [] }

lemma areas_of_layout {vm vm' : VmSpace} (h : vm.layout = vm'.layout) : vm.areas = vm'.areas := by
  have := congrArg VmSpace.areas h
  exact this

lemma foldl_keeps {σ β γ : Type*} {g : σ → γ} {f : σ → β → σ} (h : ∀ s x, g (f s x) = g s)
    (l : List β) (s : σ) : g (l.foldl f s) = g s := by
  induction l generalizing s with
  | nil => rfl
  | cons x l ih => rw [foldl_cons, ih, h]

/-! ## Pages of a range -/

variable {f : St → Nat → St} {s e n : Nat} {φ : Pte → Pte}

lemma mem_pages {va : Nat} : va ∈ pages s e ↔ ∃ k, va = s + 4096 * k ∧ va < e := by
  simp only [pages, mem_map, mem_range]
  constructor
  · rintro ⟨k, hk, rfl⟩
    exact ⟨k, rfl, by omega⟩
  rintro ⟨k, rfl, hlt⟩
  exact ⟨k, by omega, rfl⟩

lemma pages_vpn (s e : Nat) :
    (pages s e).map (· / 4096) = (List.range ((e - s + 4095) / 4096)).map (s / 4096 + ·) := by
  unfold pages
  rw [map_map]
  apply map_congr_left
  simp only [comp]
  omega

lemma nodup_pages (s e : Nat) : ((pages s e).map (· / 4096)).Nodup := by
  rw [pages_vpn]
  exact List.Nodup.map (fun a b h => Nat.add_left_cancel h) nodup_range

lemma mem_pages_vpn (hs : s % 4096 = 0) : n ∈ (pages s e).map (· / 4096) ↔ s ≤ n * 4096 ∧ n * 4096 < e := by
  rw [pages_vpn]
  simp only [mem_map, mem_range]
  constructor
  · omega
  rintro ⟨h1, h2⟩
  exact ⟨n - s / 4096, by omega, by omega⟩

/-- A loop that replaces the entry of each page it visits by `φ` of it. -/
lemma foldl_vpns
    (hf : ∀ st va, (f st va).vm.pageMap = update st.vm.pageMap (va / 4096) (φ (st.vm.pageMap (va / 4096))))
    (l : List Nat) (hl : (l.map (· / 4096)).Nodup) (st : St) (n : Nat) :
    (l.foldl f st).vm.pageMap n =
      if n ∈ l.map (· / 4096) then φ (st.vm.pageMap n) else st.vm.pageMap n := by
  induction l generalizing st with
  | nil => rfl
  | cons va l ih =>
    rw [map_cons, nodup_cons] at hl
    rw [foldl_cons, ih hl.2, hf]
    by_cases hn : n = va / 4096
    · subst hn
      rw [if_neg hl.1, update_self, if_pos (by simp)]
    rw [update_of_ne hn, map_cons]
    simp only [mem_cons, hn, false_or]

lemma foldl_pages
    (hf : ∀ st va, (f st va).vm.pageMap = update st.vm.pageMap (va / 4096) (φ (st.vm.pageMap (va / 4096))))
    (hs : s % 4096 = 0) (st : St) (n : Nat) :
    ((pages s e).foldl f st).vm.pageMap n =
      if s ≤ n * 4096 ∧ n * 4096 < e then φ (st.vm.pageMap n) else st.vm.pageMap n := by
  rw [foldl_vpns hf _ (nodup_pages s e)]
  simp only [mem_pages_vpn hs]

/-! ## The loops -/

/-- An entry after `free_frames`. -/
def Pte.cleared (p : Pte) : Pte := if p.user = false ∨ p.frame = 0 then p else Pte.zero

/-- An entry after `protect_locked`. -/
def Pte.reprot (prot : Prot) (p : Pte) : Pte := if p.frame = 0 then p else pteWithProt p prot

/-- An entry after `queue_dirty` with `clear`. -/
def Pte.cleaned (p : Pte) : Pte :=
  if p.frame = 0 ∨ p.dirty = false then p else { p with dirty := false }

lemma update_same {pm : Nat → Pte} {p : Pte} (h : p = pm n) : update pm n p = pm := by
  subst h
  exact update_eq_self n pm

section queue

variable (env : Env) (a : VmArea)

lemma queue_layout (offset frame : Nat) (st : St) : (queue env a offset frame st).vm.layout = st.vm.layout := by
  unfold queue Mach.malloc
  cases env.malloc st.mc.tick with
  | true => rfl
  | false => by_cases h : frame ≠ 0 <;> simp [h]

lemma queue_pageMap (offset frame : Nat) (st : St) : (queue env a offset frame st).vm.pageMap = st.vm.pageMap := by
  unfold queue Mach.malloc
  cases env.malloc st.mc.tick with
  | true => rfl
  | false => by_cases h : frame ≠ 0 <;> simp [h]

lemma queuePage_layout (clear : Bool) (st : St) (va : Nat) :
    (queuePage env a clear st va).vm.layout = st.vm.layout := by
  unfold queuePage
  dsimp only
  split
  · rfl
  cases clear with
  | false | true => exact queue_layout env a _ _ _

lemma queuePage_pageMap (st : St) (va : Nat) : (queuePage env a false st va).vm.pageMap = st.vm.pageMap := by
  unfold queuePage
  dsimp only
  split
  · rfl
  · exact queue_pageMap env a _ _ _

lemma queuePage_clear_pageMap (st : St) (va : Nat) : (queuePage env a true st va).vm.pageMap =
      update st.vm.pageMap (va / 4096) (Pte.cleaned (st.vm.pageMap (va / 4096))) := by
  unfold queuePage Pte.cleaned St.pte
  simp only [if_true]
  split_ifs
  · exact (update_same rfl).symm
  simp only [St.setPte, queue_pageMap]
  rfl

lemma queueDirty_layout (s e : Nat) (clear : Bool) (st : St) :
    (queueDirty env a s e clear st).vm.layout = st.vm.layout :=
  foldl_keeps (g := fun st : St => st.vm.layout) (queuePage_layout env a clear) _ st

lemma queueDirty_pageMap (s e : Nat) (st : St) : (queueDirty env a s e false st).vm.pageMap = st.vm.pageMap :=
  foldl_keeps (g := fun st : St => st.vm.pageMap) (queuePage_pageMap env a) _ st

lemma queueDirty_clear_pageMap (hs : s % 4096 = 0) (st : St) (n : Nat) : (queueDirty env a s e true st).vm.pageMap n =
      if s ≤ n * 4096 ∧ n * 4096 < e then Pte.cleaned (st.vm.pageMap n) else st.vm.pageMap n :=
  foldl_pages (queuePage_clear_pageMap env a) hs st n

end queue

lemma freeFrame_layout (st : St) (va : Nat) : (freeFrame st va).vm.layout = st.vm.layout := by
  unfold freeFrame
  dsimp only
  split <;> rfl

lemma freeFrame_pageMap (st : St) (va : Nat) : (freeFrame st va).vm.pageMap =
    update st.vm.pageMap (va / 4096) (Pte.cleared (st.vm.pageMap (va / 4096))) := by
  unfold freeFrame Pte.cleared St.pte
  dsimp only
  split_ifs
  · exact (update_same rfl).symm
  · rfl

lemma freeFrames_layout (s e : Nat) (st : St) : (freeFrames s e st).vm.layout = st.vm.layout :=
  foldl_keeps (g := fun st : St => st.vm.layout) freeFrame_layout _ st

lemma freeFrames_pageMap (hs : s % 4096 = 0) (st : St) (n : Nat) : (freeFrames s e st).vm.pageMap n =
      if s ≤ n * 4096 ∧ n * 4096 < e then Pte.cleared (st.vm.pageMap n) else st.vm.pageMap n :=
  foldl_pages freeFrame_pageMap hs st n

lemma protectPage_layout (prot : Prot) (st : St) (va : Nat) : (protectPage prot st va).vm.layout = st.vm.layout := by
  unfold protectPage
  dsimp only
  split <;> rfl

lemma protectPage_pageMap (prot : Prot) (st : St) (va : Nat) : (protectPage prot st va).vm.pageMap =
    update st.vm.pageMap (va / 4096) (Pte.reprot prot (st.vm.pageMap (va / 4096))) := by
  unfold protectPage Pte.reprot St.pte
  dsimp only
  split_ifs
  · exact (update_same rfl).symm
  · rfl

end Hermes.L2.Vm
