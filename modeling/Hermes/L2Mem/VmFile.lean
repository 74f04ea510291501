import Hermes.L2Mem.VmRemap

/-!
# File calls of an address space

The side of an address space that the file system sees: the areas with
their files and offsets, the queue of deferred calls, and the calls already
made. Most of `vm.c` leaves it alone (`Still`); what the rest does to it is
said here, first for the file behind each address, then for the references,
then for the pages that are written back.
-/
namespace Hermes.L2

def Act.isFile : Act → Bool
  | .acquire _ | .release _ | .write _ _ _ => true
  | _ => false

/-- The calls on files, in order. -/
def fileActs (acts : List Act) : List Act := acts.filter Act.isFile

lemma fileActs_append (l m : List Act) : fileActs (l ++ m) = fileActs l ++ fileActs m := List.filter_append l m

namespace Vm

open Hermes.Intervals

/-! ## Loops over the areas of a range -/

variable {st : St}

section overAreas

variable {P : St → Prop} (hP : ∀ st, P st → AreasOk st.vm.areas)
include hP

variable {visit : VmArea → Nat → Nat → St → St}

/-- A loop over the areas of a range keeps what its visits keep, as long as
they start at page boundaries and leave the areas alone. -/
lemma overAreas_keeps {stop : Nat} (hstop : stop % 4096 = 0)
    (hv : ∀ a lo hi st, lo % 4096 = 0 → P st → P (visit a lo hi st)) :
    ∀ (n va : Nat) (st : St), va % 4096 = 0 → P st → P (overAreas visit stop n va st).2 := by
  intro n
  induction n with
  | zero => exact fun va st _ h => h
  | succ n ih =>
    intro va st hva h
    unfold overAreas
    by_cases hlt : va < stop
    · rw [if_pos hlt]
      rcases hf : vmFind st.vm.areas va with - | a
      · exact h
      obtain ⟨ha, -, -⟩ := (vmFind_eq_some (hP st h).tiled).1 hf
      have hal := ((hP st h).area a ha).stop
      exact ih _ _ (by omega) (hv a va _ st hva h)
    · rw [if_neg hlt]
      exact h

variable (hs : ∀ st, P st → P st.shootdown)
include hs

lemma overAreas_shootdown (hv : ∀ a lo hi st, lo % 4096 = 0 → P st → P (visit a lo hi st)) {addr len : Nat}
    (ha : addr % 4096 = 0) (h : P st) :
    P (match overAreas visit (pageAlignUp (wrap (addr + len))) (st.vm.areas.length + 1) addr st with
      | (some e, st) => (some e, st)
      | (none, st) => (none, st.shootdown) : Option Errno × St).2 := by
  have hk := overAreas_keeps hP (pageAlignUp_aligned (wrap (addr + len))) hv (st.vm.areas.length + 1) addr st ha h
  generalize overAreas _ _ _ _ _ = r at hk ⊢
  obtain ⟨_ | e, st'⟩ := r
  · exact hs st' hk
  · exact hk

lemma discardLocked_keeps (hv : ∀ lo hi st, lo % 4096 = 0 → P st → P (freeFrames lo hi st)) (addr len : Nat) {st : St}
    (h : P st) : P (discardLocked addr len st).2 := by
  unfold discardLocked
  dsimp only
  split
  · exact h
  rename_i hargs
  refine overAreas_shootdown hP hs (fun a lo hi st hlo hst => ?_) (not_not.1 (not_or.1 hargs).1) h
  split
  · exact hst
  · exact hv lo hi st hlo hst

lemma syncLocked_keeps {env : Env} (hv : ∀ a lo hi st, lo % 4096 = 0 → P st → P (queueDirty env a lo hi true st))
    (addr len : Nat) {st : St} (h : P st) : P (syncLocked env addr len st).2 := by
  unfold syncLocked
  dsimp only
  split
  · exact h
  rename_i hargs
  refine overAreas_shootdown hP hs (fun a lo hi st hlo hst => ?_) (not_not.1 (not_or.1 hargs).1) h
  split
  · exact hv a lo hi st hlo hst
  · exact hst

end overAreas

/-! ## What leaves the file side alone -/

structure Still (st st' : St) : Prop where
  layout : st'.vm.layout = st.vm.layout
  pending : st'.vm.pending = st.vm.pending
  acts : fileActs st'.mc.acts = fileActs st.mc.acts

namespace Still

lemma refl (st : St) : Still st st := ⟨rfl, rfl, rfl⟩

variable {a b : St}

lemma trans {c : St} (h : Still a b) (h' : Still b c) : Still a c :=
  ⟨h'.layout.trans h.layout, h'.pending.trans h.pending, h'.acts.trans h.acts⟩

lemma areas {st' : St} (h : Still st st') : st'.vm.areas = st.vm.areas := areas_of_layout h.layout

lemma ite {c : Prop} [Decidable c] (ha : Still st a) (hb : Still st b) : Still st (if c then a else b) := by
  split
  · exact ha
  · exact hb

lemma foldl {β : Type} {f : St → β → St} (h : ∀ st x, Still st (f st x)) (l : List β) (st : St) :
    Still st (l.foldl f st) := by
  induction l generalizing st with
  | nil => exact refl st
  | cons x l ih => exact (h st x).trans (ih (f st x))

lemma act {a : Act} (ha : a.isFile = false) (st : St) : Still st (st.act a) := by
  refine ⟨rfl, rfl, ?_⟩
  show fileActs (st.mc.acts ++ [a]) = _
  rw [fileActs_append, show fileActs [a] = [] by simp [fileActs, ha], List.append_nil]

lemma tick (n : Nat) (st : St) : Still st { st with mc.tick := n } := ⟨rfl, rfl, rfl⟩

lemma setMem (f : Nat) (bytes : Nat → UInt8) (st : St) :
    Still st { st with mc := st.mc.setMem f bytes } := ⟨rfl, rfl, rfl⟩

lemma setPte (va : Nat) (p : Pte) (st : St) : Still st (st.setPte va p) := (⟨rfl, rfl, rfl⟩ : Still st { st with
    vm.pageMap := Function.update st.vm.pageMap (va / 4096) p }).trans (act rfl _)

lemma invalidate (va : Nat) (st : St) : Still st (st.invalidate va) := act rfl st

lemma shootdown (st : St) : Still st st.shootdown := act rfl st

lemma freePage (f : Nat) (st : St) : Still st (st.freePage f) := by
  unfold St.freePage Mach.freePhysicalPage
  split
  · split
    · exact ⟨rfl, rfl, rfl⟩
    · exact ⟨rfl, rfl, by simp [Mach.act, fileActs, Act.isFile]⟩
  · exact refl st

lemma mapPageIn (env : Env) (va : Nat) (p : Pte) (st : St) : Still st (st.mapPageIn env va p).2 := by
  unfold St.mapPageIn
  have htick : Still st { st with mc.tick := st.mc.tick + 1 } := ⟨rfl, rfl, rfl⟩
  cases env.tables st.mc.tick with
  | false => exact htick
  | true => exact htick.trans ((setPte va p _).trans (invalidate va _))

lemma alloc (env : Env) (st : St) : Still st { st with mc := (st.mc.allocPhysicalPage env).2 } := by
  unfold Mach.allocPhysicalPage
  dsimp only
  split <;> exact ⟨rfl, rfl, rfl⟩

lemma freeFrame (st : St) (va : Nat) : Still st (freeFrame st va) := by
  exact ite (refl st) ((freePage _ st).trans ((setPte va _ _).trans (invalidate va _)))

lemma freeFrames (s e : Nat) (st : St) : Still st (freeFrames s e st) := foldl freeFrame _ st

lemma protectPage (prot : Prot) (st : St) (va : Nat) : Still st (protectPage prot st va) := by
  exact ite (refl st) ((setPte va _ st).trans (invalidate va _))

lemma moveOut (env : Env) (oldAddr newAddr : Nat) (offs : List Nat) :
    ∀ st, Still st (moveOut env oldAddr newAddr offs st).2 := by
  induction offs with
  | nil => exact refl
  | cons off rest ih =>
    intro st
    unfold Vm.moveOut
    dsimp only
    split
    · exact ih st
    have hm := mapPageIn env (newAddr + off) (st.pte (oldAddr + off)) st
    generalize st.mapPageIn env (newAddr + off) (st.pte (oldAddr + off)) = r at hm ⊢
    obtain ⟨_ | _, st'⟩ := r
    · exact hm
    · exact (hm.trans ((setPte _ _ st').trans (invalidate _ _))).trans (ih _)

lemma frameFor (env : Env) (va : Nat) (prot : Prot) (st : St) : Still st (frameFor env va prot st).2 := by
  unfold Vm.frameFor
  split
  · exact refl st
  have ha := alloc env st
  generalize st.mc.allocPhysicalPage env = r at ha ⊢
  obtain ⟨_ | f, mc⟩ := r
  · exact ha
  have hz : Still st { st with mc := mc.setMem (f + 1) fun _ => 0 } := ⟨rfl, rfl, ha.acts⟩
  simp only [St.mapPageIn]
  cases env.tables (mc.setMem (f + 1) fun _ => 0).tick with
  | true =>
    exact hz.trans ((tick _ _).trans ((setPte va _ _).trans (invalidate va _)))
  | false =>
    exact hz.trans ((tick _ _).trans (freePage _ _))

lemma flushOthers (st : St) : Still st (flushOthers st) := ite (shootdown st) (refl st)

lemma cowBreak (env : Env) (va : Nat) (st : St) : Still st (cowBreak env va st).2 := by
  unfold Vm.cowBreak
  dsimp only
  split
  · exact setPte va _ st
  have ha := alloc env st
  generalize st.mc.allocPhysicalPage env = r at ha ⊢
  obtain ⟨_ | f, mc⟩ := r
  · exact ha
  have hz : Still st { st with mc := mc.setMem (f + 1) (mc.mem (st.pte va).frame) } := ⟨rfl, rfl, ha.acts⟩
  exact hz.trans ((setPte va _ _).trans ((invalidate va _).trans ((flushOthers _).trans (freePage _ _))))

lemma discardLocked (addr len : Nat) (h : AreasOk st.vm.areas) : Still st (discardLocked addr len st).2 :=
  @discardLocked_keeps (Still st) (fun _ hs => hs.areas ▸ h) (fun s hs => hs.trans (shootdown s))
    (fun lo hi s _ hs => hs.trans (freeFrames lo hi s)) addr len st (refl st)

lemma userStore (addr : Nat) (byte : UInt8) (st : St) : Still st (userStore addr byte st) := by
  exact ite ⟨rfl, rfl, rfl⟩ (refl st)

end Still

end Vm

end Hermes.L2
