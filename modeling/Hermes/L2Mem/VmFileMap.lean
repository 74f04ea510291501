import Hermes.L2Mem.VmInv

/-!
# The file behind each address

`FileMap` says which file offset an address stands for, as the calls are
meant to arrange it: a file that is attached at `start` lies there from its
offset on, a range that moves takes its offsets along, one that grows goes
on counting, a clone has the same file map. `VmSpace.files` is what the
areas say. Given memory, the two agree after every call.
-/
namespace Hermes.L2.Vm

open Hermes.Intervals Function Option

/-- The file and the offset behind an address; file 0 is no file. -/
abbrev FileMap := Nat → Option (Nat × Nat)

namespace FileMap

def clear (m : FileMap) (lo hi : Nat) : FileMap := fun va => if lo ≤ va ∧ va < hi then none else m va

/-- `file` from `offset` on in `[lo, hi)`. -/
def place (m : FileMap) (lo hi file offset : Nat) : FileMap := fun va =>
  if lo ≤ va ∧ va < hi then some (file, wrap (offset + (va - lo))) else m va

/-- What began at `oldAddr` begins at `newAddr`, for `newLen` bytes. -/
def move (m : FileMap) (oldAddr oldLen newAddr newLen : Nat) : FileMap := fun va =>
  if newAddr ≤ va ∧ va < newAddr + newLen then
    (m oldAddr).map fun p => (p.1, wrap (p.2 + (va - newAddr)))
  else if oldAddr ≤ va ∧ va < oldAddr + oldLen then none
  else m va

end FileMap

/-- The file map that the areas describe. -/
def VmSpace.files (vm : VmSpace) : FileMap := fun va =>
  (entryAt vm.areas va).map fun e => (e.file, e.offset)

/-- What a call makes of the file map: by its arguments and its result, the
length of the area a file is attached to, and for `brk` the heap area it extends. -/
def Call.track (env : Env) (st : St) (m : FileMap) : Call → FileMap
  | .map addr len prot caller fixed =>
    match caller.flags prot with
    | none => m
    | some flags =>
      match (mapLocked env addr.toNat len.toNat prot flags fixed st).1 with
      | .ok start => m.place start (start + pageAlignUp len.toNat) 0 0
      | .error _ => m
  | .unmap addr len =>
    match (unmapLocked env addr.toNat len.toNat st).1 with
    | none => m.clear addr.toNat (rangeEnd addr.toNat len.toNat)
    | some _ => m
  | .brk newBrk =>
    let oldEnd := pageAlignUp st.vm.brk
    let newEnd := pageAlignUp newBrk.toNat
    if (brkLocked env newBrk.toNat st).vm.brk ≠ newBrk.toNat then m
    else if oldEnd < newEnd then
      match heapArea st.vm oldEnd with
      | some a => m.move a.start (oldEnd - a.start) a.start (newEnd - a.start)
      | none => m.place oldEnd newEnd 0 0
    else m.clear newEnd oldEnd
  | .remap oldAddr oldLen newLen mayMove =>
    match (remapLocked env oldAddr.toNat oldLen.toNat newLen.toNat mayMove st).1 with
    | .ok new => m.move oldAddr.toNat (pageAlignUp oldLen.toNat) new (pageAlignUp newLen.toNat)
    | .error _ => m
  | .remapFixed oldAddr oldLen newLen mayMove newAddr =>
    match (remapFixedLocked env oldAddr.toNat oldLen.toNat newLen.toNat mayMove newAddr.toNat st).1 with
    | .ok new => m.move oldAddr.toNat (pageAlignUp oldLen.toNat) new (pageAlignUp newLen.toNat)
    | .error _ => m
  | .attachFile start file offset =>
    match vmFind st.vm.areas start.toNat, (Vm.attachFile start.toNat file offset.toNat st).1 with
    | some a, none => m.place start.toNat a.stop file offset.toNat
    | _, _ => m
  | _ => m

/-- The file maps of all address spaces, step by step. -/
def track (w : World) (g : Nat → FileMap) : Ev → Nat → FileMap
  | .create i _ =>
    match w.spaces i with
    | some _ => g
    | none => update g i fun _ => none
  | .call i env c =>
    match w.spaces i with
    | some vm => update g i (c.track env ⟨vm, w.mc⟩ (g i))
    | none => g
  | .clone i j _ =>
    match w.spaces i, w.spaces j with
    | some _, none => update g j (g i)
    | _, _ => g
  | .release _ _ => g

/-! ## Each call -/

variable {vm vm' : VmSpace} {stop : Nat} {st : St}

lemma files_of_areas (h : vm'.areas = vm.areas) : vm'.files = vm.files := by
  unfold VmSpace.files
  rw [h]

lemma files_of_entry (h : ∀ va, entryAt vm'.areas va = entryAt vm.areas va) : vm'.files = vm.files := by
  funext va
  unfold VmSpace.files
  rw [h]

variable {prot : Prot} {addr : Nat} {env : Env}

lemma Mapped.files {start : Nat} {flags : AreaFlags} (h : Mapped vm vm' start stop prot flags)
    (hs : stop ≤ 2 ^ 64) : vm'.files = vm.files.place start stop 0 0 := by
  funext va
  unfold VmSpace.files FileMap.place
  rw [h.entry]
  split
  · rw [map_some, zero_add, wrap_of_lt (by omega)]
  · rfl

lemma Unmapped.files (h : Unmapped vm vm' addr stop) : vm'.files = vm.files.clear addr stop := by
  funext va
  unfold VmSpace.files FileMap.clear
  rw [h.entry]
  split <;> rfl

lemma move_of_entry {oldAddr oldLen newAddr newLen : Nat} (h : EntriesMoved vm vm' oldAddr oldLen newAddr newLen) :
    vm'.files = vm.files.move oldAddr oldLen newAddr newLen := by
  funext va
  unfold VmSpace.files FileMap.move
  rw [h]
  split
  · rw [map_map, map_map]
    rfl
  split <;> rfl

/-- `brk`, with `brk` the break it leaves: the heap area goes on, a new area has no
file, a lower break clears. -/
def VmSpace.brkFiles (vm : VmSpace) (newBrk brk : Nat) : FileMap :=
  if brk ≠ newBrk then vm.files
  else if pageAlignUp vm.brk < pageAlignUp newBrk then
    match heapArea vm (pageAlignUp vm.brk) with
    | some a => vm.files.move a.start (pageAlignUp vm.brk - a.start) a.start (pageAlignUp newBrk - a.start)
    | none => vm.files.place (pageAlignUp vm.brk) (pageAlignUp newBrk) 0 0
  else vm.files.clear (pageAlignUp newBrk) (pageAlignUp vm.brk)

lemma brk_files (he : Ample env) (newBrk : Nat) (h : SpaceOk st.vm) :
    (brkLocked env newBrk st).vm.files = st.vm.brkFiles newBrk (brkLocked env newBrk st).vm.brk := by
  have hold := pageAlignUp_aligned st.vm.brk
  have hnew := pageAlignUp_aligned newBrk
  have holt := pageAlignUp_lt st.vm.brk
  -- a call that leaves the break alone leaves the areas alone
  have hsame : st.vm.files = st.vm.brkFiles newBrk st.vm.brk := by
    unfold VmSpace.brkFiles
    by_cases hb : st.vm.brk = newBrk
    · rw [if_neg (not_not.2 hb), if_neg (by rw [hb]; omega), hb]
      funext va
      rw [FileMap.clear, if_neg (by omega)]
    · rw [if_pos hb]
  unfold VmSpace.brkFiles at hsame ⊢
  unfold brkLocked
  by_cases hlow : newBrk < st.vm.brkStart
  · rw [if_pos hlow]
    exact hsame
  rw [if_neg hlow]
  by_cases hgrow : pageAlignUp st.vm.brk < pageAlignUp newBrk
  · simp only [hgrow, if_true] at hsame ⊢
    by_cases hroom : userRange (pageAlignUp st.vm.brk) (pageAlignUp newBrk) = false ∨
        vmRangeFree st.vm.areas (pageAlignUp st.vm.brk) (pageAlignUp newBrk) = false
    · rw [if_pos hroom]
      exact hsame
    rw [if_neg hroom]
    simp only [not_or, Bool.not_eq_false] at hroom
    obtain ⟨hu1, hu2, -⟩ := userRange_iff.1 hroom.1
    rcases hheap : heapArea st.vm (pageAlignUp st.vm.brk) with - | a
    · rw [hheap] at hsame
      have hspec := mapLocked_spec env (pageAlignUp st.vm.brk)
        (pageAlignUp newBrk - pageAlignUp st.vm.brk) ⟨true, true, false⟩ ⟨false, true, false, false⟩
        true h.areas h.base (fun hs => absurd hs.1 (by decide))
      rw [@pageAlignUp_of_aligned (pageAlignUp newBrk - pageAlignUp st.vm.brk) (by omega) (by omega)] at hspec
      generalize mapLocked env (pageAlignUp st.vm.brk) (pageAlignUp newBrk - pageAlignUp st.vm.brk)
        ⟨true, true, false⟩ ⟨false, true, false, false⟩ true st = r at hspec ⊢
      obtain ⟨e | start, st'⟩ := r
      · obtain rfl : st' = st := hspec.2 he rfl e rfl
        exact hsame
      obtain ⟨s, hs, hfix, -, -, -, hm⟩ := hspec.1.resolve_right (by simp)
      obtain rfl := hfix rfl
      rw [if_neg (not_not.2 rfl)]
      show st'.vm.files = _
      rw [hm.files (by omega), Nat.add_sub_cancel' (by omega)]
    · obtain ⟨ha, hstop⟩ := mem_of_heapArea h.areas hheap
      have hlt := h.areas.lt ha
      dsimp only
      rw [if_neg (not_not.2 rfl)]
      have hg := grown_areaSet h.areas ha hnew (by rw [hstop]; exact hroom.1) (by rw [hstop]; exact hroom.2)
      rw [hstop] at hg
      rw [← move_of_entry (hg.moved h.areas ha le_rfl (by omega) (by omega) (by omega))]
      rfl
  · simp only [hgrow, if_false] at hsame ⊢
    split
    · have hre := @rangeEnd_of_aligned (pageAlignUp newBrk) (pageAlignUp st.vm.brk - pageAlignUp newBrk)
        (by omega) (by omega) (by omega)
      rcases unmapLocked_spec env (pageAlignUp newBrk) (pageAlignUp st.vm.brk - pageAlignUp newBrk) h.areas with
        ⟨st', hu, -, -, -, hun⟩ | ⟨e, st', -, -, hamp⟩
      swap
      · exact absurd ((hamp he).2 hnew (by omega)) (by omega)
      rw [hre] at hun
      rw [hu]
      rw [if_neg (not_not.2 rfl)]
      show st'.vm.files = _
      rw [hun.files, Nat.add_sub_cancel' (by omega)]
    · rw [if_neg (not_not.2 rfl)]
      funext va
      rw [FileMap.clear, if_neg (by omega)]
      rfl

lemma attachFile_files (start file offset : Nat) (h : SpaceOk st.vm) : (attachFile start file offset st).2.vm.files =
      match vmFind st.vm.areas start, (attachFile start file offset st).1 with
      | some a, none => st.vm.files.place start a.stop file offset
      | _, _ => st.vm.files := by
  unfold attachFile
  rcases hfind : vmFind st.vm.areas start with - | a
  · rfl
  obtain ⟨ha, _⟩ := (vmFind_eq_some h.areas.tiled).1 hfind
  dsimp only
  by_cases hc : a.start = start ∧ a.file = 0
  swap
  · rw [if_neg hc]
  rw [if_pos hc]
  funext va
  show (entryAt (areaSet st.vm.areas a { a with file := file, offset := offset }) va).map _ =
    st.vm.files.place start a.stop file offset va
  rw [entryAt_attach h.areas ha, FileMap.place, hc.1]
  split
  · simp only [map_some, VmArea.entry, VmArea.offsetAt]
  · rfl

lemma Cut.files (h : Cut vm vm') : vm'.files = vm.files := files_of_entry h.areas.entry

lemma Protected.files (h : Protected vm vm' addr stop prot) : vm'.files = vm.files := by
  funext va
  unfold VmSpace.files
  rw [h.entry]
  split
  · rw [map_map]
    rfl
  · rfl

lemma protectLocked_files (env : Env) (addr len : Nat) (prot : Prot) (h : SpaceOk st.vm) :
    (protectLocked env addr len prot st).2.vm.files = st.vm.files := by
  rcases protectLocked_spec env addr len prot h.areas with ⟨-, -, hp⟩ | ⟨-, -, -, -, hp⟩ | ⟨-, hp⟩
  · rw [hp]
  · exact hp.files
  · exact hp.files

lemma syncLocked_layout (env : Env) (addr len : Nat) (h : AreasOk st.vm.areas) :
    (syncLocked env addr len st).2.vm.layout = st.vm.layout :=
  @syncLocked_keeps (fun s => s.vm.layout = st.vm.layout) (fun _ hs => areas_of_layout hs ▸ h) (fun _ hs => hs) env
    (fun a lo hi s _ hs => (queueDirty_layout env a lo hi true s).trans hs) addr len st rfl

/-- Each call does to the areas' files what it does to the file map. -/
lemma Call.track_files (he : Ample env) (c : Call) (h : SpaceOk st.vm) (hw : c.NoWrap st.vm) :
    (c.apply env st).vm.files = c.track env st st.vm.files := by
  cases c with
  | map addr len prot caller fixed =>
    dsimp only [Call.apply, Call.track]
    rcases hf : caller.flags prot with - | flags
    · rfl
    obtain ⟨hspec, hamp⟩ := mapLocked_spec env addr.toNat len.toNat prot flags fixed h.areas h.base
      (fun hs => hw _ (if_pos hs))
    dsimp only
    rcases hspec with ⟨start, hk, -, -, hr, -, hm⟩ | ⟨e, hk, hc⟩ <;> rw [hk]
    · exact hm.files (by have := (userRange_iff.1 hr).2.1; omega)
    rcases hc with hc | ⟨rfl, -⟩
    · exact hc.files
    · rw [hamp he rfl e hk]
  | unmap addr len =>
    dsimp only [Call.apply, Call.track]
    rcases unmapLocked_spec env addr.toNat len.toNat h.areas with ⟨st', hk, -, -, -, hu⟩ | ⟨e, st', hk, hc, -⟩ <;> rw [hk]
    · exact hu.files
    exact hc.files
  | protect addr len prot => exact protectLocked_files env _ _ _ h
  | discard addr len => exact files_of_areas (Still.discardLocked _ _ h.areas).areas
  | brk newBrk => exact brk_files he newBrk.toNat h
  | setBrk start => rfl
  | remap oldAddr oldLen newLen mayMove =>
    dsimp only [Call.apply, Call.track]
    have hspec := remapLocked_spec env oldAddr.toNat oldLen.toNat newLen.toNat mayMove h
      (fun hs => hw _ (if_pos hs))
    rcases hk : (remapLocked env oldAddr.toNat oldLen.toNat newLen.toNat mayMove st).1 with e | new
    · rcases hspec with ⟨e', -, hc⟩ | ⟨-, hres⟩
      · exact hc.files
      · rcases hres with ⟨hok, -⟩ | ⟨hok, -⟩ | ⟨n, hok, -⟩ <;> rw [hok] at hk <;> cases hk
    · exact move_of_entry (hspec.moved h hk).2.2
  | remapFixed oldAddr oldLen newLen mayMove newAddr =>
    dsimp only [Call.apply, Call.track]
    obtain ⟨hspec, hamp⟩ := remapFixedLocked_spec env oldAddr.toNat oldLen.toNat newLen.toNat mayMove newAddr.toNat h
    rcases hspec with ⟨e, hk, -⟩ | ⟨hk, -, -, -, -, -, -, -, hm⟩
    · rw [hk, hamp he e hk]
    rw [hk]
    exact move_of_entry hm.entry
  | sync addr len => exact files_of_areas (areas_of_layout (syncLocked_layout env _ _ h.areas))
  | attachFile start file offset => exact attachFile_files _ _ _ h
  | insertFrame va frame => exact files_of_areas (insertFrameLocked_ok env _ frame.2 h).2.areas
  | fault addr wr => exact files_of_areas (faultLocked_ok env _ wr h).2.areas
  | populate addr len wr => exact files_of_areas (populateLocked_ok env _ _ wr h).2.areas
  | write addr src len => exact files_of_areas (writeFrom_ok env src _ _ _ _ _ h).2.areas
  | drain => rfl
  | acquire => rfl
  | store addr byte => exact files_of_areas (Still.userStore _ byte st).areas

end Hermes.L2.Vm
