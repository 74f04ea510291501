import Hermes.L4Fs.Fat.File
import Hermes.L4Fs.Fat.Table

/-!
# What keeps the FAT

Walking directories, reading and writing entries and keeping the index sets no FAT entry and changes no
inode, whatever the device does.

* `Same.fatKept`, `within_of_post`: from what `Table` says of the cache of the FAT to the relation `FatSame`.
* `within_nextCluster`, `within_fatFlush`: following a chain and flushing.
* `within_findEntry`, `within_deleteSlots`, `within_direntUpdate`: the searches and updates of fat32.c:688 on.
-/
namespace Hermes.L4.Fat

open Prog

variable {g : Geometry} {v v' w : Vol}

structure FatKept (g : Geometry) (v v' : Vol) : Prop where
  raw : v'.rawEntry g = v.rawEntry g
  log : v'.log = v.log
  env : v'.env = v.env
  chain : v'.chain = false
  tab : v'.TabOk g
  info : v'.info = v.info

/-- No entry of the FAT has been set and no inode changed. -/
def FatSame (g : Geometry) (v v' : Vol) : Prop := v.TabOk g → v.chain = false → FatKept g v v'

instance : IsPreorder Vol (FatSame g) where
  refl _ ht hc := ⟨rfl, rfl, rfl, hc, ht, rfl⟩
  trans _ _ _ h h' ht hc := by
    have h1 := h ht hc
    have h2 := h' h1.tab h1.chain
    exact ⟨h2.raw.trans h1.raw, h2.log.trans h1.log, h2.env.trans h1.env, h2.chain, h2.tab, h2.info.trans h1.info⟩

lemma Same.fatKept [Fact g.Whole] (h : Same g v v') (hc : v.chain = false) : FatKept g v v' :=
  ⟨h.raw, h.log, h.env, h.chain.trans hc, h.tab, h.info⟩

/-- Only the data region or the indexes have changed. -/
lemma fatSame_body (b : Body) (hb : b.info = v.info) : FatSame g v { v with toBody := b } :=
  fun ht hc => ⟨rfl, rfl, rfl, hc, ⟨ht.1, ht.2, ht.3⟩, hb⟩

section
variable (g : Geometry)

/-! ## The device -/

lemma within_bdevRead {α : Type} (f : Vol → α) : Within (FatSame g) (bdevRead f) := by
  intro v
  have h : FatSame g v { v with reads := v.reads + 1 } := fun ht hc => ⟨rfl, rfl, rfl, hc, ⟨ht.1, ht.2, ht.3⟩, rfl⟩
  exact bdevRead_post (g := g) h fun _ => h

lemma within_bdevWrite (n off : Nat) (buf : Nat → UInt8) : Within (FatSame g) (bdevWrite g n (putData off buf)) := by
  intro v
  have h : ∀ k, FatSame g v (putData off buf k { v with writes := v.writes + 1 }) := fun k ht hc =>
    ⟨rfl, rfl, rfl, hc, ⟨ht.1, ht.2, ht.3⟩, rfl⟩
  exact bdevWrite_post (h n) (fun k _ _ => h k) fun _ => refl_of (FatSame g) v

lemma within_malloc : Within (FatSame g) malloc := by
  intro v
  have h : FatSame g v { v with mems := v.mems + 1 } := fun ht hc => ⟨rfl, rfl, rfl, hc, ⟨ht.1, ht.2, ht.3⟩, rfl⟩
  exact malloc_post h h

lemma within_iterLoad (it : Iter) : Within (FatSame g) (iterLoad g it) := .ite (.pure _) <| .ite
    (.bind (.failWith (within_bdevRead g _) .io) fun _ => .pure _) (.pure _)

/-! ## The index -/

lemma within_orDiverge {α : Type} (o : Option α) : Within (FatSame g) (orDiverge o : M α) := by
  cases o with
  | none => exact .diverge
  | some a => exact .pure a

lemma within_dindexNew (d n : Nat) : Within (FatSame g) (dindexNew d n) := by
  refine .attempt_bind (within_malloc g) (fun _ => .pure _) fun _ => ?_
  exact .attempt_bind (within_malloc g) (fun _ => .pure _) fun _ => .pure _

lemma within_dindexAdd (idx : DirIndex) (hash : UInt32) (pos : Nat) : Within (FatSame g) (dindexAdd idx hash pos) := by
  refine .ite ?_ (.bind (within_orDiverge g _) fun _ => .pure _)
  exact .attempt_bind (within_malloc g) (fun _ => .pure _) fun _ => .bind (within_orDiverge g _) fun _ => .pure _

lemma within_dindexDrop (d : Nat) : Within (FatSame g) (dindexDrop d) := by
  refine .modify fun v => ?_
  split
  · exact fatSame_body _ rfl
  · exact refl_of (FatSame g) v

lemma within_dindexStore (idx : DirIndex) : Within (FatSame g) (dindexStore idx) :=
  .modify fun v => fatSame_body { v.toBody with indexClock := _, indexes := _ } rfl

lemma within_dindexInsert (d : Nat) (name : Bytes) (pos : Nat) : Within (FatSame g) (dindexInsert d name pos) := by
  refine .bind .read fun v => ?_
  split
  · exact .pure _
  refine .bind (within_dindexAdd g _ _ _) fun r => ?_
  cases r with
  | none => exact within_dindexDrop g d
  | some idx => exact .modify fun v => fatSame_body { v.toBody with indexes := _ } rfl

lemma within_dindexRemoveRange (d lo hi : Nat) : Within (FatSame g) (dindexRemoveRange d lo hi) := by
  refine .modify fun v => ?_
  split
  · exact refl_of (FatSame g) v
  · exact fatSame_body _ rfl

lemma within_dirChanged : Within (FatSame g) dirChanged :=
  .modify fun v => fatSame_body { v.toBody with dirChanges := v.dirChanges + 1 } rfl

lemma within_keepIndex (changes d : Nat) (r : Scan) : Within (FatSame g) (keepIndex changes d r) := by
  refine .bind .read fun v => ?_
  split
  · exact .ite (.bind (within_dindexDrop g d) fun _ => within_dindexStore g _) (.pure _)
  · exact .pure _

/-! ## Directories -/

/-- From what holds of a state with a sound cache. -/
lemma within_of_post {α : Type} {m : M α}
    (h : ∀ v, v.TabOk g → v.chain = false → Post True m (fun _ v' => FatKept g v v') v) : Within (FatSame g) m := by
  intro v
  by_cases ht : v.TabOk g ∧ v.chain = false
  · exact (h v ht.1 ht.2).mono fun _ _ hk _ _ => hk
  · exact post_of_run fun _ _ _ h hc => absurd ⟨h, hc⟩ ht

variable [Fact g.Whole]

lemma within_fatFlush : Within (FatSame g) (fatFlush g) :=
  within_of_post g fun _ ht hc => fatFlush_post ht (fun _ h _ _ => h.fatKept hc) fun _ h _ => h.fatKept hc

lemma within_nextCluster (c : Nat) : Within (FatSame g) (nextCluster g c) :=
  within_of_post g fun _ ht hc => nextCluster_post ht hc (fun _ h => h.fatKept hc) fun _ h _ => h.fatKept hc

lemma within_fsinfoSync : Within (FatSame g) (fsinfoSync g) :=
  within_of_post g fun _ ht hc => fsinfoSync_post ht fun _ h => h.fatKept hc

lemma within_dirSeek (i c : Nat) : Within (FatSame g) (dirSeek g i c) := by
  induction i generalizing c with
  | zero => exact .pure c
  | succ i ih =>
    refine .bind (within_nextCluster g c) fun next => ?_
    exact .ite (ih next) (.fail _)

lemma within_dirOffset (d pos : Nat) : Within (FatSame g) (dirOffset g d pos) :=
  .bind (within_dirSeek g _ d) fun _ => .pure _

lemma within_direntRead (d pos : Nat) : Within (FatSame g) (direntRead g d pos) :=
  .bind (within_dirOffset g d pos) fun _ => .failWith (within_bdevRead g _) .io

lemma within_direntWrite (d pos : Nat) (s : Slot) : Within (FatSame g) (direntWrite g d pos s) :=
  .bind (within_dirOffset g d pos) fun off =>
    .bind (within_fatFlush g) fun _ => within_bdevWrite g _ off _

lemma within_iterSkip (i : Nat) (it : Iter) : Within (FatSame g) (iterSkip g i it) := by
  induction i generalizing it with
  | zero => exact .pure it
  | succ i ih =>
    refine .ite ?_ (.pure it)
    exact .bind (within_nextCluster g _) fun _ => ih _

lemma within_iterInit (d pos : Nat) : Within (FatSame g) (iterInit g d pos) :=
  .bind (within_malloc g) fun _ => .bind (within_iterSkip g _ _) fun _ => .pure _

lemma within_iterRead (it : Iter) : Within (FatSame g) (iterRead g it) := by
  refine .bind (within_iterLoad g it) fun r => ?_
  cases r with
  | none => exact .pure _
  | some it =>
    refine .bind ?_ fun _ => .pure _
    exact .ite (.bind (within_nextCluster g _) fun _ => .pure _) (.pure _)

lemma within_iterNext (k : Nat) (it : Iter) (l : Lfn) : Within (FatSame g) (iterNext g k it l) := by
  induction k generalizing it l with
  | zero => exact .diverge
  | succ k ih =>
    refine .bind (within_iterRead g it) fun r => ?_
    cases r with
    | none => exact .pure _
    | some p =>
      dsimp only
      split
      · exact .pure _
      · exact ih _ _
      · exact .pure _

lemma within_readEntryAt (d pos : Nat) : Within (FatSame g) (readEntryAt g d pos) :=
  .bind (within_iterInit g d pos) fun it => .bind (within_iterNext g _ it _) fun _ => .pure _

lemma within_takenLoop (raw : Bytes) (k : Nat) (it : Iter) : Within (FatSame g) (takenLoop g raw k it) := by
  induction k generalizing it with
  | zero => exact .diverge
  | succ k ih =>
    refine .bind (.attempt (within_iterNext g _ it _)) fun r => ?_
    match r with
    | .error _ => exact .pure _
    | .ok (none, _) => exact .pure _
    | .ok (some f, it) => exact .ite (.pure _) (ih it)

lemma within_shortNameTaken (d : Nat) (raw : Bytes) : Within (FatSame g) (shortNameTaken g d raw) := by
  refine .attempt_bind (within_iterInit g d 0) (fun _ => .pure _) fun it => ?_
  exact .attempt_bind (within_malloc g) (fun _ => .pure _) fun _ => within_takenLoop g raw _ it

lemma within_tailsLoop (basis ext : Bytes) (k : Nat) (it : Iter) (used : Nat → Bool) :
    Within (FatSame g) (tailsLoop g basis ext k it used) := by
  induction k generalizing it used with
  | zero => exact .diverge
  | succ k ih =>
    refine .bind (.attempt (within_iterRead g it)) fun r => ?_
    match r with
    | .error _ => exact .pure _
    | .ok none => exact .pure _
    | .ok (some (de, it)) =>
      refine .ite (.pure _) (.ite (ih it used) ?_)
      dsimp only
      split
      · exact ih it used
      split
      · exact ih it _
      · exact ih it used

lemma within_lowestFreeTail (d : Nat) (basis ext : Bytes) : Within (FatSame g) (lowestFreeTail g d basis ext) := by
  refine .attempt_bind (within_malloc g) (fun _ => .pure _) fun _ => ?_
  refine .attempt_bind (within_iterInit g d 0) (fun _ => .pure _) fun it => ?_
  refine .bind (within_tailsLoop g basis ext _ it _) fun used => ?_
  exact .pure (firstUnused used (tailBitmapBits - 1) 1)

lemma within_tailLoop (d : Nat) (basis ext : Bytes) (k n : Nat) : Within (FatSame g) (tailLoop g d basis ext k n) := by
  induction k generalizing n with
  | zero => exact .fail _
  | succ k ih =>
    refine .bind (within_shortNameTaken g d _) fun _ => ?_
    exact .ite (ih _) (.pure _)

lemma within_makeTailName (d : Nat) (name : Bytes) : Within (FatSame g) (makeTailName g d name) :=
  .bind (within_lowestFreeTail g d _ _) fun _ => .ite (.pure _) (within_tailLoop g d _ _ _ _)

lemma within_makeShortName (d : Nat) (name : Bytes) : Within (FatSame g) (makeShortName g d name) := by
  have htail : Within (FatSame g) (do
      let raw ← makeTailName g d name
      pure (raw, (0 : UInt8), true)) := .bind (within_makeTailName g d name) fun _ => .pure _
  unfold makeShortName
  split
  · exact htail
  · exact .bind (within_shortNameTaken g d _) fun _ => .ite htail (.pure _)

lemma within_writeSlots (d pos : Nat) (l : List Slot) : Within (FatSame g) (writeSlots g d pos l) := by
  induction l generalizing pos with
  | nil => exact .pure _
  | cons s l ih => exact .bind (within_direntWrite g d pos s) fun _ => ih _

lemma within_writeNameEntries (d pos : Nat) (name : Bytes) (lfn : Bool) (de : Slot) :
    Within (FatSame g) (writeNameEntries g d pos name lfn de) :=
  .bind (within_writeSlots g d pos _) fun _ => .pure _

/-! ## Entries by name -/

lemma within_scanLoop (name : Bytes) (k : Nat) (it : Iter) (found : Option Found) (idx : Option DirIndex) :
    Within (FatSame g) (scanLoop g name k it found idx) := by
  induction k generalizing it found idx with
  | zero => exact .diverge
  | succ k ih =>
    refine .bind (.attempt (within_iterNext g _ it _)) fun r => ?_
    match r, idx with
    | .error _, _ => exact .pure _
    | .ok (none, _), _ => exact .pure _
    | .ok (some cur, it), none => exact .ite (.pure _) (ih it _ _)
    | .ok (some cur, it), some idx =>
      refine .bind (within_dindexAdd g idx _ _) fun r => ?_
      cases r with
      | none => exact .ite (.pure _) (ih it _ _)
      | some idx => exact ih it _ _

lemma within_scanEntry (d : Nat) (name : Bytes) : Within (FatSame g) (scanEntry g d name) := by
  refine .bind (.attempt (within_malloc g)) fun cur => .bind (within_dindexNew g d 256) fun idx => ?_
  cases cur with
  | error e => exact .fail e
  | ok _ =>
    refine .bind (within_iterInit g d 0) fun it => .bind .read fun v => ?_
    refine .bind (within_scanLoop g name _ it none idx) fun r => ?_
    refine .bind (within_keepIndex g _ d r) fun _ => ?_
    split
    · exact .fail _
    · exact .pure _
    · exact .fail _

lemma within_tryCandidates (d : Nat) (name : Bytes) (cs : List Nat) : Within (FatSame g) (tryCandidates g d name cs) := by
  induction cs with
  | nil => exact .fail _
  | cons c cs ih =>
    refine .bind (within_readEntryAt g d c) fun r => ?_
    cases r with
    | none => exact ih
    | some f => exact .ite (.pure _) ih

lemma within_findEntry (d : Nat) (name : Bytes) : Within (FatSame g) (findEntry g d name) := by
  refine .bind .read fun v => ?_
  split
  · exact within_scanEntry g d name
  refine .bind (.modify fun v => fatSame_body { v.toBody with indexClock := _, indexes := _ } rfl) fun _ => ?_
  refine .bind (within_orDiverge g _) fun r => ?_
  cases r with
  | none => exact within_scanEntry g d name
  | some cs => exact within_tryCandidates g d name cs

lemma within_deleteLoop (d k pos : Nat) : Within (FatSame g) (deleteLoop g d k pos) := by
  induction k generalizing pos with
  | zero => exact .pure _
  | succ k ih =>
    exact .bind (within_direntRead g d pos) fun _ => .bind (within_direntWrite g d pos _) fun _ => ih _

lemma within_deleteSlots (d lo hi : Nat) : Within (FatSame g) (deleteSlots g d lo hi) := by
  refine .bind (within_dindexRemoveRange g d lo hi) fun _ => ?_
  refine .bind (.attempt (within_deleteLoop g d _ lo)) fun r => .bind (within_dirChanged g) fun _ => ?_
  cases r with
  | error e => exact .fail e
  | ok _ => exact .pure _

/-! ## Inodes -/

lemma within_emptyLoop (k : Nat) (it : Iter) : Within (FatSame g) (emptyLoop g k it) := by
  induction k generalizing it with
  | zero => exact .diverge
  | succ k ih =>
    refine .bind (.attempt (within_iterNext g _ it _)) fun r => ?_
    match r with
    | .error _ => exact .pure _
    | .ok (none, _) => exact .pure _
    | .ok (some f, it) => exact .ite (.pure _) (ih it)

lemma within_dirEmpty (d : Nat) : Within (FatSame g) (dirEmpty g d) := by
  refine .attempt_bind (within_iterInit g d 0) (fun _ => .pure _) fun it => ?_
  exact .attempt_bind (within_malloc g) (fun _ => .pure _) fun _ => within_emptyLoop g _ it

lemma within_removable (isDir : Bool) (f : Found) : Within (FatSame g) (removable g isDir f) := by
  refine .ite (.fail _) (.ite (.fail _) (.ite ?_ (.pure _)))
  exact .bind (within_dirEmpty g _) fun _ => .ite (.pure _) (.fail _)

lemma within_setParent (moved parent : Nat) : Within (FatSame g) (setParent g moved parent) := by
  exact .attempt_bind (within_direntRead g moved _) (fun _ => .pure _) fun _ =>
    .bind (.attempt (within_direntWrite g moved _ _)) fun _ => .pure _

lemma within_direntUpdate (node : Nat) : Within (FatSame g) (direntUpdate g node) := by
  refine .bind .read fun v => .ite (.pure _) ?_
  refine .bind (within_direntRead g _ _) fun de => ?_
  refine .bind (.attempt (within_direntWrite g _ _ _)) fun r => ?_
  refine .bind (within_fsinfoSync g) fun _ => ?_
  cases r with
  | error e => exact .fail e
  | ok _ => exact .pure _

end

end Hermes.L4.Fat
