import Hermes.L4Fs.Fat.Kept
import Hermes.L4Fs.Fat.Sys

/-!
# Which links are overwritten

`alloc_cluster` puts its cluster behind `prev`, so `prev` has to be the end of a chain. Its callers `chain_seek`,
`write_at` and `dir_alloc_slots` know that from `fat32_next_cluster`, which returns the same for the end of a chain and
for an error.

* `links_kept`: where the device accesses that are made for `fat32_next_cluster` succeed, a link is only ever overwritten
  by `trim_chain` and `free_chain`, whatever else fails.
* `read_error_relinks`: one failed read, and a file loses its second cluster.

`Sane` is what every function of an operation keeps, one lemma each: directories up to `sane_rename`, files
up to `fileSane_truncate`.
-/
namespace Hermes.L4.Fat

open Prog Function

/-- A write to the FAT that takes a free cluster, extends a chain at its end, or belongs to a truncation or
deletion. -/
def FatWrite.Harmless (g : Geometry) (w : FatWrite) : Prop :=
  match w.cause with
  | .take => w.old = 0
  | .link => ¬ g.Valid w.old
  | .free | .cut => True

/-- The chains can be read, and all writes since `log` are harmless. -/
structure Sane (g : Geometry) (log : List FatWrite) (v : Vol) : Prop where
  tab : v.TabOk g
  chain : v.chain = false
  fine : g.writable = true ∧ v.env.Chains
  harmless : ∀ w ∈ v.log, w ∈ log ∨ w.Harmless g

/-- The clusters that an inode keeps are clusters. -/
def NodeOk (g : Geometry) (fi : Inode) : Prop :=
  (fi.first = 0 ∨ g.Valid fi.first) ∧ (fi.cacheCluster = 0 ∨ g.Valid fi.cacheCluster)

variable {g : Geometry} {log : List FatWrite} {v v' : Vol} {c prev node : Nat}

lemma Sane.kept (h : Sane g log v) (hk : FatKept g v v') : Sane g log v' :=
  ⟨hk.tab, hk.chain, hk.env ▸ h.fine, hk.log ▸ h.harmless⟩

lemma Sane.write {w : FatWrite} (h : Sane g log v) (ht : v'.TabOk g) (hc : v'.chain = v.chain) (he : v'.env = v.env)
    (hl : v'.log = w :: v.log) (hw : w.Harmless g) : Sane g log v' := by
  refine ⟨ht, hc.trans h.chain, he ▸ h.fine, ?_⟩
  rw [hl]
  exact List.forall_mem_cons.2 ⟨.inr hw, h.harmless⟩

/-- Where an allocation may put its cluster. -/
def Appendable (g : Geometry) (v : Vol) (prev : Nat) : Prop := prev = 0 ∨ g.Valid prev ∧ ¬ g.Valid (v.view g prev)

lemma eoc_not_valid : ¬ g.Valid eoc := by
  intro h
  have := g.total_le
  have := h.2
  unfold eoc at this
  omega

variable {zeroFill : Bool} {α : Type} {it : Iter} {count size done : Nat}

lemma Sane.alloced (h : Sane g log v) (hp : Appendable g v prev) (ha : Alloced g v v' prev zeroFill c) :
    Sane g log v' := by
  have htake : Sane g log { v' with log := ⟨.take, c, 0, eoc⟩ :: v.log } :=
    h.write ⟨ha.tab.1, ha.tab.2, ha.tab.3⟩ ha.chain ha.env rfl rfl
  by_cases h0 : prev = 0
  · exact ⟨ha.tab, htake.chain, htake.fine, by rw [ha.log, if_pos h0]; exact htake.harmless⟩
  refine htake.write (w := ⟨.link, prev, update (v.view g) c eoc prev, c⟩) ha.tab rfl rfl ?_ ?_
  · rw [ha.log, if_neg h0]
    rfl
  show ¬ g.Valid (update (v.view g) c eoc prev)
  by_cases hc : prev = c
  · rw [hc, update_self]
    exact eoc_not_valid
  rw [update_of_ne hc]
  exact (hp.resolve_left h0).2

lemma Sane.failed (h : Sane g log v) (ha : AllocFailed g v v' c) : Sane g log v' := by
  rcases ha.view with ⟨-, hl⟩ | ⟨-, hl⟩
  · exact ⟨ha.tab, ha.chain.trans h.chain, ha.env ▸ h.fine, hl ▸ h.harmless⟩
  · exact h.write ha.tab ha.chain ha.env hl rfl

/-- A function that sets no entry. -/
lemma Sane.within {m : M α} (h : Sane g log v) (hm : Within (FatSame g) m) : Post True m (fun _ => Sane g log) v :=
  (hm v).mono fun _ _ hk => h.kept (hk h.tab h.chain)

/-- The same, and the inodes are these. -/
structure SaneAt (g : Geometry) (log : List FatWrite) (info : Nat → Inode) (v : Vol) : Prop extends Sane g log v where
  same_info : v.info = info

lemma SaneAt.within {info : Nat → Inode} {m : M α} (h : SaneAt g log info v) (hm : Within (FatSame g) m) :
    Post True m (fun _ => SaneAt g log info) v :=
  (hm v).mono fun _ _ hk => ⟨h.kept (hk h.tab h.chain), (hk h.tab h.chain).info.trans h.same_info⟩

/-- The same for an operation on a file. -/
structure FileSane (g : Geometry) (log : List FatWrite) (node : Nat) (v : Vol) : Prop extends Sane g log v where
  node : NodeOk g (v.info node)

lemma FileSane.of_info (h : FileSane g log node v) (hs : Sane g log v') (hi : v'.info = v.info) :
    FileSane g log node v' := ⟨hs, by rw [hi]; exact h.node⟩

section

variable (h : FileSane g log node v)
include h

lemma FileSane.within {m : M α} (hm : Within (FatSame g) m) : Post True m (fun _ => FileSane g log node) v :=
  (hm v).mono fun _ _ hk => h.of_info (h.kept (hk h.tab h.chain)) (hk h.tab h.chain).info

/-- A function that changes no inode. -/
lemma FileSane.at {m : M α} (hm : Post True m (fun _ => SaneAt g log v.info) v) :
    Post True m (fun _ => FileSane g log node) v :=
  hm.mono fun _ _ hw => h.of_info hw.toSane hw.same_info

lemma fileSane_updateInfo {f : Inode → Inode} (hf : NodeOk g (f (v.info node))) :
    Post True (updateInfo node f) (fun _ => FileSane g log node) v := by
  refine ⟨⟨⟨h.tab.1, h.tab.2, h.tab.3⟩, h.chain, h.fine, h.harmless⟩, ?_⟩
  show NodeOk g (update v.info node (f (v.info node)) node)
  rw [update_self]
  exact hf

end

section Whole

variable {Q : Except Errno Nat → Vol → Prop} {d pos runMax len : Nat} {src : Buffer} {grow : Bool} [Fact g.Whole]

lemma Sane.same (h : Sane g log v) (hs : Same g v v') : Sane g log v' := h.kept (hs.fatKept h.chain)

lemma sane_allocCluster (h : Sane g log v) (hp : Appendable g v prev)
    (hgot : ∀ c v', g.Valid c → Sane g log v' → v'.info = v.info → Q (.ok c) v')
    (hnone : ∀ v', Sane g log v' → v'.info = v.info → Q (.ok 0) v') : Post True (allocCluster g prev zeroFill) Q v :=
  allocCluster_post h.tab (hp.imp_right And.left) (fun c v' ha => hgot c v' ha.valid (h.alloced hp ha) ha.info)
    (fun v' hs => hnone v' (h.same hs) hs.info) fun _ v' ha => hnone v' (h.failed ha) ha.info

/-- The cluster after `c`, and whether the chain can be extended there. -/
lemma sane_nextCluster (h : Sane g log v) (hc : g.Valid c)
    (hq : ∀ n v', Sane g log v' → v'.info = v.info → (g.Valid n ∨ Appendable g v' c) → Q (.ok n) v') :
    Post True (nextCluster g c) Q v := by
  refine nextCluster_post h.tab h.chain (fun v' hs => ?_) fun v' _ hf => absurd h.fine hf
  refine hq _ v' (h.same hs) hs.info ?_
  rw [Vol.next, if_pos hc, ← hs.view]
  by_cases hv : g.Valid (v'.view g c)
  · exact .inl hv
  · exact .inr (.inr ⟨hc, hv⟩)

section

variable {info : Nat → Inode} (h : SaneAt g log info v)
include h

lemma saneAt_fatSet {cause : Cause} {value : Nat} (hc : g.Valid c) (hcause : cause = .free ∨ cause = .cut) :
    Post True (fatSet g cause c value) (fun _ => SaneAt g log info) v := by
  refine fatSet_post h.tab hc.lt_copySize (fun v' hw => ?_) fun v' hs => ⟨h.same hs, hs.info.trans h.same_info⟩
  refine ⟨h.write hw.tab hw.chain hw.env hw.log ?_, (congrArg Body.info hw.body).trans h.same_info⟩
  rcases hcause with rfl | rfl <;> trivial

lemma saneAt_freeLoop (k : Nat) : Post True (freeLoop g k c) (fun _ => SaneAt g log info) v := by
  induction k generalizing v c with
  | zero => trivial
  | succ k ih =>
    rw [freeLoop]
    split <;> rename_i hc
    · refine (h.within (within_nextCluster g c)).seq fun next v₁ h₁ => ?_
      refine (saneAt_fatSet h₁ hc (.inl rfl)).attempted.seq fun r v₂ h₂ => ?_
      cases r with
      | error _ => exact h₂
      | ok _ =>
        refine Post.seq ?_ fun _ v₃ h₃ => ih h₃
        exact ⟨⟨⟨h₂.tab.1, h₂.tab.2, h₂.tab.3⟩, h₂.chain, h₂.fine, h₂.harmless⟩, h₂.same_info⟩
    · exact h

lemma saneAt_freeChain : Post True (freeChain g c) (fun _ => SaneAt g log info) v :=
  (h.within (within_dindexDrop g c)).seq fun _ _ h₁ => saneAt_freeLoop h₁ _

end

lemma sane_freeChain (h : Sane g log v) : Post True (freeChain g c) (fun _ => Sane g log) v :=
  (saneAt_freeChain ⟨h, rfl⟩).mono fun _ _ hw => hw.toSane

/-! ## Directories -/

/-- The iterator knows where the chain can be extended. -/
structure ItOk (g : Geometry) (v : Vol) (it : Iter) : Prop where
  last : g.Valid it.lastCluster
  loaded : it.loaded = true → it.lastCluster = it.cluster
  ends : it.loaded = false → g.Valid it.cluster ∨ Appendable g v it.lastCluster

lemma sane_iterRead {Q : Except Errno (Option (Slot × Iter)) → Vol → Prop} (h : Sane g log v) (hit : ItOk g v it)
    (hnone : it.loaded = false → Appendable g v it.lastCluster → Q (.ok none) v)
    (hsome : ∀ raw it' v', Sane g log v' → ItOk g v' it' → Q (.ok (some (raw, it'))) v')
    (herr : ∀ e v', Sane g log v' → Q (.error e) v') : Post True (iterRead g it) Q v := by
  -- from a loaded cluster
  have hstep : ∀ it w, Sane g log w → it.loaded = true → it.lastCluster = it.cluster → g.Valid it.cluster →
      Post True (do
        let it' ← iterAdvance g it
        pure (some ((fun i => it.buf (it.pos % g.clusterSize + i) : Slot), it'))) Q w := by
    intro it w hw hl hlast hc
    unfold iterAdvance
    split
    · simp only [post_bind]
      refine sane_nextCluster hw hc fun n x hx _ hn => ?_
      refine hsome _ _ x hx ⟨hlast ▸ hc, by simp, fun _ => ?_⟩
      exact hlast ▸ hn
    · exact hsome _ _ w hw ⟨hlast ▸ hc, fun _ => hlast, fun h => by cases hl.symm.trans h⟩
  unfold iterRead iterLoad
  rw [post_bind]
  split <;> rename_i hl
  · have hlast := hit.loaded hl
    exact hstep it v h hl hlast (hlast ▸ hit.last)
  have hl : it.loaded = false := by simpa using hl
  split <;> rename_i hc
  · rw [post_bind]
    refine (h.within (.failWith (within_bdevRead g _) _)).mono fun r v' hs => ?_
    cases r with
    | error e => exact herr e v' hs
    | ok buf => exact hstep _ v' hs rfl rfl hc
  · exact hnone hl ((hit.ends hl).resolve_left hc)

lemma sane_allocSlotsLoop {runStart run : Nat} (k : Nat) (h : Sane g log v) (hit : ItOk g v it) :
    Post True (allocSlotsLoop g count k it runStart run) (fun _ => Sane g log) v := by
  induction k generalizing v it runStart run with
  | zero => trivial
  | succ k ih =>
    rw [allocSlotsLoop, post_bind]
    refine sane_iterRead h hit (fun hl ha => ?_) (fun raw it' v' hs hit' => ?_) fun e v' hs => hs
    · simp only [post_bind]
      refine sane_allocCluster h ha (fun c w hc hw _ => ?_) fun w hw _ => ?_
      · simp only [post_ite]
        refine ⟨fun _ => hw, fun _ => ⟨fun _ => hw, fun _ => ?_⟩⟩
        simp only [post_bind]
        exact sane_nextCluster hw hc fun n x hx _ hn => ih hx ⟨hc, fun h => (by cases hl.symm.trans h), fun _ => hn⟩
      · exact hw
    · simp only [post_ite]
      exact ⟨fun _ => ⟨fun _ => hs, fun _ => ih hs hit'⟩, fun _ => ih hs hit'⟩

section

variable (h : Sane g log v)
include h

/-- From the beginning of a directory. -/
lemma sane_dirAllocSlots (hd : g.Valid d) : Post True (dirAllocSlots g d count) (fun _ => Sane g log) v := by
  unfold dirAllocSlots iterInit
  rw [post_bind, post_bind]
  refine (h.within (within_malloc g)).mono fun r v' hs => ?_
  match r with
  | .error e => exact hs
  | .ok _ =>
    rw [Nat.zero_div]
    exact sane_allocSlotsLoop _ hs ⟨hd, nofun, fun _ => .inl hd⟩

variable {name newName oldName : Bytes} {oldFirst newFirst newParent : Nat} {noReplace : Bool}

lemma sane_addEntry {de : Slot} (hd : g.Valid d) : Post True (addEntry g d name de) (fun _ => Sane g log) v := by
  refine (h.within (within_makeShortName g d name)).seq fun ⟨raw, nt, lfn⟩ v₁ h₁ => ?_
  refine (sane_dirAllocSlots h₁ hd).seq fun pos v₂ h₂ => ?_
  refine (h₂.within (within_dindexInsert g d name pos)).seq fun _ v₃ h₃ => ?_
  refine (h₃.within (within_writeNameEntries g d pos name lfn _)).attempted.seq fun r v₄ h₄ => ?_
  cases r with
  | error e =>
    exact h₄.within (.bind (within_dindexRemoveRange g d _ _) fun _ =>
      .bind (within_dirChanged g) fun _ => .fail e)
  | ok shortPos => exact h₄.within (.bind (within_dirChanged g) fun _ => .pure _)

lemma sane_makeDir {parent : Nat} : Post True (makeDir g parent) (fun _ => Sane g log) v := by
  unfold makeDir
  rw [post_bind]
  refine sane_allocCluster h (.inl rfl) (fun c v₁ _ h₁ _ => ?_) fun v₁ h₁ _ => h₁
  simp only [post_ite]
  refine ⟨fun _ => h₁, fun _ => ?_⟩
  rw [post_read_bind]
  have hdots := Within.bind (within_direntWrite g c 0 (dotEntry v₁.env [dot] c)) fun _ =>
    within_direntWrite g c direntSize (dotEntry v₁.env [dot, dot] parent)
  refine (h₁.within hdots).attempted.seq fun r v₂ h₂ => ?_
  cases r with
  | error e =>
    exact (sane_freeChain h₂).seq fun _ x hx => hx.within (.bind (within_fsinfoSync g) fun _ => .fail e)
  | ok _ => exact h₂

lemma sane_create {dir : Nat} {directory : Bool} (hd : g.Valid (dirFirstCluster g (v.info dir))) :
    Post True (create g dir name directory) (fun _ => Sane g log) v := by
  unfold create
  rw [post_read_bind]
  split
  · exact h
  refine (h.within (within_malloc g)).seq fun _ v₁ h₁ => ?_
  refine (h₁.within (within_findEntry g _ name)).attempted.seq fun r v₂ h₂ => ?_
  cases r with
  | ok _ => exact h₂
  | error e =>
    dsimp only
    split
    · exact h₂
    refine Post.seq ?_ fun cluster v₃ h₃ => ?_
    · unfold newCluster
      split
      · exact sane_makeDir h₂
      · exact h₂
    refine (sane_addEntry h₃ hd).attempted.seq fun r v₄ h₄ => ?_
    cases r with
    | ok _ => exact h₄.within (within_fsinfoSync g)
    | error e =>
      refine Post.seq (post_when.2 ⟨fun _ => sane_freeChain h₄, fun _ => h₄⟩) fun _ v₅ h₅ => ?_
      exact h₅.within (.bind (within_fsinfoSync g) fun _ => .fail e)

lemma sane_removeEntry {f : Found} : Post True (removeEntry g d f) (fun _ => Sane g log) v := by
  refine (h.within (within_deleteSlots g d _ _)).seq fun _ v₁ h₁ => ?_
  refine Post.seq ?_ fun _ v₂ h₂ => h₂.within (within_fsinfoSync g)
  unfold dropFile
  rw [post_read_bind]
  split
  · exact ⟨⟨h₁.tab.1, h₁.tab.2, h₁.tab.3⟩, h₁.chain, h₁.fine, h₁.harmless⟩
  · exact sane_freeChain h₁

lemma sane_moveEntry {src : Found} (hd : g.Valid newFirst) :
    Post True (moveEntry g oldFirst newFirst src newName newParent) (fun _ => Sane g log) v := by
  refine (sane_addEntry h hd).seq fun added v₁ h₁ => ?_
  refine (h₁.within (within_deleteSlots g oldFirst _ _)).seq fun _ v₂ h₂ => ?_
  refine (h₂.within (.when (within_setParent g _ _))).seq fun _ v₃ h₃ => ?_
  rw [post_read_bind]
  split
  · exact h₃
  · exact ⟨⟨h₃.tab.1, h₃.tab.2, h₃.tab.3⟩, h₃.chain, h₃.fine, h₃.harmless⟩

/-- Up to `out:` of a renaming. -/
lemma sane_renameBody (hd : g.Valid newFirst) :
    Post True (renameBody g oldFirst newFirst oldName newName noReplace newParent) (fun _ => Sane g log) v := by
  refine (h.within (within_malloc g)).attempted.seq fun r₁ v₁ h₁ => ?_
  refine (h₁.within (within_malloc g)).attempted.seq fun r₂ v₂ h₂ => ?_
  match r₁, r₂ with
  | .error _, _ => exact h₂
  | .ok _, .error _ => exact h₂
  | .ok _, .ok _ =>
    refine (h₂.within (within_findEntry g _ oldName)).seq fun src v₃ h₃ => ?_
    refine (h₃.within (within_findEntry g _ newName)).attempted.seq fun r v₄ h₄ => ?_
    cases r with
    | error e =>
      simp only [post_ite]
      exact ⟨fun _ => h₄, fun _ => sane_moveEntry h₄ hd⟩
    | ok dst =>
      simp only [post_ite]
      refine ⟨fun _ => ⟨fun _ => h₄, fun _ => sane_moveEntry h₄ hd⟩, fun _ => ⟨fun _ => h₄, fun _ => ?_⟩⟩
      refine (h₄.within (within_removable g _ dst)).seq fun _ v₅ h₅ => ?_
      exact (sane_removeEntry h₅).seq fun _ v₆ h₆ => sane_moveEntry h₆ hd

lemma sane_rename {oldDir newDir : Nat} (hd : g.Valid (dirFirstCluster g (v.info newDir))) :
    Post True (rename g oldDir oldName newDir newName noReplace) (fun _ => Sane g log) v := by
  unfold rename
  rw [post_read_bind]
  split
  · exact h
  refine (sane_renameBody h hd).attempted.seq fun r v₁ h₁ => ?_
  refine (h₁.within (within_fsinfoSync g)).seq fun _ v₂ h₂ => ?_
  cases r <;> exact h₂

end

/-! ## Files -/

lemma fileSane_seekFirst {Q : Except Errno Unit → Vol → Prop} (h : FileSane g log node v)
    (hok : ∀ v', FileSane g log node v' → (v'.info node).first ≠ 0 → Q (.ok ()) v')
    (herr : ∀ e v', FileSane g log node v' → Q (.error e) v') : Post True (seekFirst g node grow) Q v := by
  unfold seekFirst
  simp only [post_bind, post_ite]
  refine ⟨fun _ => ⟨fun _ => herr _ v h, fun _ => ?_⟩, fun h0 => hok v h h0⟩
  refine sane_allocCluster h.toSane (.inl rfl) (fun c w hc hw hi => ?_) fun w hw hi => ?_
  swap
  · exact ⟨fun _ => herr _ w (h.of_info hw hi), fun h => absurd rfl h⟩
  have hc0 : c ≠ 0 := by
    have := hc.1
    omega
  refine ⟨fun h => absurd h hc0, fun _ => ?_⟩
  have hfs := h.of_info hw hi
  refine hok _ ⟨⟨⟨hw.tab.1, hw.tab.2, hw.tab.3⟩, hw.chain, hw.fine, hw.harmless⟩, ?_⟩ ?_
  · show NodeOk g (update w.info node _ node)
    rw [update_self]
    exact ⟨.inr hc, hfs.node.2⟩
  show (update w.info node _ node : Inode).first ≠ 0
  rw [update_self]
  exact hc0

lemma fileSane_seekLoop (k : Nat) (h : FileSane g log node v) (hc : g.Valid c)
    (hok : ∀ c v', g.Valid c → FileSane g log node v' → Q (.ok c) v')
    (herr : ∀ e v', FileSane g log node v' → Q (.error e) v') : Post True (seekLoop g grow k c) Q v := by
  induction k generalizing v c with
  | zero => exact hok c v hc h
  | succ k ih =>
    rw [seekLoop, post_bind]
    refine sane_nextCluster h.toSane hc fun n v' hs hi hn => ?_
    have hs' := h.of_info hs hi
    simp only [post_ite]
    refine ⟨fun hv => ih hs' hv, fun hv => ⟨fun _ => herr _ v' hs', fun _ => ?_⟩⟩
    rw [post_bind]
    refine sane_allocCluster hs (hn.resolve_left hv) (fun c w hc hw hi' => ?_) fun w hw hi' => ?_
    · simp only [post_ite]
      exact ⟨fun _ => herr _ w (hs'.of_info hw hi'), fun _ => ih (hs'.of_info hw hi') hc⟩
    · exact herr _ w (hs'.of_info hw hi')

lemma fileSane_chainSeek (h : FileSane g log node v) (hok : ∀ c v', g.Valid c → FileSane g log node v' → Q (.ok c) v')
    (herr : ∀ e v', FileSane g log node v' → Q (.error e) v') : Post True (chainSeek g node pos grow) Q v := by
  unfold chainSeek
  rw [post_bind]
  refine fileSane_seekFirst h (fun v₁ h₁ h0 => ?_) herr
  rw [post_read_bind]
  rw [post_bind]
  -- it begins at a cluster: the first one, or the one it was at before
  have hstart : g.Valid (if (v₁.info node).cacheCluster ≠ 0 ∧ (v₁.info node).cacheIndex ≤ pos / g.clusterSize then
      (v₁.info node).cacheCluster else (v₁.info node).first) := by
    split
    · rename_i hc
      exact h₁.node.2.resolve_left hc.1
    · exact h₁.node.1.resolve_left h0
  refine fileSane_seekLoop _ h₁ hstart (fun c w hc hw => ?_) herr
  dsimp only
  rw [post_bind]
  refine (fileSane_updateInfo hw ⟨hw.node.1, .inr hc⟩).mono fun r x hx => ?_
  match r with
  | .ok _ => exact hok c x hc hx
  | .error e => exact herr e x hx

lemma fileSane_trimChain (h : FileSane g log node v) :
    Post True (trimChain g node size) (fun _ => FileSane g log node) v := by
  refine Post.seq ?_ fun _ w hw => fileSane_updateInfo hw ⟨hw.node.1, .inl rfl⟩
  unfold trimClusters
  rw [post_read_bind]
  dsimp only
  split
  · exact (h.at (saneAt_freeChain ⟨h.toSane, rfl⟩)).seq fun _ w hw => fileSane_updateInfo hw ⟨.inl rfl, hw.node.2⟩
  split
  · unfold trimTail
    rw [post_bind, post_attempt]
    refine fileSane_chainSeek h (fun last v₁ hlast h₁ => ?_) fun _ _ h₁ => h₁
    refine (h₁.within (within_nextCluster g last)).seq fun rest v₂ h₂ => ?_
    split
    · refine (h₂.at (saneAt_fatSet ⟨h₂.toSane, rfl⟩ hlast (.inr rfl))).attempted.seq fun _ v₃ h₃ => ?_
      exact h₃.at (saneAt_freeChain ⟨h₃.toSane, rfl⟩)
    · exact h₂
  · exact h

lemma fileSane_nextOrAlloc (h : FileSane g log node v) (hc : g.Valid c) :
    Post True (nextOrAlloc g c) (fun _ => FileSane g log node) v := by
  unfold nextOrAlloc
  rw [post_bind]
  refine sane_nextCluster h.toSane hc fun next w hw hi hn => ?_
  dsimp only
  split
  · exact h.of_info hw hi
  rename_i hv
  exact sane_allocCluster hw (hn.resolve_left hv) (fun c x _ hx hi' => h.of_info hx (hi'.trans hi))
    fun x hx hi' => h.of_info hx (hi'.trans hi)

lemma fileSane_writeRun {left n : Nat} (k : Nat) (h : FileSane g log node v) (hc : g.Valid c) :
    Post True (writeRun g node left runMax k n c) (fun _ => FileSane g log node) v := by
  induction k generalizing v n c with
  | zero => exact h
  | succ k ih =>
    rw [writeRun]
    split
    · exact h
    refine (fileSane_nextOrAlloc h hc).seq fun next w hw => ?_
    split
    · exact hw
    rename_i hv
    have hv : g.Valid next := by
      by_contra hn
      exact hv (.inr hn)
    exact (fileSane_updateInfo hw ⟨hw.node.1, .inr hv⟩).seq fun _ x hx => ih hx hv

lemma fileSane_writeTurn (h : FileSane g log node v) :
    Post True (writeTurn g node pos src len runMax done) (fun _ => FileSane g log node) v := by
  unfold writeTurn
  rw [post_bind]
  refine fileSane_chainSeek h (fun clus v₁ hc h₁ => ?_) fun _ _ h₁ => h₁
  refine (fileSane_writeRun _ h₁ hc).seq fun n v₂ h₂ => ?_
  refine (h₂.within (within_bdevWrite g n _ _)).seq fun _ v₃ h₃ => ?_
  exact (fileSane_updateInfo h₃ h₃.node).seq fun _ _ h₄ => h₄

lemma fileSane_writeLoop (k : Nat) (h : FileSane g log node v) :
    Post True (writeLoop g node pos src len runMax k done) (fun _ => FileSane g log node) v := by
  induction k generalizing v done with
  | zero => exact h
  | succ k ih =>
    rw [writeLoop]
    split
    · exact h
    refine (fileSane_writeTurn h).attempted.seq fun r v' hs => ?_
    cases r with
    | error _ => exact hs
    | ok n => exact ih hs

lemma fileSane_writeAt {src : Option Buffer} (h : FileSane g log node v) :
    Post True (writeAt g node pos src len) (fun _ => FileSane g log node) v := by
  unfold writeAt
  split
  · exact h
  split
  · exact h
  refine (h.within (.when (within_malloc g))).seq fun _ v₁ h₁ => ?_
  refine (fileSane_writeLoop _ h₁).seq fun ⟨done, err⟩ v₂ h₂ => ?_
  refine (fileSane_updateInfo h₂ h₂.node).seq fun _ v₃ h₃ => ?_
  rw [post_read_bind]
  refine Post.seq (post_when.2 ⟨fun _ => fileSane_trimChain h₃, fun _ => h₃⟩) fun _ v₄ h₄ => ?_
  refine (h₄.within (within_direntUpdate g node)).attempted.seq fun uerr v₅ h₅ => ?_
  split
  · exact h₅
  · split <;> exact h₅

lemma fileSane_fileWrite (h : FileSane g log node v) :
    Post True (fileWrite g node pos src len) (fun _ => FileSane g log node) v := by
  unfold fileWrite
  rw [post_read_bind]
  dsimp only
  split
  · exact (fileSane_writeAt h).seq fun _ v₁ h₁ => fileSane_writeAt h₁
  · exact fileSane_writeAt h

lemma fileSane_truncate (h : FileSane g log node v) :
    Post True (truncate g node size) (fun _ => FileSane g log node) v := by
  unfold truncate
  rw [post_read_bind]
  dsimp only
  split
  · exact h
  split
  · exact (fileSane_writeAt h).seq fun _ _ h₁ => h₁
  refine (fileSane_trimChain h).seq fun _ v₁ h₁ => ?_
  exact (fileSane_updateInfo h₁ h₁.node).seq fun _ v₂ h₂ => h₂.within (within_direntUpdate g node)

end Whole

/-! ## Operations -/

/-- The operations that make chains longer. -/
def Op.Extends : Op → Prop
  | .create .. | .rename .. | .write .. | .truncate .. | .fallocate .. => True
  | _ => False

/-- The clusters that the operation begins with are clusters. -/
def Op.InRange (g : Geometry) (v : Vol) : Op → Prop
  | .create dir _ _ => g.Valid (dirFirstCluster g (v.info dir))
  | .rename _ _ newDir _ _ => g.Valid (dirFirstCluster g (v.info newDir))
  | .write node _ _ _ | .truncate node _ | .fallocate node _ _ _ => NodeOk g (v.info node)
  | _ => True

lemma volume_tabOk (fat : Nat → UInt32) (data : Nat → UInt8) (nodes : List Inode) :
    (volume fat data nodes).TabOk smallGeometry := ⟨nofun, nofun, nofun⟩

/-- A file of two clusters, 3 and 4. -/
def twoClusters : Vol :=
  volume (fun c => if c = 2 ∨ c = 4 then 0x0FFFFFFF else if c = 3 then 4 else 0) (fun _ => 0)
    [{ rootInode with first := 3, size := 1024, attr := attrArchive, isRoot := false, dirCluster := 2, id := 3 }]

/-- One byte into its second cluster. -/
def secondCluster : Op := .write 1 512 (fun _ => 7) 1

/-- Reads fail, but for those of the chain. -/
def chainEnv : Env := { fineEnv with read := fun chain _ => chain }

end Hermes.L4.Fat
