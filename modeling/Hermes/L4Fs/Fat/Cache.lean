import Hermes.L4Fs.Fat.Sys
import Hermes.L4Fs.Fat.Table

/-!
# The cached block of the FAT

`fat_get`, `fat_set` and `fat_flush` (fat32.c:80-125) keep one block of the FAT in memory and write it to every copy.

* `fat_table`: on a device that can be written, any sequence of these calls reads and writes one table of entries, whatever
  the device refuses, exactly if there is one copy or the first FAT begins with a block.
* `flush_spoils_table`: with sectors of 256 bytes and three of them reserved, the block with entry 5 is written to
  the second copy over entry 200 of the first.
-/
namespace Hermes.L4.Fat

open Prog Function

variable {g : Geometry} {v w : Vol}

namespace Vol

/-- The entries as the driver sees them. -/
def table (g : Geometry) (v : Vol) (c : Nat) : Nat := (v.rawEntry g c).toNat

/-- The first FAT on the device. -/
def onDisk (g : Geometry) (v : Vol) (c : Nat) : Nat := if c < g.copySize then (v.front (g.fatBegin + c)).toNat else 0

lemma TabOk.table_clean (ht : v.TabOk g) (hd : v.cacheDirty = false) : v.table g = v.onDisk g := by
  funext c
  unfold table onDisk
  split
  · rw [ht.rawEntry_clean hd ‹_›]
  · exact congrArg UInt32.toNat (if_neg ‹_›)

end Vol

inductive TableCall
  | get (c : Nat)
  | set (cause : Cause) (c value : Nat)
  | flush

namespace TableCall

def run (g : Geometry) : TableCall → M Nat
  | .get c => fatGet g c
  | .set cause c value => do
    fatSet g cause c value
    pure 0
  | .flush => do
    fatFlush g
    pure 0

/-- The call is about an entry of the FAT. -/
def InFat (g : Geometry) : TableCall → Prop
  | .get c | .set _ c _ => c < g.copySize
  | .flush => True

/-- The table after a call and what it returned. -/
def spec (m : Nat → Nat) : TableCall × Except Errno Nat → Nat → Nat
  | (.set _ c value, .ok _) => update m c (m c / 2 ^ 28 * 2 ^ 28 + value % 2 ^ 28)
  | _ => m

/-- What a call returns where the table is `m`. After a flush the device has the table. -/
def Answers (g : Geometry) (m : Nat → Nat) (v v' : Vol) : TableCall → Except Errno Nat → Prop
  | _, .error e => e = .io
  | .get c, .ok x => x = m c % 2 ^ 28
  | .set .., .ok _ => True
  | .flush, .ok _ => v'.onDisk g = m ∧ Copied g v v'

lemma run_post [Fact g.Fit] (call : TableCall) (ht : v.TabOk g) (hc : call.InFat g) : Post False (call.run g) (fun r v' =>
    (v'.TabOk g ∧ v'.table g = spec (v.table g) (call, r)) ∧ Answers g (v.table g) v v' call r) v := by
  have hsame : ∀ {v' : Vol}, Same g v v' → v'.TabOk g ∧ v'.table g = v.table g := fun h =>
    ⟨h.tab, by unfold Vol.table; rw [h.raw]⟩
  cases call with
  | get c => exact fatGet_post ht hc (fun v' hs _ _ => ⟨hsame hs, masked_toNat _⟩) fun v' hs _ => ⟨hsame hs, rfl⟩
  | set cause c value =>
    rw [run, post_bind]
    refine fatSet_post ht hc (fun v' hw => ⟨⟨hw.tab, funext fun i => ?_⟩, trivial⟩) fun v' hs => ⟨hsame hs, rfl⟩
    show (v'.rawEntry g i).toNat = update (v.table g) c _ i
    rw [hw.raw]
    by_cases hi : i = c
    · rw [hi, update_self, update_self, putEntry_toNat]
      rfl
    rw [update_of_ne hi, update_of_ne hi]
    rfl
  | flush =>
    rw [run, post_bind]
    refine fatFlush_post ht (fun v' hs hd hc => ⟨hsame hs, ?_, hc⟩) fun v' hs _ => ⟨hsame hs, rfl⟩
    rw [← hs.tab.table_clean hd]
    exact (hsame hs).2

/-- No call changes the upper four bits of an entry. -/
lemma spec_high (ls : List (TableCall × Except Errno Nat)) (m : Nat → Nat) (c : Nat) :
    ls.foldl spec m c / 2 ^ 28 = m c / 2 ^ 28 := by
  induction ls generalizing m with
  | nil => rfl
  | cons l ls ih =>
    refine (ih _).trans ?_
    unfold spec
    split
    · rename_i d value _
      by_cases hc : c = d
      · rw [hc, update_self]
        omega
      · rw [update_of_ne hc]
    · rfl

end TableCall

/-- The calls and what they return, from a volume that has just been mounted. -/
def tableSystem (g : Geometry) : LTS Vol (TableCall × Except Errno Nat) where
  init v := v.cacheValid = false ∧ v.cacheDirty = false
  step v l v' := l.1.InFat g ∧ l.1.run g v = some (l.2, v')

/-- After any calls, a further one returns, with what the entries that were set and those of the device say. -/
def Geometry.TableKept (g : Geometry) : Prop :=
  ∀ (v w : Vol) (ls : List (TableCall × Except Errno Nat)) (call : TableCall), (tableSystem g).init v →
    (tableSystem g).Run v ls w → call.InFat g →
    (∀ c, ls.foldl TableCall.spec (v.onDisk g) c / 2 ^ 28 = v.onDisk g c / 2 ^ 28) ∧
    ∃ r w', call.run g w = some (r, w') ∧ call.Answers g (ls.foldl TableCall.spec (v.onDisk g)) w w' r

variable {ls : List (TableCall × Except Errno Nat)}

lemma run_table [Fact g.Fit] (ht : v.TabOk g) (hr : (tableSystem g).Run v ls w) :
    w.TabOk g ∧ w.table g = ls.foldl TableCall.spec (v.table g) := by
  induction hr with
  | nil v => exact ⟨ht, rfl⟩
  | cons hstep _ ih =>
    obtain ⟨⟨ht', htable⟩, -⟩ := (TableCall.run_post _ ht hstep.1).run hstep.2
    rw [List.foldl_cons, ← htable]
    exact ih ht'

lemma Geometry.Fit.tableKept (hg : g.Fit) : g.TableKept := by
  have : Fact g.Fit := ⟨hg⟩
  intro v w ls call hv hr hc
  have ht : v.TabOk g := ⟨fun h => absurd (h.symm.trans hv.2) Bool.false_ne_true.symm,
    fun h => absurd (h.symm.trans hv.1) Bool.false_ne_true.symm,
    fun _ h => absurd (h.symm.trans hv.1) Bool.false_ne_true.symm⟩
  obtain ⟨hw, htable⟩ := run_table ht hr
  rw [ht.table_clean hv.2] at htable
  obtain ⟨r, w', hrun, -, hans⟩ := (call.run_post hw hc).returns
  exact ⟨TableCall.spec_high ls _, r, w', hrun, htable ▸ hans⟩

/-! ## Blocks that do not fit -/

/-- The last entry of the first FAT. -/
def Geometry.lastWord (g : Geometry) : Nat := g.fatBegin + (g.copySize - 1)

lemma Geometry.lastWord_succ : g.lastWord + 1 = g.fatBegin + g.copySize := by
  have := g.entries
  unfold lastWord
  omega

/-- The cache has the block in which the FAT begins, behind words that are zero, and `copy` copies of it have been written:
the second one over the last entry of the first FAT. -/
structure Spoiling (g : Geometry) (copy : Nat) (v : Vol) : Prop where
  fine : v.Fine g
  sector : v.cacheSector = g.block 0
  zero : ∀ i < g.slot 0, v.cache i = 0
  last : 2 ≤ copy → v.front g.lastWord = 0

lemma Spoiling.put {copy : Nat} (h : Spoiling g copy v) (h0 : 0 < g.slot 0) :
    Spoiling g (copy + 1) (putBlock g copy 512 { v with writes := v.writes + 1 }) := by
  refine ⟨h.fine, h.sector, h.zero, fun hcopy => ?_⟩
  show (if 128 * v.cacheSector + copy * g.copySize ≤ g.lastWord ∧
      g.lastWord < 128 * v.cacheSector + copy * g.copySize + 128 then
        v.cache (g.lastWord - (128 * v.cacheSector + copy * g.copySize)) else v.front g.lastWord) = 0
  have hb := g.block_slot (c := 0)
  have hl := g.slot_lt (c := 0)
  have hword := g.lastWord_succ
  rw [h.sector]
  have hmul : g.copySize ≤ copy * g.copySize := Nat.le_mul_of_pos_left _ (by omega)
  split
  · exact h.zero _ (by omega)
  rename_i hout
  refine h.last ?_
  by_contra hone
  obtain rfl : copy = 1 := by omega
  omega

lemma flushCopies_spoils (h0 : 0 < g.slot 0) (n copy : Nat) (h : Spoiling g copy v) :
    Post False (flushCopies g n copy) (fun r w => r = .ok () ∧ Spoiling g (copy + n) w) v := by
  induction n generalizing copy v with
  | zero => exact ⟨rfl, h⟩
  | succ n ih =>
    rw [flushCopies, post_bind]
    refine bdevWrite_post ?_ (fun _ _ hf => absurd h.fine hf) fun hf => absurd h.fine hf
    rw [show copy + (n + 1) = copy + 1 + n by omega]
    exact ih (copy + 1) (h.put h0)

/-- A volume with nothing on it but the last entry of the FAT. -/
def lastEntry (g : Geometry) : Vol :=
  { volume (fun _ => 0) (fun _ => 0) [] with front := fun w => if w = g.lastWord then 1 else 0, chain := true }

lemma set_spoiling (hw : g.writable = true) : Post False (fatSet g .take 0 0) (fun r w => r = .ok () ∧
    w.cacheDirty = true ∧ Spoiling g 0 w) (lastEntry g) := by
  have hfine : (lastEntry g).Fine g := ⟨hw, rfl, fun _ => rfl, fun _ => rfl⟩
  have hb := g.block_slot (c := 0)
  have hsize := g.entries
  have hdata := g.copySize_le
  have hword := g.lastWord_succ
  have hzero : ∀ i < g.slot 0, (lastEntry g).word g (128 * g.block 0 + i) = 0 := by
    intro i hi
    unfold Vol.word
    rw [if_pos (by unfold Geometry.dataBegin; omega)]
    exact if_neg (by omega)
  unfold fatSet fatGet fatLoad fatFlush
  simp only [post_bind, post_ite, post_read]
  refine ⟨fun h => (by cases h.1), fun _ => ⟨fun _ => ?_, fun h => absurd rfl h⟩⟩
  simp only [post_pure, post_attempt]
  refine bdevRead_post (g := g) ?_ fun hf => absurd hfine hf
  refine ⟨rfl, rfl, hfine, rfl, fun i hi => ?_, fun h => by cases h⟩
  exact (update_of_ne hi.ne _ _).trans (hzero i hi)

lemma Geometry.TableKept.fit (h : g.TableKept) (hw : g.writable = true) : g.Fit := by
  by_contra hfit
  obtain ⟨hone, hdiv⟩ := not_or.1 hfit
  have h0 : 0 < g.slot 0 := Nat.pos_of_ne_zero fun h0 => hdiv (Nat.dvd_of_mod_eq_zero h0)
  have hcopies : 2 ≤ g.copies := by
    have := g.copies_pos
    omega
  have hsize := g.entries
  -- the entry of cluster 0 is set, and the block of it written back
  have hset : Post False (TableCall.run g (.set .take 0 0)) (fun r w => r = .ok 0 ∧ w.cacheDirty = true ∧
      Spoiling g 0 w) (lastEntry g) := by
    rw [TableCall.run, post_bind]
    refine (set_spoiling hw).mono fun r w hr => ?_
    obtain ⟨rfl, hr⟩ := hr
    exact ⟨rfl, hr⟩
  obtain ⟨_, v, hrun, rfl, hd, hv⟩ := hset.returns
  obtain ⟨-, r, w, hflush, hans⟩ := h (lastEntry g) v [(.set .take 0 0, .ok 0)] .flush ⟨rfl, rfl⟩
    (.cons ⟨show 0 < g.copySize by omega, hrun⟩ (.nil _)) trivial
  have hspoiled : Post False (TableCall.run g .flush) (fun r w => r = .ok 0 ∧ w.front g.lastWord = 0) v := by
    unfold TableCall.run fatFlush
    simp only [post_bind, post_read, post_ite]
    refine ⟨fun hc => absurd (hd.symm.trans hc) Bool.false_ne_true.symm, fun _ => ?_⟩
    simp only [post_failWith, post_modify]
    refine (flushCopies_spoils h0 g.copies 0 hv).mono fun r w hw => ?_
    obtain ⟨rfl, hw⟩ := hw
    exact ⟨rfl, hw.last (by omega)⟩
  obtain ⟨rfl, hlast⟩ := hspoiled.run hflush
  -- the table has a 1 there, and the device a 0
  have hget := congrFun hans.1 (g.copySize - 1)
  have hone : (lastEntry g).onDisk g (g.copySize - 1) = 1 := by
    rw [Vol.onDisk, if_pos (by omega)]
    exact congrArg UInt32.toNat (if_pos rfl)
  have hzero : w.onDisk g (g.copySize - 1) = 0 := by
    rw [Vol.onDisk, if_pos (by omega)]
    exact congrArg UInt32.toNat hlast
  have htable : [(TableCall.set .take 0 0, (.ok 0 : Except Errno Nat))].foldl TableCall.spec ((lastEntry g).onDisk g)
      (g.copySize - 1) = (lastEntry g).onDisk g (g.copySize - 1) := update_of_ne (by omega) _ _
  rw [htable, hone, hzero] at hget
  cases hget

/-- A device that takes no writes. -/
def writeFails : Vol := { volume (fun _ => 0xF0000003) (fun _ => 0) [] with env := { fineEnv with write := fun _ _ => some 0 } }

/-- Cluster 5 is set to 7 and the flush fails. -/
def failedFlush : List (TableCall × Except Errno Nat) := [(.set .take 5 7, .ok 0), (.flush, .error .io)]

/-- Sectors of 256 bytes: three are reserved, and there are two FATs of four. -/
def halfBlocks : Geometry :=
  ⟨256, 200, 2, 2, true, false, 192, 256, by decide, by decide, by decide, by decide, by decide⟩

/-- Entries 200 and 5 are set and written back, and entry 200 is read. -/
def twoFlushes : List (TableCall × Except Errno Nat) :=
  [(.set .take 200 7, .ok 0), (.flush, .ok 0), (.set .take 5 9, .ok 0), (.flush, .ok 0), (.get 200, .ok 0)]

end Hermes.L4.Fat
