import Mathlib

/-!
# Mounting a FAT volume

The geometry that `fat32_mount` of `drivers/fs/fat/fat32.c` computes from
the boot sector, in the types of the source: the fields are 8, 16 and 32 bits
wide and the arithmetic is modulo 2^32.

* `mount_geometry`: the accepted boot sectors for which the driver stays inside
  the volume (`Sound`) are exactly those that satisfy `Sane`.
* `mount_unchecked`: a boot sector that is accepted and not `Sound`.
-/
namespace Hermes.L4.Fat

/-- The fields of `fat32_boot_sector` that the geometry depends on. -/
structure BootSector where
  bytesPerSector : UInt16
  sectorsPerCluster : UInt8
  reservedSectors : UInt16
  numberOfFats : UInt8
  totalSectors : UInt16
  totalSectorsLarge : UInt32
  sectorsPerFat32 : UInt32
  rootCluster : UInt32
deriving DecidableEq, Repr

namespace BootSector

variable (bs : BootSector)

/-- The checks of `fat32_mount`. -/
def Accepted : Prop :=
  bs.bytesPerSector ≠ 0 ∧ bs.bytesPerSector &&& (bs.bytesPerSector - 1) = 0 ∧ bs.sectorsPerCluster ≠ 0

instance : Decidable bs.Accepted := inferInstanceAs (Decidable (_ ∧ _ ∧ _))

def dataBeginLba : UInt32 := bs.reservedSectors.toUInt32 + bs.numberOfFats.toUInt32 * bs.sectorsPerFat32

def sectors : UInt32 :=
  if bs.totalSectors ≠ 0 then bs.totalSectors.toUInt32 else bs.totalSectorsLarge

def fatEntries : UInt32 := bs.sectorsPerFat32 * bs.bytesPerSector.toUInt32 / 4

/-- `total_clusters` before it is limited by the size of the FAT. -/
def dataClusters : UInt32 := (bs.sectors - bs.dataBeginLba) / bs.sectorsPerCluster.toUInt32

def totalClusters : UInt32 :=
  if bs.fatEntries < bs.dataClusters + 2 then bs.fatEntries - 2 else bs.dataClusters

/-- `cluster_byte_size` -/
def clusterByteSize : UInt32 := bs.sectorsPerCluster.toUInt32 * bs.bytesPerSector.toUInt32

/-- `valid_cluster` -/
def validCluster (c : UInt32) : Bool := 2 ≤ c && c < bs.totalClusters + 2

/-- `cluster_to_byte` -/
def clusterToByte (c : UInt32) : UInt64 :=
  (bs.dataBeginLba + (c - 2) * bs.sectorsPerCluster.toUInt32).toUInt64 * bs.bytesPerSector.toUInt64

/-- `fat_entry_byte` -/
def fatEntryByte (copy : Nat) (c : UInt32) : UInt64 :=
  (bs.reservedSectors.toUInt64 + UInt64.ofNat copy * bs.sectorsPerFat32.toUInt64) * bs.bytesPerSector.toUInt64 +
    c.toUInt64 * 4

/-- The FAT copies that `fat_flush` writes. -/
def fatCopies : Nat := if bs.numberOfFats ≠ 0 then bs.numberOfFats.toNat else 1

/-- The size of the volume, by the boot sector. -/
def volumeBytes : Nat := bs.sectors.toNat * bs.bytesPerSector.toNat

/-- The sectors before the data, without wrap-around. -/
def metaSectors : Nat := bs.reservedSectors.toNat + bs.numberOfFats.toNat * bs.sectorsPerFat32.toNat

/-- What every access of the driver relies on. -/
structure Sound : Prop where
  clusterSize : 32 ≤ bs.clusterByteSize.toNat ∧ bs.clusterByteSize.toNat % 32 = 0
  /-- the number of clusters is that of the integers -/
  clusters : bs.metaSectors ≤ bs.sectors.toNat ∧
    bs.totalClusters.toNat = min ((bs.sectors.toNat - bs.metaSectors) / bs.sectorsPerCluster.toNat)
      (bs.sectorsPerFat32.toNat * bs.bytesPerSector.toNat / 4 - 2)
  /-- the FAT has an entry for each -/
  entries : (bs.totalClusters.toNat + 2) * 4 ≤ bs.sectorsPerFat32.toNat * bs.bytesPerSector.toNat
  root : bs.validCluster bs.rootCluster = true
  fat : ∀ c, bs.validCluster c = true → ∀ copy < bs.fatCopies, (bs.fatEntryByte copy c).toNat + 4 ≤ bs.volumeBytes
  data : ∀ c, bs.validCluster c = true → (bs.clusterToByte c).toNat + bs.clusterByteSize.toNat ≤ bs.volumeBytes

/-- The clusters that the data region has room for. -/
def room : Nat := (bs.sectors.toNat - bs.metaSectors) / bs.sectorsPerCluster.toNat

/-- The entries of one FAT. -/
def entriesPerFat : Nat := bs.sectorsPerFat32.toNat * bs.bytesPerSector.toNat / 4

/-- What `fat32_mount` does not check: directory entries fill a cluster, the FATs lie in the volume, the number of clusters
does not wrap around, the FAT has its two reserved entries and its size does not wrap around (or still covers all clusters),
the root directory is a cluster, and a volume without FATs has room for the one that is used all the same. -/
structure Sane : Prop where
  cluster : 32 ≤ bs.sectorsPerCluster.toNat * bs.bytesPerSector.toNat ∧
    bs.sectorsPerCluster.toNat * bs.bytesPerSector.toNat % 32 = 0
  inside : bs.metaSectors ≤ bs.sectors.toNat
  clusters : bs.room + 2 < 2 ^ 32
  entries : bs.room + 2 ≤ bs.fatEntries.toNat ∨ bs.fatEntries.toNat = bs.entriesPerFat ∧ 2 ≤ bs.entriesPerFat
  root : 2 ≤ bs.rootCluster.toNat ∧ bs.rootCluster.toNat < min bs.room (bs.entriesPerFat - 2) + 2
  fat : bs.reservedSectors.toNat * bs.bytesPerSector.toNat + (min bs.room (bs.entriesPerFat - 2) + 2) * 4 ≤ bs.volumeBytes

variable {bs}

/-! ## The arithmetic of the source -/

lemma clusterByteSize_eq : bs.clusterByteSize.toNat = bs.sectorsPerCluster.toNat * bs.bytesPerSector.toNat := by
  have h1 := bs.sectorsPerCluster.toNat_lt
  have h2 := bs.bytesPerSector.toNat_lt
  refine Nat.mod_eq_of_lt ?_
  calc bs.sectorsPerCluster.toNat * bs.bytesPerSector.toNat ≤ 2 ^ 8 * 2 ^ 16 := Nat.mul_le_mul (by omega) (by omega)
    _ < 2 ^ 32 := by decide

lemma fatEntries_le : bs.fatEntries.toNat ≤ bs.entriesPerFat := by
  unfold fatEntries entriesPerFat
  rw [UInt32.toNat_div, UInt32.toNat_mul, UInt16.toNat_toUInt32]
  exact Nat.div_le_div_right (Nat.mod_le _ _)

lemma fatEntryByte_eq {copy : Nat} (hcopy : copy < bs.fatCopies) (c : UInt32) : (bs.fatEntryByte copy c).toNat =
      (bs.reservedSectors.toNat + copy * bs.sectorsPerFat32.toNat) * bs.bytesPerSector.toNat + c.toNat * 4 := by
  have hr := bs.reservedSectors.toNat_lt
  have hb := bs.bytesPerSector.toNat_lt
  have hc := c.toNat_lt
  have hcopies : bs.fatCopies ≤ 2 ^ 8 := by
    have := bs.numberOfFats.toNat_lt
    unfold fatCopies
    split <;> omega
  have hmul : copy * bs.sectorsPerFat32.toNat ≤ 2 ^ 8 * 2 ^ 32 :=
    Nat.mul_le_mul (by omega) bs.sectorsPerFat32.toNat_lt.le
  have hprod : (bs.reservedSectors.toNat + copy * bs.sectorsPerFat32.toNat) * bs.bytesPerSector.toNat ≤
      2 ^ 41 * 2 ^ 16 := Nat.mul_le_mul (by omega) (by omega)
  have hsec : (bs.reservedSectors.toUInt64 + UInt64.ofNat copy * bs.sectorsPerFat32.toUInt64).toNat =
      bs.reservedSectors.toNat + copy * bs.sectorsPerFat32.toNat := by
    rw [UInt64.toNat_add, UInt64.toNat_mul, UInt16.toNat_toUInt64, UInt32.toNat_toUInt64,
      UInt64.toNat_ofNat', Nat.mod_eq_of_lt (a := copy) (by omega),
      Nat.mod_eq_of_lt (a := copy * bs.sectorsPerFat32.toNat) (by omega)]
    exact Nat.mod_eq_of_lt (by omega)
  unfold fatEntryByte
  rw [UInt64.toNat_add, UInt64.toNat_mul, hsec, UInt16.toNat_toUInt64]
  show (_ % 2 ^ 64 + c.toNat * 4 % 2 ^ 64) % 2 ^ 64 = _
  rw [Nat.mod_eq_of_lt (a := _ * bs.bytesPerSector.toNat) (by omega), Nat.mod_eq_of_lt (a := c.toNat * 4) (by omega)]
  exact Nat.mod_eq_of_lt (by omega)

section Inside

variable (h : bs.metaSectors ≤ bs.sectors.toNat)
include h

lemma dataBegin : bs.dataBeginLba.toNat = bs.metaSectors := by
  have hs := bs.sectors.toNat_lt
  unfold metaSectors at h ⊢
  unfold dataBeginLba
  rw [UInt32.toNat_add, UInt32.toNat_mul, UInt16.toNat_toUInt32, UInt8.toNat_toUInt32]
  rw [Nat.mod_eq_of_lt (a := bs.numberOfFats.toNat * bs.sectorsPerFat32.toNat) (by omega)]
  exact Nat.mod_eq_of_lt (by omega)

lemma dataClusters_eq : bs.dataClusters.toNat = bs.room := by
  unfold dataClusters room
  rw [UInt32.toNat_div, UInt32.toNat_sub_of_le, dataBegin h, UInt8.toNat_toUInt32]
  rw [UInt32.le_iff_toNat_le, dataBegin h]
  exact h

/-- `total_clusters`, as the source computes it modulo 2^32. -/
lemma totalClusters_cases : bs.fatEntries.toNat < (bs.room + 2) % 2 ^ 32 ∧
      bs.totalClusters.toNat = (bs.fatEntries.toNat + (2 ^ 32 - 2)) % 2 ^ 32 ∨
    (bs.room + 2) % 2 ^ 32 ≤ bs.fatEntries.toNat ∧ bs.totalClusters.toNat = bs.room := by
  have hadd : (bs.dataClusters + 2).toNat = (bs.room + 2) % 2 ^ 32 := by
    rw [UInt32.toNat_add, dataClusters_eq h]
    rfl
  unfold totalClusters
  split <;> rename_i hlt <;> rw [UInt32.lt_iff_toNat_lt, hadd] at hlt
  · refine .inl ⟨hlt, ?_⟩
    rw [UInt32.toNat_sub]
    show (2 ^ 32 - 2 + _) % 2 ^ 32 = _
    rw [Nat.add_comm]
  · exact .inr ⟨Nat.le_of_not_lt hlt, dataClusters_eq h⟩

end Inside

lemma validCluster_iff (c : UInt32) :
    bs.validCluster c = true ↔ 2 ≤ c.toNat ∧ c.toNat < (bs.totalClusters.toNat + 2) % 2 ^ 32 := by
  unfold validCluster
  rw [Bool.and_eq_true, decide_eq_true_iff, decide_eq_true_iff, UInt32.lt_iff_toNat_lt, UInt32.toNat_add]
  rfl

namespace Sane

variable (h : bs.Sane)
include h

lemma totalClusters_eq : bs.totalClusters.toNat = min bs.room (bs.entriesPerFat - 2) := by
  have hc := h.clusters
  have hle := bs.fatEntries_le
  have hmod := Nat.mod_eq_of_lt hc
  rcases totalClusters_cases h.inside with ⟨hlt, ht⟩ | ⟨hge, ht⟩ <;> rcases h.entries with he | he <;> omega

lemma valid_iff (c : UInt32) : bs.validCluster c = true ↔ 2 ≤ c.toNat ∧ c.toNat < bs.totalClusters.toNat + 2 := by
  have hc := h.clusters
  have ht := h.totalClusters_eq
  rw [validCluster_iff, Nat.mod_eq_of_lt (by omega)]

/-- The entry of a cluster lies in its FAT. -/
lemma entries_le : (bs.totalClusters.toNat + 2) * 4 ≤ bs.sectorsPerFat32.toNat * bs.bytesPerSector.toNat := by
  have hr := h.root
  have ht := h.totalClusters_eq
  unfold entriesPerFat at hr ht
  omega

/-- A cluster's sectors lie before the end of the volume. -/
lemma cluster_sectors {c : UInt32} (hc : bs.validCluster c = true) :
    bs.metaSectors + (c.toNat - 2) * bs.sectorsPerCluster.toNat + bs.sectorsPerCluster.toNat ≤ bs.sectors.toNat := by
  obtain ⟨h2, hlt⟩ := (h.valid_iff c).1 hc
  have hm := h.inside
  have ht : c.toNat - 2 + 1 ≤ (bs.sectors.toNat - bs.metaSectors) / bs.sectorsPerCluster.toNat := by
    have := h.totalClusters_eq
    unfold room at this
    omega
  have hmul := (Nat.mul_le_mul_right bs.sectorsPerCluster.toNat ht).trans (Nat.div_mul_le_self _ _)
  rw [Nat.succ_mul] at hmul
  omega

lemma clusterToByte_eq {c : UInt32} (hc : bs.validCluster c = true) : (bs.clusterToByte c).toNat =
      (bs.metaSectors + (c.toNat - 2) * bs.sectorsPerCluster.toNat) * bs.bytesPerSector.toNat := by
  have hs := h.cluster_sectors hc
  have hlt := bs.sectors.toNat_lt
  have hb := bs.bytesPerSector.toNat_lt
  have hsub : (c - 2).toNat = c.toNat - 2 := by
    refine UInt32.toNat_sub_of_le _ _ ?_
    exact ((h.valid_iff c).1 hc).1
  have hsec : (bs.dataBeginLba + (c - 2) * bs.sectorsPerCluster.toUInt32).toNat =
      bs.metaSectors + (c.toNat - 2) * bs.sectorsPerCluster.toNat := by
    rw [UInt32.toNat_add, UInt32.toNat_mul, dataBegin h.inside, hsub, UInt8.toNat_toUInt32,
      Nat.mod_eq_of_lt (a := (c.toNat - 2) * bs.sectorsPerCluster.toNat) (by omega)]
    exact Nat.mod_eq_of_lt (by omega)
  unfold clusterToByte
  rw [UInt64.toNat_mul, UInt32.toNat_toUInt64, hsec]
  refine Nat.mod_eq_of_lt ?_
  calc (bs.metaSectors + (c.toNat - 2) * bs.sectorsPerCluster.toNat) * bs.bytesPerSector.toNat
      ≤ 2 ^ 32 * 2 ^ 16 := Nat.mul_le_mul (by omega) (by omega)
    _ < 2 ^ 64 := by decide

/-- The entry lies in its copy, and the copies lie before the data; without FATs the one that is used has its own condition. -/
lemma fat_inside {c : UInt32} (hc : bs.validCluster c = true) {copy : Nat} (hcopy : copy < bs.fatCopies) :
    (bs.fatEntryByte copy c).toNat + 4 ≤ bs.volumeBytes := by
  have hlt := ((h.valid_iff c).1 hc).2
  have ht := h.totalClusters_eq
  rw [fatEntryByte_eq hcopy]
  by_cases h0 : bs.numberOfFats = 0
  · rw [fatCopies, if_neg (not_not.2 h0)] at hcopy
    obtain rfl : copy = 0 := by omega
    have hf := h.fat
    simp only [Nat.zero_mul, Nat.add_zero]
    omega
  rw [fatCopies, if_pos h0] at hcopy
  have hentry := h.entries_le
  have hsec : (bs.reservedSectors.toNat + copy * bs.sectorsPerFat32.toNat + bs.sectorsPerFat32.toNat) *
      bs.bytesPerSector.toNat ≤ bs.volumeBytes := by
    refine Nat.mul_le_mul_right _ (Nat.le_trans ?_ h.inside)
    have := Nat.mul_le_mul_right bs.sectorsPerFat32.toNat (show copy + 1 ≤ bs.numberOfFats.toNat from hcopy)
    rw [Nat.succ_mul] at this
    unfold metaSectors
    omega
  rw [add_mul] at hsec
  omega

lemma sound : bs.Sound := by
  have ht := h.totalClusters_eq
  refine ⟨?_, ⟨h.inside, ht⟩, h.entries_le, ?_, fun c hc copy hcopy => h.fat_inside hc hcopy, fun c hc => ?_⟩
  · rw [clusterByteSize_eq]
    exact h.cluster
  · rw [h.valid_iff, ht]
    exact h.root
  · rw [h.clusterToByte_eq hc, clusterByteSize_eq, ← add_mul]
    exact Nat.mul_le_mul_right _ (h.cluster_sectors hc)

end Sane

/-- A geometry on which the driver stays inside the volume comes from a sane boot sector. -/
lemma Sound.sane (h : bs.Sound) : bs.Sane := by
  obtain ⟨hin, ht⟩ := h.clusters
  change bs.totalClusters.toNat = min bs.room (bs.entriesPerFat - 2) at ht
  have hroot := (validCluster_iff _).1 h.root
  have hle := bs.fatEntries_le
  have hlt := bs.totalClusters.toNat_lt
  -- the root is a cluster, so the number of clusters is neither of the two that wrap around
  have ht2 : bs.totalClusters.toNat + 2 < 2 ^ 32 := by omega
  rw [Nat.mod_eq_of_lt ht2] at hroot
  have hclusters : bs.room + 2 < 2 ^ 32 := by
    have := bs.sectors.toNat_lt
    have hroom : bs.room ≤ bs.sectors.toNat := (Nat.div_le_self _ _).trans (Nat.sub_le _ _)
    rcases totalClusters_cases hin with ⟨h1, h2⟩ | ⟨h1, h2⟩ <;> omega
  refine ⟨by rw [← clusterByteSize_eq]; exact h.clusterSize, hin, hclusters, ?_, by rwa [← ht], ?_⟩
  · have hmod := Nat.mod_eq_of_lt hclusters
    rcases totalClusters_cases hin with ⟨h1, h2⟩ | ⟨h1, h2⟩ <;> omega
  -- the last cluster's entry in the first FAT
  have hc : (UInt32.ofNat (bs.totalClusters.toNat + 1)).toNat = bs.totalClusters.toNat + 1 :=
    UInt32.toNat_ofNat_of_lt' (show _ < 2 ^ 32 by omega)
  have hcopy : 0 < bs.fatCopies := by
    unfold fatCopies
    split
    · rename_i h0
      exact pos_of_ne_zero fun hz => h0 (UInt8.toNat_inj.1 hz)
    · exact Nat.one_pos
  have hfat := h.fat (UInt32.ofNat (bs.totalClusters.toNat + 1)) (by
    rw [validCluster_iff, hc, Nat.mod_eq_of_lt ht2]
    omega) 0 hcopy
  simp only [fatEntryByte_eq hcopy, hc, Nat.zero_mul, Nat.add_zero] at hfat
  omega

/-- An ordinary 64 MiB volume. -/
def ordinary : BootSector := ⟨512, 8, 32, 2, 0, 131072, 128, 2⟩

/-- Accepted with no sectors at all: the last valid cluster begins behind the
end of the volume. -/
def noSectors : BootSector := ⟨512, 1, 32, 2, 0, 0, 1, 2⟩

end BootSector

end Hermes.L4.Fat
