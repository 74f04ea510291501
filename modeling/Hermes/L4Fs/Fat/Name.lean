import Hermes.L4Fs.Fat.Volume

/-!
# Directory entries and names

The 32 bytes of `fat32_directory_entry` and `fat32_long_filename_entry`, and the functions
of `fat32.c` on names. A C string is the list of its bytes, without the terminator.
-/
namespace Hermes.L4.Fat

abbrev Bytes := List UInt8

/-- A directory entry as it is on the device; both structures are views of it. -/
abbrev Slot := Fin 32 → UInt8

scoped instance slot_neZero : NeZero 32 := ⟨by decide⟩

abbrev attrVolumeId : UInt8 := 0x08
abbrev attrDirectory : UInt8 := 0x10
abbrev attrArchive : UInt8 := 0x20
abbrev attrLfn : UInt8 := 0x0F
abbrev ntLowerBase : UInt8 := 0x08
abbrev ntLowerExt : UInt8 := 0x10
abbrev direntSize : Nat := 32
abbrev direntDeleted : UInt8 := 0xE5
abbrev lfnChars : Nat := 13
abbrev lfnLast : UInt8 := 0x40
abbrev lfnMaxEntries : Nat := 20
abbrev fatNameMax : Nat := 255
abbrev tailBitmapBits : Nat := 65536
abbrev space : UInt8 := 0x20
abbrev dot : UInt8 := 0x2E

namespace Slot

variable (s : Slot)

/-- `filename` and `extension` -/
def raw11 : Bytes := (List.range 11).map fun i => s (Fin.ofNat 32 i)

def attributes : UInt8 := s 11

/-- `reserved` -/
def nt : UInt8 := s 12

def le16 (i : Fin 32) : Nat := (s i).toNat + 256 * (s (i + 1)).toNat

/-- `entry_cluster` -/
def cluster : Nat := 65536 * s.le16 20 + s.le16 26

def fileSize : Nat := s.le16 28 + 65536 * s.le16 30

/-- `attributes & FAT_ATTR_DIRECTORY` -/
def isDir : Bool := s.attributes &&& attrDirectory ≠ 0

def put (i : Fin 32) (b : UInt8) : Slot := Function.update s i b

def put16 (i : Fin 32) (x : Nat) : Slot := (s.put i (UInt8.ofNat x)).put (i + 1) (UInt8.ofNat (x / 256))

/-- `set_entry_cluster` -/
def setCluster (c : Nat) : Slot := (s.put16 20 (c / 65536)).put16 26 c

def setFileSize (n : Nat) : Slot := (s.put16 28 n).put16 30 (n / 65536)

/-- The 11 bytes of the short name. -/
def setRaw11 (raw : Bytes) : Slot := fun i => if i.val < 11 then raw.getD i.val 0 else s i

/-- The characters of `fat32_long_filename_entry`. -/
def lfnChar (k : Nat) : Nat :=
  if k < 5 then s.le16 (Fin.ofNat 32 (1 + 2 * k))
  else if k < 11 then s.le16 (Fin.ofNat 32 (14 + 2 * (k - 5)))
  else s.le16 (Fin.ofNat 32 (28 + 2 * (k - 11)))

def lfnSeq : Nat := (s 0).toNat % 32

def lfnSum : UInt8 := s 13

end Slot

/-- `fat32_lower` -/
def lower (c : UInt8) : UInt8 := if 0x41 ≤ c ∧ c ≤ 0x5A then c + 0x20 else c

/-- `fat32_upper` -/
def upper (c : UInt8) : UInt8 := if 0x61 ≤ c ∧ c ≤ 0x7A then c - 0x20 else c

/-- `short_checksum` -/
def shortChecksum (raw : Bytes) : UInt8 := raw.foldl (fun sum b => ((sum &&& 1) <<< 7) + (sum >>> 1) + b) 0

/-- What a C string holds of a buffer. -/
def cstr (l : Bytes) : Bytes := l.takeWhile (· ≠ 0)

/-- `fat32_short_name` -/
def shortName (s : Slot) : Bytes :=
  let base := (s.raw11.take 8).takeWhile (· ≠ space)
  let ext := s.raw11.drop 8
  -- up to the last byte that is not a space
  let ext := (ext.reverse.dropWhile (· = space)).reverse
  cstr ((base.map fun c => if s.nt &&& ntLowerBase ≠ 0 then lower c else c) ++
    if ext = [] then [] else dot :: ext.map fun c => if s.nt &&& ntLowerExt ≠ 0 then lower c else c)

/-- `name_equal` -/
def nameEqual : Bytes → Bytes → Bool
  | [], [] => true
  | a :: as, b :: bs => lower a = lower b && nameEqual as bs
  | _, _ => false

/-- `name_hash` -/
def nameHash (name : Bytes) : UInt32 := name.foldl (fun h c => (h ^^^ (lower c).toUInt32) * 16777619) 2166136261

/-- `"\"*/:<>?\\|"` -/
def badChars : Bytes := [0x22, 0x2A, 0x2F, 0x3A, 0x3C, 0x3E, 0x3F, 0x5C, 0x7C]

/-- `valid_name` -/
def validName (name : Bytes) : Bool :=
  !(name.length = 0 || fatNameMax < name.length || name = [dot] || name = [dot, dot]) &&
    name.all fun c => 0x20 ≤ c && !badChars.contains c

/-- `"$%'-_@~`!(){}^#&"` -/
def goodChars : Bytes :=
  [0x24, 0x25, 0x27, 0x2D, 0x5F, 0x40, 0x7E, 0x60, 0x21, 0x28, 0x29, 0x7B, 0x7D, 0x5E, 0x23, 0x26]

/-- `short_char_ok` -/
def shortCharOk (c : UInt8) : Bool :=
  (0x41 ≤ c && c ≤ 0x5A) || (0x61 ≤ c && c ≤ 0x7A) || (0x30 ≤ c && c ≤ 0x39) || 0x80 ≤ c || goodChars.contains c

def isLower (c : UInt8) : Bool := 0x61 ≤ c && c ≤ 0x7A

def isUpper (c : UInt8) : Bool := 0x41 ≤ c && c ≤ 0x5A

/-- `part_case`: 0 mixed, 2 upper case, 1 otherwise. -/
def partCase (s : Bytes) : Nat :=
  if s.any isLower && s.any isUpper then 0 else if s.any isUpper then 2 else 1

/-- The place of the last dot that is not the first byte. -/
def lastDot (name : Bytes) : Option Nat :=
  ((List.range name.length).reverse.find? fun i => name.getD i 0 = dot).filter (· ≠ 0)

/-- Base and extension of a name; the extension is absent without a dot. -/
def splitName (name : Bytes) : Bytes × Option Bytes :=
  match lastDot name with
  | none => (name, none)
  | some i => (name.take i, some (name.drop (i + 1)))

/-- `memset(raw, ' ', 11)` and the two copies. -/
def pad11 (base ext : Bytes) : Bytes :=
  ((base ++ List.replicate 8 space).take 8) ++ ((ext ++ List.replicate 3 space).take 3)

/-- `short_tail_name` -/
def shortTailName (basis ext : Bytes) (n : Nat) : Bytes :=
  let tail := 0x7E :: (Nat.digits 10 n).reverse.map fun d => UInt8.ofNat (0x30 + d)
  pad11 (basis.take (8 - tail.length) ++ tail) ext

/-- The digits at the end of `l`, last first, and what stands before them. -/
def spanDigits (l : Bytes) : Bytes × Bytes := l.span fun c => 0x30 ≤ c && c ≤ 0x39

/-- `parse_tail` -/
def parseTail (raw : Bytes) : Nat :=
  -- the bytes 1 to 7, last first, without the spaces at the end
  let l := (((raw.take 8).drop 1).reverse.dropWhile (· = space))
  let (digits, rest) := spanDigits l
  if rest.head? = some 0x7E ∧ digits ≠ [] ∧ digits.getLast? ≠ some 0x30 then
    Nat.ofDigits 10 (digits.map fun c => c.toNat - 0x30)
  else 0

/-- The basis of a short name that stands for a long one. -/
def shortBasis (base : Bytes) : Bytes :=
  let b := ((base.filter fun c => c ≠ space ∧ c ≠ dot).map fun c => if shortCharOk c then upper c else 0x5F).take 8
  if b = [] then [0x5F] else b

def shortExt (ext : Bytes) : Bytes :=
  ((ext.filter (· ≠ space)).map fun c => if shortCharOk c then upper c else 0x5F).take 3

/-- The short name that a name is by itself, with its `reserved` byte. -/
def exactShort (name : Bytes) : Option (Bytes × UInt8) :=
  let (base, ext?) := splitName name
  let ext := ext?.getD []
  let exact := 1 ≤ base.length && base.length ≤ 8 && ext.length ≤ 3 && (ext?.isNone || 0 < ext.length) &&
    base.all shortCharOk && ext.all shortCharOk
  let bc := partCase base
  let ec := if ext?.isSome then partCase ext else 1
  if exact && bc ≠ 0 && ec ≠ 0 then
    let raw := pad11 (base.map upper) (ext.map upper)
    -- `raw[0] = 0x05`
    let raw := if raw.head? = some direntDeleted then 0x05 :: raw.tail else raw
    some (raw, (if bc = 1 then ntLowerBase else 0) ||| (if ec = 1 then ntLowerExt else 0))
  else none

/-- The number of long-name slots. -/
def lfnCount (name : Bytes) : Nat := (name.length + lfnChars - 1) / lfnChars

/-- Character `at` of a long name as it is stored. -/
def lfnStored (name : Bytes) (i : Nat) : Nat :=
  if i < name.length then (name.getD i 0).toNat else if i = name.length then 0 else 0xFFFF

/-- The long-name slot with sequence number `seq`. -/
def lfnSlot (name : Bytes) (sum : UInt8) (seq : Nat) (last : Bool) : Slot := fun i =>
  let ch (k : Nat) (hi : Bool) : UInt8 :=
    let x := lfnStored name ((seq - 1) * lfnChars + k)
    UInt8.ofNat (if hi then x / 256 else x)
  if i = 0 then UInt8.ofNat seq ||| (if last then lfnLast else 0)
  else if i.val < 11 then ch ((i.val - 1) / 2) (i.val % 2 = 0)
  else if i = 11 then attrLfn
  else if i = 13 then sum
  else if 14 ≤ i.val ∧ i.val < 26 then ch (5 + (i.val - 14) / 2) (i.val % 2 = 1)
  else if 28 ≤ i.val then ch (11 + (i.val - 28) / 2) (i.val % 2 = 1)
  else 0

/-- The slots of an entry: the long name, last part first, and the short entry. -/
def nameSlots (name : Bytes) (lfn : Bool) (de : Slot) : List Slot :=
  let count := if lfn then lfnCount name else 0
  ((List.range count).map fun e => lfnSlot name (shortChecksum de.raw11) (count - e) (e = 0)) ++ [de]

end Hermes.L4.Fat
