import GCore.Fs.FatResize

namespace GCore.Fs

open Library List

/-!
# Directory entries of FAT volumes

A directory entry has 32 bytes, which are read as a short or as a long entry.  The attribute
decides which of the two it is, and the first byte marks entries that are not used.  The fields
lie in the order in which they are declared here.  The structures of the source are `repr(packed)`
without `C`, which leaves their order to the compiler.

`get_dir_ent` and `set_dir_ent` read and write an entry at an offset of a directory file.
-/

def dirEntryUnused : Byte := 0xE5
def dirEntryLastAndUnused : Byte := 0
def lastLongEntry : Byte := 0x40

def attrReadOnly : Byte := 0x01
def attrHidden : Byte := 0x02
def attrSystem : Byte := 0x04
def attrArchive : Byte := 0x20
def attrLongName : Byte := 0x0F

/-- The size of an entry, which is also the step of an iterator. -/
def stepSize : Nat := 32

structure FATDirEnt where
  bytes : List Byte
  length_bytes : bytes.length = stepSize
  deriving DecidableEq

/-- The characters of `from_utf16_lossy`. -/
def fromUtf16Lossy : List Nat -> List Char
  | [] => []
  | [unit] => if 0xD800 <= unit /\ unit < 0xE000 then [Char.ofNat 0xFFFD] else [Char.ofNat unit]
  | high :: low :: rest =>
    if 0xD800 <= high /\ high < 0xDC00 /\ 0xDC00 <= low /\ low < 0xE000 then
      Char.ofNat (0x10000 + (high - 0xD800) * 0x400 + (low - 0xDC00)) :: fromUtf16Lossy rest
    else if 0xD800 <= high /\ high < 0xE000 then Char.ofNat 0xFFFD :: fromUtf16Lossy (low :: rest)
    else Char.ofNat high :: fromUtf16Lossy (low :: rest)

/-- The characters of `from_utf8`, or none if the bytes are not valid. -/
def fromUtf8 (bytes : List Byte) : List Char :=
  match String.fromUTF8? ⟨(bytes.map (fun byte => UInt8.ofBitVec byte)).toArray⟩ with
  | some text => text.toList
  | none => []

namespace FATDirEnt

section Accessors

variable (ent : FATDirEnt)

def byte (index : Nat) : Byte := ent.bytes.getD index 0

def attr : Byte := ent.byte 11

def isLong : Bool := ent.attr == attrLongName

def getShortEnt : Option FATDirEnt := if ent.isLong then none else some ent

def isLastLongDirEnt : Bool := ent.isLong && ent.byte 0 &&& lastLongEntry != 0

def ord : Nat := if ent.isLong then (ent.byte 0 &&& (lastLongEntry - 1)).toNat else 0

def unusedNotLast : Bool := ent.byte 0 == dirEntryUnused

def lastAndUnused : Bool := ent.byte 0 == dirEntryLastAndUnused

def unused : Bool := ent.lastAndUnused || ent.unusedNotLast

def isFile : Bool :=
  ent.attr == attrArchive || ent.attr == attrHidden || ent.attr == attrSystem || ent.attr == attrReadOnly

/-- A number of two bytes. -/
def word (index : Nat) : Nat := littleEndian ((ent.bytes.drop index).take 2)

def getFirstClus : Nat := ent.word 26 ||| ent.word 20 <<< 16

def fileSize : Nat := littleEndian ((ent.bytes.drop 28).take 4)

/-- The name of a short entry: the part before the dot has at most eight bytes. -/
def shortName : List Char :=
  let basicNameLen := ((List.range 8).find? (fun index => ent.byte index == 32)).getD 8
  let extNameLen := ((List.range 3).find? (fun index => ent.byte (8 + index) == 32)).getD 3
  if extNameLen ≠ 0 then
    fromUtf8 (ent.bytes.take basicNameLen) ++ ['.'] ++ fromUtf8 ((ent.bytes.drop 8).take extNameLen)
  else fromUtf8 (ent.bytes.take basicNameLen)

/-- The units of a long entry are in three places, and end at the first zero. -/
def longName : List Char :=
  let nameAll := [1, 3, 5, 7, 9, 14, 16, 18, 20, 22, 24, 28, 30].map ent.word
  fromUtf16Lossy (nameAll.takeWhile (· ≠ 0))

def getName : List Char := if ent.isLong then ent.longName else ent.shortName

/-- Write a part of the entry. -/
def splice (offset : Nat) (part : List Byte) (inside : offset + part.length <= stepSize) : FATDirEnt where
  bytes := ent.bytes.take offset ++ part ++ ent.bytes.drop (offset + part.length)
  length_bytes := by
    rw [length_append, length_append, length_take, length_drop, ent.length_bytes]
    omega

def setFileSize (size : Nat) : FATDirEnt :=
  ent.splice 28 (littleEndianBytes 4 size) (by rw [length_littleEndianBytes]; decide)

def setFstClus (fstClus : Nat) : FATDirEnt :=
  (ent.splice 20 (littleEndianBytes 2 (fstClus >>> 16)) (by rw [length_littleEndianBytes]; decide)).splice 26
    (littleEndianBytes 2 fstClus) (by rw [length_littleEndianBytes]; decide)

end Accessors

end FATDirEnt

namespace FatInode

section Operations

variable (inode : FatInode)

/-- A part of an entry is an error. -/
def getDirEnt (frames : Frames) (offset : Nat) : Option (Option FATDirEnt × FatInode) :=
  (inode.readAtBlockCache frames offset stepSize).map (fun (read, inode) =>
    if whole : read.length = stepSize then (some ⟨read, whole⟩, inode) else (none, inode))

def setDirEnt (frames : Frames) (offset : Nat) (dirEnt : FATDirEnt) : Option (Option Unit × FatInode) :=
  (inode.writeAtBlockCacheLock frames offset dirEnt.bytes).map (fun (written, inode) =>
    if written = stepSize then (some (), inode) else (none, inode))

/-- The entry that the bytes at an offset are. -/
def entry (offset : Nat) : FATDirEnt := ⟨inode.row.load offset stepSize, Memory.length_load _ _ _⟩

end Operations

variable {earlier later : List (List Nat)} {inode : FatInode}

theorem Stored.getDirEnt (stored : Stored earlier later inode) (frames : Frames) {offset : Nat}
    (inside : offset + stepSize <= inode.size) :
    ∃ after, inode.getDirEnt frames offset = some (some (inode.entry offset), after) /\
      Operated earlier later inode after /\ after.size = inode.size /\
      ∀ place < after.size, after.row place = inode.row place := by
  have short : stepSize < 2 ^ 63 := by decide
  rcases stored.readAtBlockCache frames offset short with ⟨after, read, operated, size, row⟩
  have whole : min (offset + stepSize) inode.size - offset = stepSize := by omega
  rw [whole] at read
  refine ⟨after, ?_, operated, size, row⟩
  unfold FatInode.getDirEnt
  rw [read, Option.map_some]
  rfl

theorem Stored.setDirEnt (stored : Stored earlier later inode) (frames : Frames) {offset : Nat} (dirEnt : FATDirEnt)
    (inside : offset + stepSize <= inode.size) :
    ∃ after, inode.setDirEnt frames offset dirEnt = some (some (), after) /\
      Operated earlier later inode after /\ after.size = inode.size /\
      ∀ place < after.size, after.row place = inode.row.store offset dirEnt.bytes place := by
  have serves : inode.ServesWrite offset dirEnt.bytes.length := by
    intro grows
    rw [dirEnt.length_bytes] at grows
    omega
  rcases stored.writeAtBlockCacheLock frames serves with ⟨after, written, operated, size, row⟩
  have same : after.size = inode.size := by
    rw [size, sizeAfter, dirEnt.length_bytes]
    omega
  refine ⟨after, ?_, operated, same, ?_⟩
  · unfold FatInode.setDirEnt
    rw [written, Option.map_some, dirEnt.length_bytes]
    rfl
  · intro place below
    refine row place below (.inl ?_)
    rw [<- same]
    exact below

end FatInode

/-! ## Walking a directory

A directory file has whole clusters, so that it is a list of entries.  An iterator reads each of
them once.
-/

/-- What `DirIter` yields forward in the mode `Used`. -/
def usedEnts (ents : List FATDirEnt) : List FATDirEnt :=
  (ents.takeWhile (!·.lastAndUnused)).filter (!·.unused)

def usizeMax : Nat := 2 ^ 64 - 1

/-- The files that calls of `next` of `DirWalker` return for the entries of the iterator.  Long
entries out of order are `unreachable`. -/
def walk : List FATDirEnt -> List Char -> Nat -> Option (List (List Char × FATDirEnt))
  | [], _, _ => some []
  | dirEnt :: rest, name, shouldBeOrd =>
    if dirEnt.isLong then
      if dirEnt.isLastLongDirEnt then walk rest (dirEnt.getName ++ name) ((dirEnt.ord + usizeMax) % 2 ^ 64)
      else if dirEnt.ord = shouldBeOrd then
        walk rest (dirEnt.getName ++ name) ((shouldBeOrd + usizeMax) % 2 ^ 64)
      else none
    else
      -- the file is returned, and the next call starts without a name
      (walk rest [] usizeMax).map ((if name.isEmpty then dirEnt.getName else name, dirEnt) :: ·)

def dirWalker (ents : List FATDirEnt) : Option (List (List Char × FATDirEnt)) := walk (usedEnts ents) [] usizeMax

/-- A long entry that does not start a name comes right behind the one with the next ordinal.
Short entries have the ordinal zero. -/
def InOrder : Nat -> List FATDirEnt -> Prop
  | _, [] => True
  | previous, dirEnt :: rest =>
    (dirEnt.isLong = true -> dirEnt.isLastLongDirEnt = true \/ previous = dirEnt.ord + 1) /\ InOrder dirEnt.ord rest

theorem FATDirEnt.ord_lt (ent : FATDirEnt) : ent.ord < 64 := by
  unfold ord
  split
  · rw [BitVec.toNat_and]
    exact Nat.lt_succ_of_le Nat.and_le_right
  · decide

theorem walk_isSome_iff {ents : List FATDirEnt} {previous shouldBeOrd : Nat} (small : previous < 64)
    (name : List Char) (expects : shouldBeOrd = (previous + usizeMax) % 2 ^ 64) :
    (walk ents name shouldBeOrd).isSome = true ↔ InOrder previous ents := by
  induction ents generalizing previous shouldBeOrd name with
  | nil => exact iff_of_true rfl trivial
  | cons dirEnt rest ih =>
    have bound := dirEnt.ord_lt
    rw [walk, InOrder]
    by_cases long : dirEnt.isLong = true
    · rw [if_pos long, forall_prop_of_true long]
      by_cases last : dirEnt.isLastLongDirEnt = true
      · rw [if_pos last, ih bound _ rfl]
        exact (and_iff_right (.inl last)).symm
      · have expected : dirEnt.ord = shouldBeOrd ↔ previous = dirEnt.ord + 1 := by
          unfold usizeMax at expects
          omega
        rw [if_neg last, or_iff_right last]
        by_cases next : previous = dirEnt.ord + 1
        · rw [if_pos (expected.mpr next), <- expected.mpr next, ih bound _ rfl]
          exact (and_iff_right next).symm
        · rw [if_neg (fun same => next (expected.mp same))]
          exact iff_of_false Bool.false_ne_true (fun ordered => next ordered.1)
    · have short : dirEnt.ord = 0 := if_neg long
      rw [if_neg long, Option.isSome_map, and_iff_right (fun held => absurd held long), short]
      exact ih (by decide) [] rfl

/-- The walk comes to its end exactly for directories whose long entries are in order. -/
theorem dirWalker_returns_iff (ents : List FATDirEnt) :
    (dirWalker ents).isSome = true ↔ InOrder 0 (usedEnts ents) :=
  walk_isSome_iff (by decide) [] rfl

/-- A single long entry that does not start a name. -/
theorem long_entry_is_unreachable : ¬ ∀ ents, (dirWalker ents).isSome = true := by
  intro claim
  have total := claim [⟨1 :: replicate 10 0 ++ attrLongName :: replicate 20 0, by decide⟩]
  exact Bool.false_ne_true total

end GCore.Fs
