import GCore.Fs.Ext4.Bitmap
import GCore.Fs.Ext4.Volume
import GCore.Library.Run
import Mathlib.Algebra.BigOperators.Group.Finset.Basic

namespace GCore.Fs.Ext4

open Library Function Option List Nat Ext4BlockGroup

/-!
# Allocation of inodes

`ialloc_alloc_inode` takes the first group whose counter of free inodes is not zero and
the first clear bit of its bitmap.  Behind the last group it begins again with the first
one, so it has no end if all counters are zero; a loop of the source is therefore run
with a number of rounds here.

Inodes are numbered from 1, and inode `number` has the bit `number - 1`.
`ialloc_free_inode` computes group and bit from the number itself, so it clears the bit
of the next inode.  Numbers stay distinct as long as the next inode is not in use when an
inode is freed, and as long as the counters do not promise more than the bitmap has.
-/

namespace Ext4BlockGroup

variable (bg : Ext4BlockGroup) (geometry : Geometry)

/-- The counters of a group after an inode has been taken. -/
def inodeTaken (isDir : Bool) (inodesInBg idxInBg : Nat) : Ext4BlockGroup :=
  let bg := bg.setFreeInodesCount geometry (bg.getFreeInodesCount - 1)
  let bg := if isDir then bg.setUsedDirsCount geometry ((bg.getUsedDirsCount geometry + 1) % 2 ^ 32) else bg
  let free := (inodesInBg + 2 ^ 32 - bg.getItableUnused geometry) % 2 ^ 32
  if free <= idxInBg then bg.setItableUnused geometry ((inodesInBg + 2 ^ 32 - (idxInBg + 1)) % 2 ^ 32) else bg

/-- The counters of a group after an inode has been freed. -/
def inodeFreed (isDir : Bool) : Ext4BlockGroup :=
  let bg := bg.setFreeInodesCount geometry ((bg.getFreeInodesCount + 1) % 2 ^ 32)
  if isDir then bg.setUsedDirsCount geometry ((bg.getUsedDirsCount geometry + 2 ^ 32 - 1) % 2 ^ 32) else bg

end Ext4BlockGroup

namespace Ext4FileSystem

section Allocation

variable (fs : Ext4FileSystem)

def getBgidOfInode (inodeNum : Nat) : Nat := inodeNum / fs.superblock.inodesPerGroup

def inodeToBgidx (inodeNum : Nat) : Nat := inodeNum % fs.superblock.inodesPerGroup

/-- The part of the loop for a group with free inodes.  The answer of the search is not
looked at, and the index stays 0 if there is no clear bit. -/
def takeInode (isDir : Bool) (bgid : Nat) (bg : Ext4BlockGroup) : Option (Nat × Ext4FileSystem) := do
  let geometry := fs.superblock.toGeometry
  let inodeBitmapBlock := bg.getInodeBitmapBlock geometry
  let bitmapData := fs.readBlock inodeBitmapBlock
  let inodesInBg := geometry.getInodesInGroupCnt bgid
  let idxInBg := (<- ext4BmapBitFindClr bitmapData 0 inodesInBg).getD 0
  let bitmapData <- ext4BmapBitSet bitmapData idxInBg
  let fs := fs.writeBlock inodeBitmapBlock bitmapData
  let fs <- fs.syncBlockGroup bgid (bg.inodeTaken geometry isDir inodesInBg idxInBg)
  let fs := fs.syncSuperblock fs.superblock.decreaseFreeInodesCount
  some ((bgid * fs.superblock.inodesPerGroup + (idxInBg + 1)) % 2 ^ 32, fs)

/-- One round of the loop: the group of the next round, or the answer. -/
def iallocRound (isDir : Bool) (bgid : Nat) : Option (Nat ⊕ Except Int Nat × Ext4FileSystem) :=
  if bgid <= fs.superblock.blockGroupCount then
    if bgid = fs.superblock.blockGroupCount then some (.inl 0)
    else do
      let bg <- fs.loadNew bgid
      if 0 < bg.getFreeInodesCount then
        let (inodeNum, fs) <- fs.takeInode isDir bgid bg
        some (.inr (.ok inodeNum, fs))
      else some (.inl (bgid + 1))
  else some (.inr (.error ENOSPC, fs))

/-- The loop with a bound on its rounds; `some none` means that it has not returned yet. -/
def iallocLoop (isDir : Bool) : Nat -> Nat -> Option (Option (Except Int Nat × Ext4FileSystem))
  | 0, _ => some none
  | fuel + 1, bgid => (fs.iallocRound isDir bgid).bind (fun next =>
    match next with
    | .inl bgid => iallocLoop isDir fuel bgid
    | .inr answer => some (some answer))

def iallocAllocInode (isDir : Bool) (fuel : Nat) : Option (Option (Except Int Nat × Ext4FileSystem)) :=
  fs.iallocLoop isDir fuel 0

/-- The number of free inodes of the superblock is decreased here too. -/
def iallocFreeInode (index : Nat) (isDir : Bool) : Option Ext4FileSystem := do
  let geometry := fs.superblock.toGeometry
  let bgid := fs.getBgidOfInode index
  let bg <- fs.loadNew bgid
  let inodeBitmapBlock := bg.getInodeBitmapBlock geometry
  let bitmapData <- ext4BmapBitClr (fs.readBlock inodeBitmapBlock) (fs.inodeToBgidx index)
  let fs := fs.writeBlock inodeBitmapBlock bitmapData
  let fs <- fs.syncBlockGroup bgid (bg.inodeFreed geometry isDir)
  some (fs.syncSuperblock fs.superblock.decreaseFreeInodesCount)

end Allocation

/-! ## Bits of inodes -/

section Bits

variable (fs : Ext4FileSystem)

def inodesPer : Nat := fs.superblock.inodesPerGroup

def inodesCount : Nat := fs.superblock.inodesCount

/-- The number of inodes of a group; the last group may have less than the others. -/
def inodesIn (bgid : Nat) : Nat := fs.superblock.getInodesInGroupCnt bgid

def inodeBitmapBlock (bgid : Nat) : Nat := (fs.device.groups bgid).getInodeBitmapBlock fs.superblock.toGeometry

def inodeBitmap (bgid : Nat) : List (BitVec 8) := fs.device.blocks (fs.inodeBitmapBlock bgid)

def freeInodes (bgid : Nat) : Nat := (fs.device.groups bgid).getFreeInodesCount

/-- The bit of an inode. -/
def inodeUsed (number : Nat) : Bool :=
  bit (fs.inodeBitmap ((number - 1) / fs.inodesPer)) ((number - 1) % fs.inodesPer)

/-- The numbers of the inodes of the volume. -/
def IsInode (number : Nat) : Prop := 1 <= number /\ number <= fs.inodesCount

/-- All groups but the last one are filled with inodes, and every group has a bitmap of its
own in a block. -/
structure InodesSound : Prop where
  dscCnt_ne : fs.dscCnt ≠ 0
  sized : ∀ block, (fs.device.blocks block).length = blockSz
  inodesPer_le : fs.inodesPer <= 8 * blockSz
  several : 1 < fs.inodesPer
  group : 0 < fs.groupCount
  above : (fs.groupCount - 1) * fs.inodesPer < fs.inodesCount
  below : fs.inodesCount <= fs.groupCount * fs.inodesPer
  small : fs.inodesCount < 2 ^ 32
  apart : ∀ first second, first < fs.groupCount -> second < fs.groupCount ->
    fs.inodeBitmapBlock first = fs.inodeBitmapBlock second -> first = second

/-- The counters agree with the bitmaps. -/
structure InodesAccounted : Prop where
  groups : ∀ bgid < fs.groupCount, fs.freeInodes bgid = vacancies (bit (fs.inodeBitmap bgid)) (fs.inodesIn bgid)
  total : fs.device.superblock.freeInodesCount = (Finset.range fs.groupCount).sum fs.freeInodes

end Bits

variable {fs after : Ext4FileSystem} {bgid index number : Nat}

theorem InodesSound.inodesIn_eq (sound : InodesSound fs) (bgid : Nat) : fs.inodesIn bgid =
    if bgid < fs.groupCount - 1 then fs.inodesPer else fs.inodesCount - (fs.groupCount - 1) * fs.inodesPer := by
  have some_group := sound.group
  have above := sound.above
  have small := sound.small
  have few := fs.groupCount_lt
  have last_eq : fs.superblock.lastGroup = fs.groupCount - 1 := by
    change (fs.groupCount + 2 ^ 32 - 1) % 2 ^ 32 = fs.groupCount - 1
    omega
  have rest_eq : (fs.inodesCount + 2 ^ 32 - (fs.groupCount - 1) * fs.inodesPer % 2 ^ 32) % 2 ^ 32 =
      fs.inodesCount - (fs.groupCount - 1) * fs.inodesPer := by
    omega
  unfold inodesIn Geometry.getInodesInGroupCnt
  rw [last_eq, <- rest_eq]
  rfl

theorem InodesSound.inodesIn_bounds (sound : InodesSound fs) (inside : bgid < fs.groupCount) :
    fs.inodesIn bgid <= fs.inodesPer /\ bgid * fs.inodesPer + fs.inodesIn bgid <= fs.inodesCount := by
  have above := sound.above
  have below := sound.below
  have split : fs.groupCount * fs.inodesPer = (fs.groupCount - 1) * fs.inodesPer + fs.inodesPer := by
    rw [<- succ_mul, succ_eq_add_one, Nat.sub_add_cancel sound.group]
  rw [sound.inodesIn_eq]
  by_cases earlier : bgid < fs.groupCount - 1
  · rw [if_pos earlier]
    have next := Nat.mul_le_mul_right fs.inodesPer (succ_le_of_lt earlier)
    rw [succ_mul] at next
    omega
  · rw [if_neg earlier, show bgid = fs.groupCount - 1 by omega]
    omega

/-- What both operations do to the volume: they change a bit of a bitmap, and counters. -/
structure Rewrites (fs after : Ext4FileSystem) (bgid index : Nat) (value : Bool) : Prop where
  superblock_eq : after.superblock = fs.superblock
  blockSize_eq : after.blockSize = fs.blockSize
  blocks_eq : after.device.blocks =
    Function.update fs.device.blocks (fs.inodeBitmapBlock bgid) (putBit (fs.inodeBitmap bgid) index value)
  bitmaps_eq : ∀ other, after.inodeBitmapBlock other = fs.inodeBitmapBlock other

namespace Rewrites

variable {value : Bool} (rewrites : Rewrites fs after bgid index value)

include rewrites

theorem groupCount_eq : after.groupCount = fs.groupCount := by
  rw [groupCount, rewrites.superblock_eq, groupCount]

theorem inodesPer_eq : after.inodesPer = fs.inodesPer := by
  rw [inodesPer, rewrites.superblock_eq, inodesPer]

theorem inodesCount_eq : after.inodesCount = fs.inodesCount := by
  rw [inodesCount, rewrites.superblock_eq, inodesCount]

theorem sound (before : InodesSound fs) : InodesSound after := by
  have dscCnt_eq : after.dscCnt = fs.dscCnt := by rw [dscCnt, rewrites.superblock_eq, rewrites.blockSize_eq, dscCnt]
  constructor
  case sized =>
    intro block
    rw [rewrites.blocks_eq]
    by_cases same : block = fs.inodeBitmapBlock bgid
    · rw [same, update_self, length_putBit]
      exact before.sized _
    · rw [update_of_ne same]
      exact before.sized block
  case apart =>
    intro first second
    rw [rewrites.groupCount_eq, rewrites.bitmaps_eq, rewrites.bitmaps_eq]
    exact before.apart first second
  all_goals simp only [dscCnt_eq, rewrites.groupCount_eq, rewrites.inodesPer_eq, rewrites.inodesCount_eq]
  case dscCnt_ne => exact before.dscCnt_ne
  case inodesPer_le => exact before.inodesPer_le
  case several => exact before.several
  case group => exact before.group
  case above => exact before.above
  case below => exact before.below
  case small => exact before.small

/-- One bit is new. -/
theorem inodeUsed_eq (sound : InodesSound fs) (below : index < fs.inodesPer) (number : Nat) :
    after.inodeUsed number =
      if fs.inodeBitmapBlock ((number - 1) / fs.inodesPer) = fs.inodeBitmapBlock bgid /\
        (number - 1) % fs.inodesPer = index then value else fs.inodeUsed number := by
  have room : index / 8 < (fs.inodeBitmap bgid).length := by
    have bound := sound.inodesPer_le
    rw [inodeBitmap, sound.sized]
    omega
  unfold inodeUsed inodeBitmap
  rw [rewrites.inodesPer_eq, rewrites.bitmaps_eq, rewrites.blocks_eq]
  by_cases same : fs.inodeBitmapBlock ((number - 1) / fs.inodesPer) = fs.inodeBitmapBlock bgid
  · rw [same, update_self, bit_putBit room]
    simp only [true_and]
    rfl
  · rw [update_of_ne same, if_neg (fun both => same both.1)]

end Rewrites

/-! ## The operations -/

section Descriptors

variable (place : Ext4BlockGroup -> Nat)
  (counters : ∀ (group : Ext4BlockGroup) free freeHi unused unusedHi, place { group with
    freeInodesCountLo := free, freeInodesCountHi := freeHi, itableUnusedLo := unused, itableUnusedHi := unusedHi } =
      place group)
  (group : Ext4BlockGroup) (geometry : Geometry) (isDir : Bool)

include counters

/-- What does not depend on the counters stays. -/
theorem place_setFreeInodesCount (cnt : Nat) : place (group.setFreeInodesCount geometry cnt) = place group := by
  unfold setFreeInodesCount
  split
  · exact counters group _ _ _ _
  · exact counters group _ _ _ _

theorem place_setItableUnused (cnt : Nat) : place (group.setItableUnused geometry cnt) = place group := by
  unfold setItableUnused
  split
  · exact counters group _ _ _ _
  · exact counters group _ _ _ _

theorem place_inodeTaken (inodesInBg idxInBg : Nat) :
    place (group.inodeTaken geometry isDir inodesInBg idxInBg) = place group := by
  have counted := place_setFreeInodesCount place counters group geometry (group.getFreeInodesCount - 1)
  unfold inodeTaken
  dsimp only
  generalize group.setFreeInodesCount geometry (group.getFreeInodesCount - 1) = taken at counted ⊢
  have directory : ∀ cnt, place (if isDir then taken.setUsedDirsCount geometry cnt else taken) = place group := by
    intro cnt
    split
    · exact (place_setItableUnused place counters taken geometry cnt).trans counted
    · exact counted
  replace directory := directory ((taken.getUsedDirsCount geometry + 1) % 2 ^ 32)
  generalize (if isDir then _ else taken) = listed at directory ⊢
  split
  · exact (place_setItableUnused place counters listed geometry _).trans directory
  · exact directory

theorem place_inodeFreed : place (group.inodeFreed geometry isDir) = place group := by
  have counted := place_setFreeInodesCount place counters group geometry ((group.getFreeInodesCount + 1) % 2 ^ 32)
  unfold inodeFreed
  split
  · exact (place_setItableUnused place counters _ geometry _).trans counted
  · exact counted

end Descriptors

/-- A bitmap, a descriptor with the same bitmap and a superblock have been written. -/
theorem rewrites_of_written {value : Bool} {group : Ext4BlockGroup} {superblock : Ext4Superblock}
    (place : group.getInodeBitmapBlock fs.superblock.toGeometry = fs.inodeBitmapBlock bgid) :
    Rewrites fs { fs with device := {
      superblock := superblock
      groups := update fs.device.groups bgid group
      blocks := update fs.device.blocks (fs.inodeBitmapBlock bgid) (putBit (fs.inodeBitmap bgid) index value) } }
      bgid index value := by
  refine ⟨rfl, rfl, rfl, ?_⟩
  intro other
  change getInodeBitmapBlock (update fs.device.groups bgid group other) fs.superblock.toGeometry = _
  by_cases same : other = bgid
  · rw [same, update_self]
    exact place
  · rw [update_of_ne same]
    rfl

theorem InodesSound.bitmap_room (sound : InodesSound fs) (below : index < fs.inodesPer) :
    index < 8 * (fs.inodeBitmap bgid).length := by
  rw [inodeBitmap, sound.sized]
  exact below.trans_le sound.inodesPer_le

theorem InodesSound.group_lt (sound : InodesSound fs) (isInode : IsInode fs number) :
    (number - 1) / fs.inodesPer < fs.groupCount := by
  have below := isInode.2.trans sound.below
  have positive := isInode.1
  rw [Nat.mul_comm] at below
  exact Nat.div_lt_of_lt_mul (by omega)

/-- The number of the inode with a bit of a group. -/
theorem number_eq (below : index < fs.inodesPer) :
    (bgid * fs.inodesPer + (index + 1) - 1) / fs.inodesPer = bgid /\
      (bgid * fs.inodesPer + (index + 1) - 1) % fs.inodesPer = index := by
  rw [<- Nat.add_assoc, Nat.add_sub_cancel, Nat.mul_comm, mul_add_div (by omega), mul_add_mod,
    div_eq_of_lt below, mod_eq_of_lt below]
  exact ⟨rfl, rfl⟩

variable (sound : InodesSound fs)

include sound

/-- The first clear bit of the bitmap is taken, if there is one. -/
theorem InodesSound.takeInode_spec (writable : Writable fs bgid) (inside : bgid < fs.groupCount)
    (vacant : ∃ index, index < fs.inodesIn bgid /\ bit (fs.inodeBitmap bgid) index = false) (isDir : Bool) :
    ∃ index after, index < fs.inodesIn bgid /\ bit (fs.inodeBitmap bgid) index = false /\
      fs.takeInode isDir bgid (fs.device.groups bgid) = some (bgid * fs.inodesPer + (index + 1), after) /\
      Rewrites fs after bgid index true := by
  have bounds := sound.inodesIn_bounds inside
  have small := sound.small
  have limit := sound.inodesPer_le
  have searched := @bitFindClr_spec (fs.inodeBitmap bgid) 0 (fs.inodesIn bgid) (Nat.zero_le _) (by omega)
    (by rw [inodeBitmap, sound.sized]; omega) (fun index _ _ before => absurd before (Nat.not_lt_zero index))
  rcases searched with ⟨result, found, first⟩
  cases result with
  | none =>
    rcases vacant with ⟨index, below, clear⟩
    rw [first index (Nat.zero_le index) below] at clear
    cases clear
  | some index =>
    have below : index < fs.inodesPer := first.2.1.trans_le bounds.1
    have indexed := first.2.1
    have number_small : (bgid * fs.inodesPer + (index + 1)) % 2 ^ 32 = bgid * fs.inodesPer + (index + 1) :=
      mod_eq_of_lt (by omega)
    have search : ext4BmapBitFindClr (fs.readBlock ((fs.device.groups bgid).getInodeBitmapBlock
        fs.superblock.toGeometry)) 0 (fs.superblock.getInodesInGroupCnt bgid) = some (some index) := found
    have set : ext4BmapBitSet (fs.readBlock ((fs.device.groups bgid).getInodeBitmapBlock
        fs.superblock.toGeometry)) index = some (putBit (fs.inodeBitmap bgid) index true) :=
      bitSet_eq (sound.bitmap_room below)
    have done : ∃ after,
        fs.takeInode isDir bgid (fs.device.groups bgid) = some (bgid * fs.inodesPer + (index + 1), after) /\
          Rewrites fs after bgid index true := by
      unfold takeInode writeBlock
      dsimp only
      rw [search, bind_eq_bind, bind_some, getD_some, set, bind_eq_bind, bind_some,
        syncBlockGroup_eq sound.dscCnt_ne writable, bind_eq_bind, bind_some]
      exact ⟨_, congrArg (fun number => some (number, _)) number_small,
        rewrites_of_written (place_inodeTaken (·.getInodeBitmapBlock _) (fun _ _ _ _ _ => rfl) _ _ isDir _ _)⟩
    rcases done with ⟨after, taken, rewrites⟩
    exact ⟨index, after, indexed, first.2.2.1, taken, rewrites⟩

variable {isDir : Bool} (freed : fs.iallocFreeInode number isDir = some after)

include freed

/-- A bitmap, a descriptor and the superblock are written. -/
theorem InodesSound.iallocFreeInode_eq :
    after = { fs with device := {
      superblock := fs.superblock.decreaseFreeInodesCount
      groups := update fs.device.groups (number / fs.inodesPer)
        ((fs.device.groups (number / fs.inodesPer)).inodeFreed fs.superblock.toGeometry isDir)
      blocks := update fs.device.blocks (fs.inodeBitmapBlock (number / fs.inodesPer))
        (putBit (fs.inodeBitmap (number / fs.inodesPer)) (number % fs.inodesPer) false) } } := by
  have several := sound.several
  have below : number % fs.inodesPer < fs.inodesPer := mod_lt _ (by omega)
  have loaded : fs.loadNew (fs.getBgidOfInode number) = some (fs.device.groups (number / fs.inodesPer)) :=
    if_neg sound.dscCnt_ne
  have cleared : ext4BmapBitClr (fs.readBlock ((fs.device.groups (number / fs.inodesPer)).getInodeBitmapBlock
      fs.superblock.toGeometry)) (fs.inodeToBgidx number) =
      some (putBit (fs.inodeBitmap (number / fs.inodesPer)) (number % fs.inodesPer) false) :=
    bitClr_eq (sound.bitmap_room below)
  unfold iallocFreeInode at freed
  dsimp only at freed
  rw [loaded, bind_eq_bind, bind_some, cleared, bind_eq_bind, bind_some] at freed
  rcases bind_eq_some_iff.mp freed with ⟨_, synced, finished⟩
  unfold syncBlockGroup at synced
  split at synced
  · cases synced
  · cases synced
    cases finished
    rfl

/-- The bit with the index of the number is cleared. -/
theorem InodesSound.iallocFreeInode_rewrites :
    Rewrites fs after (number / fs.inodesPer) (number % fs.inodesPer) false := by
  rw [sound.iallocFreeInode_eq freed]
  exact rewrites_of_written (place_inodeFreed (·.getInodeBitmapBlock _) (fun _ _ _ _ _ => rfl) _ _ isDir)

/-- Freeing an inode does not change its bit. -/
theorem InodesSound.inodeUsed_freed (positive : 1 <= number) : after.inodeUsed number = fs.inodeUsed number := by
  have several := sound.several
  have other : ¬ (number - 1) % fs.inodesPer = number % fs.inodesPer := by
    intro same
    have split := add_mod (number - 1) 1 fs.inodesPer
    rw [Nat.sub_add_cancel positive, same, mod_eq_of_lt several] at split
    by_cases wraps : number % fs.inodesPer + 1 < fs.inodesPer
    · rw [mod_eq_of_lt wraps] at split
      omega
    · have bound := mod_lt number (by omega : 0 < fs.inodesPer)
      rw [show number % fs.inodesPer + 1 = fs.inodesPer by omega, mod_self] at split
      omega
  rw [(sound.iallocFreeInode_rewrites freed).inodeUsed_eq sound (mod_lt _ (by omega)), if_neg (fun both => other both.2)]

omit freed

/-! ## The loop -/

variable {fuel : Nat}

/-- A group without free inodes is passed. -/
theorem InodesSound.iallocRound_eq (inside : bgid < fs.groupCount) : fs.iallocRound isDir bgid =
    if fs.freeInodes bgid = 0 then some (.inl (bgid + 1))
    else (fs.takeInode isDir bgid (fs.device.groups bgid)).map (fun taken => .inr (.ok taken.1, taken.2)) := by
  have loaded : fs.loadNew bgid = some (fs.device.groups bgid) := if_neg sound.dscCnt_ne
  unfold groupCount at inside
  rw [iallocRound, if_pos inside.le, if_neg (Nat.ne_of_lt inside), loaded, bind_eq_bind, bind_some, freeInodes]
  by_cases none_free : (fs.device.groups bgid).getFreeInodesCount = 0
  · rw [if_pos none_free, none_free, if_neg (Nat.lt_irrefl 0)]
  · rw [if_neg none_free, if_pos (Nat.pos_of_ne_zero none_free)]
    cases fs.takeInode isDir bgid (fs.device.groups bgid) with
    | none | some taken => rfl

omit sound in
/-- Behind the last group the loop begins again. -/
theorem iallocRound_wrap : fs.iallocRound isDir fs.groupCount = some (.inl 0) := by
  unfold groupCount
  rw [iallocRound, if_pos le_rfl, if_pos rfl]

/-- The loop comes to the first group with free inodes after so many rounds. -/
theorem InodesSound.iallocLoop_eq {first : Nat} (inside : first < fs.groupCount)
    (some_free : 0 < fs.freeInodes first) (none_free : ∀ bgid < first, fs.freeInodes bgid = 0)
    (steps fuel : Nat) (reaches : bgid + steps = first) :
    fs.iallocLoop isDir fuel bgid = if fuel <= steps then some none
      else (fs.takeInode isDir first (fs.device.groups first)).map (fun taken => some (.ok taken.1, taken.2)) := by
  induction steps generalizing bgid fuel with
  | zero =>
    cases fuel with
    | zero => rfl
    | succ fuel =>
      rw [Nat.add_zero] at reaches
      rw [iallocLoop, reaches, sound.iallocRound_eq inside, if_neg some_free.ne', if_neg (by omega)]
      cases fs.takeInode isDir first (fs.device.groups first) with
      | none | some taken => rfl
  | succ steps ih =>
    cases fuel with
    | zero => rfl
    | succ fuel =>
      rw [iallocLoop, sound.iallocRound_eq (by omega), if_pos (none_free bgid (by omega)), bind_some]
      dsimp only
      rw [ih fuel (by omega)]
      simp only [Nat.add_le_add_iff_right]

/-- Without free inodes the loop goes round and round. -/
theorem InodesSound.iallocLoop_idle
    (none_free : ∀ bgid < fs.groupCount, fs.freeInodes bgid = 0) (fuel : Nat) (within : bgid <= fs.groupCount) :
    fs.iallocLoop isDir fuel bgid = some none := by
  induction fuel generalizing bgid with
  | zero => rfl
  | succ fuel ih =>
    by_cases last : bgid = fs.groupCount
    · rw [iallocLoop, last, iallocRound_wrap]
      exact ih (Nat.zero_le _)
    · have inside : bgid < fs.groupCount := by omega
      rw [iallocLoop, sound.iallocRound_eq inside, if_pos (none_free bgid inside)]
      exact ih inside

/-- The error behind the loop is never returned. -/
theorem InodesSound.iallocLoop_ne_error (code : Int) (fuel : Nat) (within : bgid <= fs.groupCount) :
    fs.iallocLoop isDir fuel bgid ≠ some (some (.error code, after)) := by
  induction fuel generalizing bgid with
  | zero => exact nofun
  | succ fuel ih =>
    rw [iallocLoop]
    by_cases last : bgid = fs.groupCount
    · rw [last, iallocRound_wrap]
      exact ih (Nat.zero_le _)
    · have inside : bgid < fs.groupCount := by omega
      rw [sound.iallocRound_eq inside]
      split
      · exact ih inside
      · cases fs.takeInode isDir bgid (fs.device.groups bgid) with
        | none | some taken => exact nofun

/-! ## What is expected -/

section Expected

variable (fs isDir)

/-- Freeing the inode that has just been allocated restores bitmaps and counters. -/
def Restores : Prop :=
  ∀ fuel number after, fs.iallocAllocInode isDir fuel = some (some (.ok number, after)) ->
    ∃ freed, after.iallocFreeInode number isDir = some freed /\
      (∀ bgid < fs.groupCount, freed.inodeBitmap bgid = fs.inodeBitmap bgid /\
        freed.freeInodes bgid = fs.freeInodes bgid /\
        (freed.device.groups bgid).getUsedDirsCount fs.superblock.toGeometry =
          (fs.device.groups bgid).getUsedDirsCount fs.superblock.toGeometry) /\
      freed.device.superblock.freeInodesCount = fs.device.superblock.freeInodesCount

/-- If no inode is free, then the allocation returns with an error. -/
def Refuses : Prop :=
  (∀ number, IsInode fs number -> fs.inodeUsed number = true) ->
    ∃ fuel code after,
      fs.iallocAllocInode isDir fuel = some (some (.error code, after))

/-- The first group that has free inodes by its counter has a clear bit, and its descriptor can be
written. -/
def Vacant : Prop :=
  ∃ bgid, bgid < fs.groupCount /\ Writable fs bgid /\ 0 < fs.freeInodes bgid /\
    (∀ other < bgid, fs.freeInodes other = 0) /\
    ∃ index, index < fs.inodesIn bgid /\ bit (fs.inodeBitmap bgid) index = false

instance : Decidable (Vacant fs) := by
  unfold Vacant Writable
  infer_instance

end Expected

/-- An allocation takes an inode whose bit is clear. -/
structure Takes (fs after : Ext4FileSystem) (number : Nat) : Prop where
  isInode : IsInode fs number
  clear : fs.inodeUsed number = false
  rewrites : Rewrites fs after ((number - 1) / fs.inodesPer) ((number - 1) % fs.inodesPer) true

/-- With enough rounds an inode is returned, and it is the same one whatever their number. -/
theorem InodesSound.iallocAllocInode_spec (vacant : Vacant fs) (isDir : Bool) : ∃ rounds number after, Takes fs after number /\
      ∀ fuel, fs.iallocAllocInode isDir fuel = if fuel <= rounds then some none else some (some (.ok number, after)) := by
  rcases vacant with ⟨bgid, inside, writable, some_free, none_free, clear⟩
  rcases sound.takeInode_spec writable inside clear isDir with ⟨index, after, _, clear, taken, rewrites⟩
  have bounds := sound.inodesIn_bounds inside
  have place := @number_eq fs bgid index (by omega)
  refine ⟨bgid, bgid * fs.inodesPer + (index + 1), after, ⟨⟨by omega, by omega⟩, ?_, ?_⟩, ?_⟩
  · rw [inodeUsed, place.1, place.2]
    exact clear
  · rw [place.1, place.2]
    exact rewrites
  · intro fuel
    rw [iallocAllocInode, sound.iallocLoop_eq inside some_free none_free bgid fuel (Nat.zero_add bgid), taken]
    rfl

/-- Freeing an inode does not clear its bit. -/
theorem Takes.still_used (takes : Takes fs after number) {freed : Ext4FileSystem}
    (done : after.iallocFreeInode number isDir = some freed) : freed.inodeUsed number = true := by
  have several := sound.several
  rw [(takes.rewrites.sound sound).inodeUsed_freed done takes.isInode.1,
    takes.rewrites.inodeUsed_eq sound (mod_lt _ (by omega)), if_pos ⟨rfl, rfl⟩]

theorem InodesSound.not_restores (vacant : Vacant fs) (isDir : Bool) :
    ¬ Restores fs isDir := by
  intro restores
  rcases sound.iallocAllocInode_spec vacant isDir with ⟨rounds, number, after, takes, returns⟩
  have returned := returns (rounds + 1)
  rw [if_neg (by omega)] at returned
  rcases restores (rounds + 1) number after returned with ⟨_, done, same, _⟩
  have used := takes.still_used sound done
  have rewrites := (takes.rewrites.sound sound).iallocFreeInode_rewrites done
  have inside : (number - 1) / fs.inodesPer < fs.groupCount := sound.group_lt takes.isInode
  rw [inodeUsed, rewrites.inodesPer_eq, takes.rewrites.inodesPer_eq, (same _ inside).1] at used
  have clear := takes.clear
  rw [inodeUsed, used] at clear
  cases clear

theorem InodesSound.refuses_iff (isDir : Bool) :
    Refuses fs isDir ↔ ∃ number, IsInode fs number /\ fs.inodeUsed number = false := by
  constructor
  · intro refuses
    by_contra none_clear
    have full : ∀ number, IsInode fs number -> fs.inodeUsed number = true := by
      intro number isInode
      exact Bool.eq_true_of_not_eq_false (fun clear => none_clear ⟨number, isInode, clear⟩)
    rcases refuses full with ⟨fuel, code, _, failed⟩
    exact sound.iallocLoop_ne_error code fuel (Nat.zero_le _) failed
  · rintro ⟨number, isInode, clear⟩ full
    rw [full number isInode] at clear
    cases clear

end Ext4FileSystem

/-! ## Runs -/

/-- A file system with the numbers of the inodes that are in use. -/
structure Inodes where
  fs : Ext4FileSystem
  live : List Nat

inductive InodeEvent where
  | alloc (isDir : Bool)
  | free (number : Nat) (isDir : Bool)

namespace Inodes

open Ext4FileSystem

section Steps

variable (before : Inodes)

def Step : InodeEvent -> Inodes -> Prop
  | .alloc isDir, after => ∃ fuel number,
    before.fs.iallocAllocInode isDir fuel = some (some (.ok number, after.fs)) /\ after.live = number :: before.live
  | .free number isDir, after =>
    before.fs.iallocFreeInode number isDir = some after.fs /\ after.live = before.live.erase number

/-- Only inodes in use are freed. -/
def FreesLive : InodeEvent -> Prop
  | .alloc _ => True
  | .free number _ => number ∈ before.live

/-- The next inode is not in use when an inode is freed, and its group is one of the volume. -/
def Admits : InodeEvent -> Prop
  | .alloc _ => Vacant before.fs
  | .free number _ => number ∈ before.live /\ number + 1 ∉ before.live /\
      number / before.fs.inodesPer < before.fs.groupCount

/-- The inodes in use are distinct inodes of the volume. -/
def Distinct : Prop := before.live.Nodup /\ ∀ number ∈ before.live, IsInode before.fs number

/-- Their bits are set. -/
structure Marked : Prop where
  sound : InodesSound before.fs
  distinct : Distinct before
  used : ∀ number ∈ before.live, before.fs.inodeUsed number = true

end Steps

variable {before after start state : Inodes} {isDir : Bool} {number : Nat}

theorem Marked.alloc (marked : Marked before) {taken : Ext4FileSystem} (takes : Takes before.fs taken number)
    (moved : after.fs = taken) (live_eq : after.live = number :: before.live) : Marked after := by
  subst moved
  have several := marked.sound.several
  have fresh : number ∉ before.live := by
    intro member
    have clear := takes.clear
    rw [marked.used number member] at clear
    cases clear
  have used := takes.rewrites.inodeUsed_eq marked.sound (mod_lt _ (by omega))
  have isInode : ∀ other, IsInode after.fs other = IsInode before.fs other := by
    intro other
    rw [IsInode, takes.rewrites.inodesCount_eq, IsInode]
  refine ⟨takes.rewrites.sound marked.sound, ⟨?_, ?_⟩, ?_⟩
  · rw [live_eq]
    exact nodup_cons.mpr ⟨fresh, marked.distinct.1⟩
  · intro other member
    rw [isInode]
    rw [live_eq] at member
    rcases mem_cons.mp member with rfl | member
    · exact takes.isInode
    · exact marked.distinct.2 other member
  · intro other member
    rw [used]
    rw [live_eq] at member
    rcases mem_cons.mp member with rfl | member
    · rw [if_pos ⟨rfl, rfl⟩]
    · rw [marked.used other member, ite_self]

/-- The bit that is cleared belongs to the next inode. -/
theorem Marked.free (marked : Marked before) (freed : before.fs.iallocFreeInode number isDir = some after.fs)
    (live_eq : after.live = before.live.erase number) (next_free : number + 1 ∉ before.live)
    (inside : number / before.fs.inodesPer < before.fs.groupCount) : Marked after := by
  have several := marked.sound.several
  have rewrites := marked.sound.iallocFreeInode_rewrites freed
  have used := rewrites.inodeUsed_eq marked.sound (mod_lt _ (by omega))
  have kept : ∀ other ∈ after.live, other ∈ before.live := by
    intro other member
    rw [live_eq] at member
    exact mem_of_mem_erase member
  refine ⟨rewrites.sound marked.sound, ⟨?_, ?_⟩, ?_⟩
  · rw [live_eq]
    exact marked.distinct.1.erase number
  · intro other member
    rw [IsInode, rewrites.inodesCount_eq]
    exact marked.distinct.2 other (kept other member)
  · intro other member
    have isInode := marked.distinct.2 other (kept other member)
    rw [used, if_neg, marked.used other (kept other member)]
    rintro ⟨block, index⟩
    have group := marked.sound.apart _ _ (marked.sound.group_lt isInode) inside block
    have same : other - 1 = number := by
      rw [<- div_add_mod (other - 1) before.fs.inodesPer, group, index, div_add_mod]
    have positive := isInode.1
    exact next_free (by rw [<- same, Nat.sub_add_cancel positive]; exact kept other member)

theorem Marked.step {event : InodeEvent} (marked : Marked before) (taken : Guarded Admits Step before event after) :
    Marked after := by
  cases event with
  | alloc isDir =>
    rcases taken with ⟨vacant, fuel, number, returned, live_eq⟩
    rcases marked.sound.iallocAllocInode_spec vacant isDir with ⟨_, fresh, _, takes, returns⟩
    rw [returns fuel] at returned
    split at returned
    · cases returned
    · have same := Prod.mk.inj (some.inj (some.inj returned))
      have number_eq : fresh = number := Except.ok.inj same.1
      subst number_eq
      exact marked.alloc takes same.2.symm live_eq
  | free number isDir =>
    rcases taken with ⟨⟨_, next_free, inside⟩, freed, live_eq⟩
    exact marked.free freed live_eq next_free inside

/-- In every run of admitted operations the inodes in use are distinct inodes of the volume,
and an admitted allocation returns a new one.  But freeing it does not restore the
volume; and an allocation has no answer for a volume without free inodes. -/
theorem inode_numbers_in_every_run (marked : Marked start) (run : Reached (Guarded Admits Step) start state) :
    Distinct state /\ ∀ isDir,
      (Admits state (.alloc isDir) -> (∃ after, Step state (.alloc isDir) after /\ Distinct after) /\
        ¬ Restores state.fs isDir) /\
      (Refuses state.fs isDir ↔ ∃ number, IsInode state.fs number /\ state.fs.inodeUsed number = false) /\
      ((∀ bgid < state.fs.groupCount, state.fs.freeInodes bgid = 0) ->
        ∀ fuel, state.fs.iallocAllocInode isDir fuel = some none) := by
  have reached : Marked state := run.invariant marked (fun _ _ _ holds taken => holds.step taken)
  refine ⟨reached.distinct, ?_⟩
  intro isDir
  refine ⟨?_, reached.sound.refuses_iff isDir, ?_⟩
  · intro vacant
    refine ⟨?_, reached.sound.not_restores vacant isDir⟩
    rcases reached.sound.iallocAllocInode_spec vacant isDir with ⟨rounds, number, after, takes, returns⟩
    have returned := returns (rounds + 1)
    rw [if_neg (by omega)] at returned
    exact ⟨⟨after, number :: state.live⟩, ⟨rounds + 1, number, returned, rfl⟩, (reached.alloc takes rfl rfl).distinct⟩
  · intro none_free fuel
    exact reached.sound.iallocLoop_idle none_free fuel (Nat.zero_le _)

/-- A volume of two groups with eight inodes each, none of them in use. -/
def unused : Inodes :=
  { fs :=
      { superblock := smallSuperblock
        blockSize := 4096
        device :=
          { superblock := smallSuperblock
            groups := fun bgid => ⟨bgid + 1, 0, bgid + 3, 0, 4, 0, 8, 0, 0, 0, 8, 0⟩
            blocks := fun _ => 0#8 :: replicate 4095 0#8 } }
    live := [] }

theorem unused_marked : Marked unused := by
  refine ⟨⟨by decide, ?_, by decide, by decide, by decide, by decide, by decide, by decide, ?_⟩, ⟨nodup_nil, nofun⟩, nofun⟩
  · intro block
    change (0#8 :: replicate 4095 0#8).length = 4096
    rw [length_cons, length_replicate]
  · intro first second _ _ same
    have place (bgid : Nat) : unused.fs.inodeBitmapBlock bgid = bgid + 3 := joined_zero _
    rw [place, place] at same
    omega

theorem unused_writable : ∀ bgid < unused.fs.groupCount, Writable unused.fs bgid := by
  unfold Writable
  decide +kernel

/-- The number and the file system, if an allocation returns one in the first round. -/
def allocated (fs : Ext4FileSystem) : Option (Nat × Ext4FileSystem) :=
  match fs.iallocAllocInode false 1 with
  | some (some (.ok number, after)) => some (number, after)
  | _ => none

theorem Step.of_allocated {taken : Nat × Ext4FileSystem} (returned : allocated before.fs = some taken) :
    Step before (.alloc false) ⟨taken.2, taken.1 :: before.live⟩ := by
  refine ⟨1, taken.1, ?_, rfl⟩
  unfold allocated at returned
  split at returned
  · rename_i found
    cases returned
    exact found
  · cases returned

/-- Inode 1 is allocated and freed, and its bit stays set. -/
theorem inode_numbers_after_free : ∃ state after, Reached (Guarded Admits Step) unused state /\ state.live = [] /\
    state.fs.inodeUsed 1 = true /\ Step state (.alloc false) after /\ Distinct after /\ ¬ Restores state.fs false := by
  have evaluated : ((allocated unused.fs).bind (fun one => (one.2.iallocFreeInode 1 false).map (fun freed =>
      (one.1, decide (1 / one.2.inodesPer < one.2.groupCount /\ freed.inodeUsed 1 = true /\ Vacant freed))))) =
      some (1, true) := by
    decide +kernel
  rcases bind_eq_some_iff.mp evaluated with ⟨⟨first, oneFs⟩, one, evaluated⟩
  rcases map_eq_some_iff.mp evaluated with ⟨freedFs, freed, facts⟩
  simp only [Prod.mk.injEq, decide_eq_true_eq] at facts
  rcases facts with ⟨rfl, inside, used, vacant⟩
  have taken : Guarded Admits Step unused (.alloc false) ⟨oneFs, [1]⟩ :=
    ⟨show Vacant unused.fs by decide +kernel, Step.of_allocated one⟩
  have released : Guarded Admits Step ⟨oneFs, [1]⟩ (.free 1 false) ⟨freedFs, []⟩ :=
    ⟨⟨mem_cons_self, show 2 ∉ [1] by decide, inside⟩, freed, rfl⟩
  have run := (Reached.refl.next taken).next released
  rcases ((inode_numbers_in_every_run unused_marked run).2 false).1 vacant with ⟨⟨after, stepped, distinct⟩, lost⟩
  exact ⟨_, after, run, rfl, used, stepped, distinct, lost⟩

/-- Inodes 1 and 2 are allocated, inode 1 is freed, and then inode 2 is allocated again. -/
theorem inode_number_is_used_twice :
    ¬ ∀ start state : Inodes, Marked start -> (∀ bgid < start.fs.groupCount, Writable start.fs bgid) -> InodesAccounted start.fs ->
      Reached (Guarded FreesLive Step) start state ->
        Distinct state /\ ∀ isDir, Restores state.fs isDir /\ Refuses state.fs isDir := by
  intro claimed
  have evaluated : ((allocated unused.fs).bind (fun one => (allocated one.2).bind (fun two =>
      (two.2.iallocFreeInode 1 false).bind (fun freed => (allocated freed).map (fun again =>
        (one.1, two.1, again.1)))))) = some (1, 2, 2) := by
    decide +kernel
  rcases bind_eq_some_iff.mp evaluated with ⟨⟨first, oneFs⟩, one, evaluated⟩
  rcases bind_eq_some_iff.mp evaluated with ⟨⟨second, twoFs⟩, two, evaluated⟩
  rcases bind_eq_some_iff.mp evaluated with ⟨freedFs, freed, evaluated⟩
  rcases map_eq_some_iff.mp evaluated with ⟨⟨third, againFs⟩, again, numbers⟩
  cases numbers
  have allocated_one : Guarded FreesLive Step unused (.alloc false) ⟨oneFs, [1]⟩ := ⟨trivial, Step.of_allocated one⟩
  have allocated_two : Guarded FreesLive Step ⟨oneFs, [1]⟩ (.alloc false) ⟨twoFs, [2, 1]⟩ :=
    ⟨trivial, @Step.of_allocated ⟨oneFs, [1]⟩ _ two⟩
  have freed_one : Guarded FreesLive Step ⟨twoFs, [2, 1]⟩ (.free 1 false) ⟨freedFs, [2]⟩ :=
    ⟨mem_cons_of_mem 2 mem_cons_self, freed, rfl⟩
  have allocated_again : Guarded FreesLive Step ⟨freedFs, [2]⟩ (.alloc false) ⟨againFs, [2, 2]⟩ :=
    ⟨trivial, @Step.of_allocated ⟨freedFs, [2]⟩ _ again⟩
  have run := (((Reached.refl.next allocated_one).next allocated_two).next freed_one).next allocated_again
  have accounted : InodesAccounted unused.fs := ⟨by decide +kernel, by decide +kernel⟩
  have distinct : [2, 2].Nodup := (claimed unused _ unused_marked unused_writable accounted run).1.1
  exact absurd distinct (by decide)

end Inodes

end GCore.Fs.Ext4
