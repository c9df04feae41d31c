import Mathlib.Algebra.Order.Ring.Nat

namespace GCore.Fs.Ext4

/-!
# An ext4 volume

The superblock, the descriptors of the block groups and the blocks with the bitmaps, as
far as the two allocators read and write them.  A mounted file system has a copy of the
superblock that was read when it was mounted.  All operations work on this copy, and
they write it back as a whole.

Group descriptors are written with their full size of 64 bytes.  Checksums are left
out, and the inode of the file is kept as the number of its blocks.
-/

/-- `BLOCK_SZ` of the board, the unit of the block device. -/
def blockSz : Nat := 4096

/-- `size_of::<Ext4BlockGroup>()` -/
def groupSize : Nat := 64

/-- `Errno::ENOSPC as isize`, which is not negated. -/
def ENOSPC : Int := 28

/-- What is fixed when the volume is made.  The code divides by four of the numbers. -/
structure Geometry where
  inodesCount : Nat
  blocksCount : Nat
  firstDataBlock : Nat
  logBlockSize : Nat
  blocksPerGroup : Nat
  inodesPerGroup : Nat
  inodeSize : Nat
  descSize : Nat
  blocksPerGroup_pos : 0 < blocksPerGroup
  inodesPerGroup_pos : 0 < inodesPerGroup
  inodeSize_pos : 0 < inodeSize
  descSize_pos : 0 < descSize

structure Ext4Superblock extends Geometry where
  freeBlocksCountLo : Nat
  freeBlocksCountHi : Nat
  freeInodesCount : Nat

namespace Geometry

variable (geometry : Geometry)

def blockSize : Nat := 1024 * 2 ^ geometry.logBlockSize

def blockGroupCount : Nat :=
  (geometry.blocksCount / geometry.blocksPerGroup +
    if geometry.blocksCount % geometry.blocksPerGroup = 0 then 0 else 1) % 2 ^ 32

/-- `desc_size()`; some functions read the field itself. -/
def descSizeAtLeast : Nat := if geometry.descSize < 32 then 32 else geometry.descSize

def lastGroup : Nat := (geometry.blockGroupCount + 2 ^ 32 - 1) % 2 ^ 32

def getInodesInGroupCnt (bgid : Nat) : Nat :=
  if bgid < geometry.lastGroup then geometry.inodesPerGroup
  else (geometry.inodesCount + 2 ^ 32 - geometry.lastGroup * geometry.inodesPerGroup % 2 ^ 32) % 2 ^ 32

end Geometry

namespace Ext4Superblock

variable (superBlock : Ext4Superblock)

def freeBlocksCount : Nat := superBlock.freeBlocksCountLo ||| superBlock.freeBlocksCountHi * 2 ^ 32

def setFreeBlocksCount (freeBlocks : Nat) : Ext4Superblock :=
  { superBlock with
    freeBlocksCountLo := freeBlocks % 2 ^ 32
    freeBlocksCountHi := freeBlocks / 2 ^ 32 % 2 ^ 32 }

def decreaseFreeInodesCount : Ext4Superblock :=
  { superBlock with freeInodesCount := (superBlock.freeInodesCount + 2 ^ 32 - 1) % 2 ^ 32 }

end Ext4Superblock

/-- The superblock of a volume of two groups of eight blocks. -/
def smallSuperblock : Ext4Superblock :=
  { inodesCount := 16, blocksCount := 16, firstDataBlock := 0, logBlockSize := 2, blocksPerGroup := 8,
    inodesPerGroup := 8, inodeSize := 256, descSize := 64, blocksPerGroup_pos := by decide,
    inodesPerGroup_pos := by decide, inodeSize_pos := by decide, descSize_pos := by decide,
    freeBlocksCountLo := 8, freeBlocksCountHi := 0, freeInodesCount := 16 }

structure Ext4BlockGroup where
  blockBitmapLo : Nat
  blockBitmapHi : Nat
  inodeBitmapLo : Nat
  inodeBitmapHi : Nat
  freeBlocksCountLo : Nat
  freeBlocksCountHi : Nat
  freeInodesCountLo : Nat
  freeInodesCountHi : Nat
  usedDirsCountLo : Nat
  usedDirsCountHi : Nat
  itableUnusedLo : Nat
  itableUnusedHi : Nat
  deriving DecidableEq, Repr

namespace Ext4BlockGroup

variable (group : Ext4BlockGroup) (geometry : Geometry)

def getBlockBitmapBlock : Nat :=
  if 32 < geometry.descSize then group.blockBitmapLo ||| group.blockBitmapHi * 2 ^ 32 else group.blockBitmapLo

def getInodeBitmapBlock : Nat :=
  if 32 < geometry.descSize then group.inodeBitmapLo ||| group.inodeBitmapHi * 2 ^ 32 else group.inodeBitmapLo

/-- The high part is moved by 32 bits, but `setFreeBlocksCount` cuts at 16. -/
def getFreeBlocksCount : Nat :=
  if group.freeBlocksCountHi = 0 then group.freeBlocksCountLo
  else group.freeBlocksCountLo ||| group.freeBlocksCountHi * 2 ^ 32

def setFreeBlocksCount (cnt : Nat) : Ext4BlockGroup :=
  { group with freeBlocksCountLo := cnt % 2 ^ 16, freeBlocksCountHi := cnt / 2 ^ 16 % 2 ^ 16 }

/-- The high part is moved by 32 bits and then cut off. -/
def getFreeInodesCount : Nat := group.freeInodesCountHi * 2 ^ 32 % 2 ^ 32 ||| group.freeInodesCountLo

def setFreeInodesCount (cnt : Nat) : Ext4BlockGroup :=
  if 32 < geometry.descSizeAtLeast then
    { group with freeInodesCountLo := cnt % 2 ^ 16, freeInodesCountHi := cnt / 2 ^ 16 % 2 ^ 16 }
  else { group with freeInodesCountLo := cnt % 2 ^ 16 }

def getUsedDirsCount : Nat :=
  if 32 < geometry.descSizeAtLeast then group.usedDirsCountLo ||| group.usedDirsCountHi * 2 ^ 32 % 2 ^ 32
  else group.usedDirsCountLo

def getItableUnused : Nat :=
  if 32 < geometry.descSizeAtLeast then group.itableUnusedLo ||| group.itableUnusedHi * 2 ^ 32 % 2 ^ 32
  else group.itableUnusedLo

def setItableUnused (cnt : Nat) : Ext4BlockGroup :=
  if 32 < geometry.descSizeAtLeast then
    { group with itableUnusedLo := cnt % 2 ^ 16, itableUnusedHi := cnt / 2 ^ 16 % 2 ^ 16 }
  else { group with itableUnusedLo := cnt % 2 ^ 16 }

/-- The function has the body of `set_itable_unused`: it leaves the number of directories
as it is. -/
def setUsedDirsCount (cnt : Nat) : Ext4BlockGroup := group.setItableUnused geometry cnt

/-- The counters of a group. -/
inductive Counter where
  | freeBlocks | freeInodes | usedDirs | itableUnused
  deriving DecidableEq

def getCounter : Counter -> Nat
  | .freeBlocks => group.getFreeBlocksCount
  | .freeInodes => group.getFreeInodesCount
  | .usedDirs => group.getUsedDirsCount geometry
  | .itableUnused => group.getItableUnused geometry

def setCounter (cnt : Nat) : Counter -> Ext4BlockGroup
  | .freeBlocks => group.setFreeBlocksCount cnt
  | .freeInodes => group.setFreeInodesCount geometry cnt
  | .usedDirs => group.setUsedDirsCount geometry cnt
  | .itableUnused => group.setItableUnused geometry cnt

/-- Setting a counter is read back and leaves the others alone exactly if the value has 16 bits;
for the directories, exactly if nothing had to change. -/
theorem counters_round_trip_iff (cnt : Nat) (counter : Counter) :
    (∀ other, (group.setCounter geometry cnt counter).getCounter geometry other =
        if other = counter then cnt else group.getCounter geometry other) ↔
      if counter = .usedDirs then group.getUsedDirsCount geometry = cnt /\ group.getItableUnused geometry = cnt % 2 ^ 16
      else cnt < 2 ^ 16 := by
  have all (p : Counter -> Prop) : (∀ other, p other) ↔
      p .freeBlocks /\ p .freeInodes /\ p .usedDirs /\ p .itableUnused :=
    ⟨fun every => ⟨every _, every _, every _, every _⟩, fun each other => by cases other <;> simp [each]⟩
  have joined : cnt % 2 ^ 16 ||| cnt / 2 ^ 16 % 2 ^ 16 * 2 ^ 32 =
      cnt % 2 ^ 16 + cnt / 2 ^ 16 % 2 ^ 16 * 2 ^ 32 := by
    rw [Nat.mul_comm, Nat.or_comm, <- Nat.two_pow_add_eq_or_of_lt (by omega), Nat.add_comm]
  have dropped (low high : Nat) : low ||| high * 2 ^ 32 % 2 ^ 32 = low := by rw [Nat.mul_mod_left, Nat.or_zero]
  rw [all]
  unfold setCounter getCounter getFreeBlocksCount getFreeInodesCount getUsedDirsCount getItableUnused
  simp only [dropped, Nat.or_comm _ (Ext4BlockGroup.freeInodesCountLo _), ite_self]
  cases counter with
  | freeBlocks =>
    simp only [setFreeBlocksCount, joined, reduceCtorEq, if_true, if_false, and_true]
    split <;> omega
  | freeInodes =>
    simp only [setFreeInodesCount]
    split <;> simp
  | usedDirs =>
    simp only [setUsedDirsCount, setItableUnused]
    split <;> simp [eq_comm]
  | itableUnused =>
    simp only [setItableUnused]
    split <;> simp

/-- 65536 free blocks become `2 ^ 32`, and a directory is counted elsewhere. -/
theorem counters_are_lost : let group : Ext4BlockGroup := ⟨0, 0, 0, 0, 0, 0, 0, 0, 0, 0, 0, 0⟩
    (group.setFreeBlocksCount 65536).getFreeBlocksCount = 2 ^ 32 /\
      (group.setUsedDirsCount smallSuperblock.toGeometry 1).getUsedDirsCount smallSuperblock.toGeometry = 0 := by
  decide

end Ext4BlockGroup

theorem joined_zero (low : Nat) : (if 32 < 64 then low ||| 0 * 2 ^ 32 else low) = low := by
  rw [if_pos (by decide), Nat.zero_mul, Nat.or_zero]

/-- What is on the device. -/
structure Volume where
  superblock : Ext4Superblock
  groups : Nat -> Ext4BlockGroup
  blocks : Nat -> List (BitVec 8)

structure Ext4FileSystem where
  superblock : Ext4Superblock
  blockSize : Nat
  device : Volume

/-- An inode with its number of blocks. -/
structure Ext4InodeRef where
  inodeNum : Nat
  blocksCount : Nat
  deriving DecidableEq, Repr

def Ext4InodeRef.setBlocksCount (inode : Ext4InodeRef) (blocks : Nat) : Ext4InodeRef :=
  { inode with blocksCount := blocks % 2 ^ 48 }

namespace Ext4FileSystem

variable (fs : Ext4FileSystem)

/-- `open_ext4rs`: the superblock is read again. -/
def openExt4rs : Ext4FileSystem :=
  { fs with superblock := fs.device.superblock, blockSize := fs.device.superblock.blockSize }

/-- The number of descriptors in a block. -/
def dscCnt : Nat := fs.blockSize / fs.superblock.descSize

/-- `Ext4BlockGroup::load_new`; a descriptor that is longer than a block is a division by
zero. -/
def loadNew (bgid : Nat) : Option Ext4BlockGroup :=
  if fs.dscCnt = 0 then none else some (fs.device.groups bgid)

/-- `sync_block_group_to_disk` panics where a descriptor reaches the end of its block. -/
def syncBlockGroup (bgid : Nat) (group : Ext4BlockGroup) : Option Ext4FileSystem :=
  if fs.dscCnt = 0 \/ fs.blockSize <= bgid % fs.dscCnt * fs.superblock.descSize + groupSize then none
  else some { fs with device := { fs.device with groups := Function.update fs.device.groups bgid group } }

/-- The whole superblock is written; the copy of the file system stays as it is. -/
def syncSuperblock (superBlock : Ext4Superblock) : Ext4FileSystem :=
  { fs with device := { fs.device with superblock := superBlock } }

def readBlock (blockId : Nat) : List (BitVec 8) := fs.device.blocks blockId

def writeBlock (blockId : Nat) (data : List (BitVec 8)) : Ext4FileSystem :=
  { fs with device := { fs.device with blocks := Function.update fs.device.blocks blockId data } }

/-- `Block::load_offset` -/
def loadOffset (offset : Nat) : List (BitVec 8) := fs.device.blocks (offset / blockSz)

/-- The number of groups. -/
def groupCount : Nat := fs.superblock.blockGroupCount

theorem groupCount_lt : fs.groupCount < 2 ^ 32 := Nat.mod_lt _ (by decide)

/-- The descriptor of a group has the size that is written, and does not end with its block. -/
def Writable (bgid : Nat) : Prop :=
  groupSize <= fs.superblock.descSize /\ bgid % fs.dscCnt * fs.superblock.descSize + groupSize < fs.blockSize

variable {fs} in
/-- The descriptor of a group is written, whatever else has been written before. -/
theorem syncBlockGroup_eq (dscCnt_ne : fs.dscCnt ≠ 0) {bgid : Nat} (writable : Writable fs bgid) (device : Volume)
    (group : Ext4BlockGroup) :
    syncBlockGroup { fs with device := device } bgid group =
      some { fs with device := { device with groups := Function.update device.groups bgid group } } :=
  if_neg (not_or.mpr ⟨dscCnt_ne, not_le.mpr writable.2⟩)

end Ext4FileSystem

end GCore.Fs.Ext4
