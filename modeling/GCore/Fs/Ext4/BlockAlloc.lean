import GCore.Fs.Ext4.Bitmap
import GCore.Fs.Ext4.Volume

namespace GCore.Fs.Ext4

open Library Option

/-!
# Allocation of blocks

`balloc_alloc_block` and `balloc_alloc_block_from` run the same loop over the block
groups from different starts; `balloc_free_blocks` has a loop of its own.
-/

namespace Ext4FileSystem

section Addresses

variable (fs : Ext4FileSystem)

/-- A block without the boot block that volumes with small blocks have in front. -/
def withoutBoot (baddr : Nat) : Nat := if fs.superblock.firstDataBlock ≠ 0 /\ baddr ≠ 0 then baddr - 1 else baddr

def getBgidOfBlock (baddr : Nat) : Nat := fs.withoutBoot baddr / fs.superblock.blocksPerGroup % 2 ^ 32

def getBlockOfBgid (bgid : Nat) : Nat :=
  (if fs.superblock.firstDataBlock ≠ 0 then 1 else 0) + bgid * fs.superblock.blocksPerGroup

def addrToIdxBg (baddr : Nat) : Nat := fs.withoutBoot baddr % fs.superblock.blocksPerGroup % 2 ^ 32

def bgIdxToAddr (index bgid : Nat) : Nat :=
  fs.superblock.blocksPerGroup * bgid + if fs.superblock.firstDataBlock ≠ 0 then (index + 1) % 2 ^ 32 else index

end Addresses

section Allocation

variable (fs : Ext4FileSystem)

/-- One block less in the superblock, one more for the inode, one less in the group. -/
def updateFreeBlockCounts (inode : Ext4InodeRef) (group : Ext4BlockGroup) (bgid : Nat) :
    Option (Ext4FileSystem × Ext4InodeRef) :=
  let superBlock := fs.superblock.setFreeBlocksCount ((fs.superblock.freeBlocksCount + 2 ^ 64 - 1) % 2 ^ 64)
  let fs := fs.syncSuperblock superBlock
  let inode := inode.setBlocksCount (inode.blocksCount + fs.blockSize / fs.superblock.inodeSize)
  let fbCnt := (group.getFreeBlocksCount + 2 ^ 64 - 1) % 2 ^ 64
  (fs.syncBlockGroup bgid (group.setFreeBlocksCount (fbCnt % 2 ^ 32))).map (fun fs => (fs, inode))

/-- Set the bit of a block, and count it.  All three places where a clear bit may be found
go on like this. -/
def takeBlock (inode : Ext4InodeRef) (group : Ext4BlockGroup) (bgid bmpBlkAdr : Nat) (bitmap : List (BitVec 8))
    (index : Nat) : Option (Nat × Ext4FileSystem × Ext4InodeRef) := do
  let bitmap <- ext4BmapBitSet bitmap index
  let alloc := fs.bgIdxToAddr index bgid
  let (fs, inode) <- (fs.writeBlock bmpBlkAdr bitmap).updateFreeBlockCounts inode group bgid
  some (alloc, fs, inode)

/-- The goal, the bits up to the next multiple of 64, and then the rest of the bitmap. -/
def searchBitmap (bitmap : List (BitVec 8)) (idxInBg blkInBg : Nat) : Option (Option Nat) := do
  let clear <- ext4BmapIsBitClr bitmap idxInBg
  if clear then some (some idxInBg)
  else
    let endIdx := min ((idxInBg + 63) / 64 * 64) blkInBg
    match <- scanBits bitmap 0 (endIdx - (idxInBg + 1)) (idxInBg + 1) with
    | some tmpIdx => some (some tmpIdx)
    | none => ext4BmapBitFindClr bitmap idxInBg blkInBg

/-- The loop over the groups, with the block and the group that it was found in.  The index
is taken over from group to group. -/
def allocLoop (inode : Ext4InodeRef) :
    Nat -> Nat -> Nat -> Option (Except Int (Nat × Nat) × Ext4FileSystem × Ext4InodeRef)
  | 0, _, _ => some (.error ENOSPC, fs, inode)
  | count + 1, bgid, idxInBg => do
      let group <- fs.loadNew bgid
      if group.getFreeBlocksCount = 0 then
        allocLoop inode count ((bgid + 1) % 2 ^ 32 % fs.superblock.blockGroupCount) idxInBg
      else
        let firstInBgIndex := fs.addrToIdxBg (fs.getBlockOfBgid bgid)
        let idxInBg := if idxInBg < firstInBgIndex then firstInBgIndex else idxInBg
        let bmpBlkAdr := group.getBlockBitmapBlock fs.superblock.toGeometry
        let bitmap := fs.loadOffset (bmpBlkAdr * fs.blockSize)
        match <- searchBitmap bitmap idxInBg fs.superblock.blocksPerGroup with
        | some index => do
            let (alloc, fs, inode) <- fs.takeBlock inode group bgid bmpBlkAdr bitmap index
            some (.ok (alloc, bgid), fs, inode)
        | none => allocLoop inode count ((bgid + 1) % 2 ^ 32 % fs.superblock.blockGroupCount) idxInBg

/-- Where the search starts; without a goal that is the second group. -/
def startOf : Option Nat -> Nat × Nat
  | some goal => (fs.getBgidOfBlock goal, fs.addrToIdxBg goal)
  | none => (1, 0)

def ballocAllocBlock (inode : Ext4InodeRef) (goal : Option Nat) :
    Option (Except Int Nat × Ext4FileSystem × Ext4InodeRef) :=
  (fs.allocLoop inode fs.superblock.blockGroupCount (fs.startOf goal).1 (fs.startOf goal).2).map
    (fun outcome => (outcome.1.map Prod.fst, outcome.2))

/-- With the block, the group where the next search starts. -/
def ballocAllocBlockFrom (inode : Ext4InodeRef) (startBgid : Nat) :
    Option (Except Int (Nat × Nat) × Ext4FileSystem × Ext4InodeRef) :=
  fs.allocLoop inode fs.superblock.blockGroupCount startBgid 0

/-- The loop of `balloc_free_blocks`.  It goes round once for each group that the blocks
are in, but all rounds are on the group of the first block, and the end of the stretch
of bits is the number of blocks. -/
def freeLoop (bgid : Nat) : Nat -> Ext4FileSystem -> Ext4InodeRef -> Ext4Superblock -> Nat -> Nat ->
    Option (Ext4FileSystem × Ext4InodeRef)
  | 0, fs, inode, _, _, _ => some (fs, inode)
  | rounds + 1, fs, inode, superBlock, start, count => do
      let idxInBg := start % superBlock.blocksPerGroup
      let bg <- fs.loadNew bgid
      let blockBitmapBlock := bg.getBlockBitmapBlock superBlock.toGeometry
      let room := (fs.blockSize * 8 + 2 ^ 64 - idxInBg) % 2 ^ 64
      let freeCnt := if room < count then room else count
      let data <- ext4BmapBitsFree (fs.readBlock blockBitmapBlock) (idxInBg % 2 ^ 32) (freeCnt % 2 ^ 32)
      let fs := fs.writeBlock blockBitmapBlock data
      let superBlock := superBlock.setFreeBlocksCount ((superBlock.freeBlocksCount + freeCnt) % 2 ^ 64)
      let fs := fs.syncSuperblock superBlock
      let inode := inode.setBlocksCount
        ((inode.blocksCount + 2 ^ 64 - freeCnt * (fs.blockSize / fs.superblock.inodeSize) % 2 ^ 64) % 2 ^ 64)
      let bg := bg.setFreeBlocksCount ((bg.getFreeBlocksCount + freeCnt) % 2 ^ 64 % 2 ^ 32)
      let fs <- fs.syncBlockGroup bgid bg
      freeLoop bgid rounds fs inode superBlock ((start + freeCnt) % 2 ^ 64) (count - freeCnt)

def ballocFreeBlocks (inode : Ext4InodeRef) (start count : Nat) : Option (Ext4FileSystem × Ext4InodeRef) :=
  let bgFirst := start / fs.superblock.blocksPerGroup
  let bgLast := (start + count + 2 ^ 64 - 1) % 2 ^ 64 / fs.superblock.blocksPerGroup
  freeLoop bgFirst (bgLast + 1 - bgFirst) fs inode fs.superblock start count

end Allocation

section Frame

variable {fs after : Ext4FileSystem} {inode inode' : Ext4InodeRef}

theorem takeBlock_blockSize {group : Ext4BlockGroup} {bgid bmpBlkAdr index alloc : Nat} {bitmap : List (BitVec 8)}
    (taken : fs.takeBlock inode group bgid bmpBlkAdr bitmap index = some (alloc, after, inode')) :
    after.blockSize = fs.blockSize := by
  rcases bind_eq_some_iff.mp taken with ⟨_, _, counted⟩
  rcases bind_eq_some_iff.mp counted with ⟨⟨_, _⟩, updated, finished⟩
  rcases Option.map_eq_some_iff.mp updated with ⟨_, synced, pair⟩
  cases finished
  cases pair
  unfold syncBlockGroup at synced
  split at synced
  · cases synced
  · cases synced
    rfl

/-- The loop leaves the size of blocks alone, and it changes nothing if it finds no block. -/
theorem allocLoop_frame {count bgid idxInBg : Nat} {result : Except Int (Nat × Nat)}
    (done : fs.allocLoop inode count bgid idxInBg = some (result, after, inode')) :
    after.blockSize = fs.blockSize /\ ∀ code, result = .error code -> after = fs /\ inode' = inode := by
  induction count generalizing bgid idxInBg with
  | zero =>
    cases done
    exact ⟨rfl, fun _ _ => ⟨rfl, rfl⟩⟩
  | succ count ih =>
    rcases bind_eq_some_iff.mp done with ⟨_, _, rest⟩
    split at rest
    · exact ih rest
    · rcases bind_eq_some_iff.mp rest with ⟨found, _, rest⟩
      cases found with
      | none => exact ih rest
      | some index =>
        rcases bind_eq_some_iff.mp rest with ⟨⟨_, _⟩, taken, finished⟩
        cases finished
        exact ⟨takeBlock_blockSize taken, nofun⟩

theorem ballocAllocBlock_blockSize {goal : Option Nat} {result : Except Int Nat}
    (done : fs.ballocAllocBlock inode goal = some (result, after, inode')) : after.blockSize = fs.blockSize := by
  rcases Option.map_eq_some_iff.mp done with ⟨⟨_, _⟩, looped, same⟩
  cases same
  exact (allocLoop_frame looped).1

theorem ballocAllocBlock_error {goal : Option Nat} {code : Int}
    (done : fs.ballocAllocBlock inode goal = some (.error code, after, inode')) : after = fs /\ inode' = inode := by
  rcases Option.map_eq_some_iff.mp done with ⟨⟨found, _⟩, looped, same⟩
  rcases Prod.mk.inj same with ⟨result, rest⟩
  cases rest
  cases found with
  | ok pair => cases result
  | error code => exact (allocLoop_frame looped).2 code rfl

end Frame

end Ext4FileSystem

end GCore.Fs.Ext4
