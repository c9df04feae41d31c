import GCore.Library.Run
import GCore.Fs.Ext4.BlockAlloc
import Mathlib.Algebra.Order.BigOperators.Group.Finset

namespace GCore.Fs.Ext4

open Library Function Option Finset Nat

/-!
# The accounts of free blocks

Every group has a bitmap and a counter, and the superblock has the sum of the counters.
An operation changes the bitmap and the counter of one group, and it writes the copy of
the superblock that was read at the mount, with its number of free blocks changed.  The
accounts stay right if that copy is up to date, that is, if the file system has been
mounted anew since the last change.

Two more conditions are needed.  A search begins in every group at the index of the
goal, so it may overlook free blocks below it.  A stretch of blocks is freed by clearing
the bits from its first index up to the number of its blocks; that is the stretch itself
if it begins at the second block of a group.
-/

namespace Ext4Superblock

/-- Both halves of a number of 64 bits are kept. -/
theorem freeBlocksCount_set (superBlock : Ext4Superblock) {freeBlocks : Nat} (small : freeBlocks < 2 ^ 64) :
    (superBlock.setFreeBlocksCount freeBlocks).freeBlocksCount = freeBlocks := by
  have high : freeBlocks / 2 ^ 32 % 2 ^ 32 = freeBlocks / 2 ^ 32 := mod_eq_of_lt (by omega)
  have low : freeBlocks % 2 ^ 32 < 2 ^ 32 := mod_lt _ (by decide)
  change freeBlocks % 2 ^ 32 ||| freeBlocks / 2 ^ 32 % 2 ^ 32 * 2 ^ 32 = freeBlocks
  rw [high, Nat.mul_comm, Nat.or_comm, <- two_pow_add_eq_or_of_lt low, div_add_mod]

end Ext4Superblock

namespace Ext4BlockGroup

theorem getFreeBlocksCount_set (group : Ext4BlockGroup) {cnt : Nat} (small : cnt < 2 ^ 16) :
    (group.setFreeBlocksCount cnt).getFreeBlocksCount = cnt := by
  have high : cnt / 2 ^ 16 % 2 ^ 16 = 0 := by rw [div_eq_of_lt small, zero_mod]
  have low : cnt % 2 ^ 16 = cnt := mod_eq_of_lt small
  unfold setFreeBlocksCount getFreeBlocksCount
  rw [high, low]
  rfl

end Ext4BlockGroup

namespace Ext4FileSystem

section Accounts

variable (fs : Ext4FileSystem)

def perGroup : Nat := fs.superblock.blocksPerGroup

/-- Where the bitmap of a group is. -/
def bitmapBlock (bgid : Nat) : Nat := (fs.device.groups bgid).getBlockBitmapBlock fs.superblock.toGeometry

/-- The bit of a block in the bitmap of its group. -/
def used (bgid index : Nat) : Bool := bit (fs.device.blocks (fs.bitmapBlock bgid)) index

/-- The bit of a block of the volume. -/
def usedBlock (block : Nat) : Bool := fs.used (block / fs.perGroup) (block % fs.perGroup)

/-- The number of clear bits of a group. -/
def clearBits (bgid : Nat) : Nat := vacancies (fs.used bgid) fs.perGroup

/-- A volume whose blocks have the size of the blocks of the device.  Such a volume has no
boot block, and the bitmap of a group fits into a block of its own. -/
structure Sound : Prop where
  blockSize_eq : fs.blockSize = blockSz
  sizes : fs.superblock.blockSize = blockSz
  mounted : fs.device.superblock.toGeometry = fs.superblock.toGeometry
  noBoot : fs.superblock.firstDataBlock = 0
  perGroup_le : fs.perGroup <= 8 * blockSz
  sized : ∀ block, (fs.device.blocks block).length = blockSz
  apart : ∀ first second, first < fs.groupCount -> second < fs.groupCount ->
    fs.bitmapBlock first = fs.bitmapBlock second -> first = second
  dscCnt_ne : fs.dscCnt ≠ 0

/-- The counters agree with the bitmaps. -/
structure Accounted : Prop where
  groups : ∀ bgid < fs.groupCount, (fs.device.groups bgid).getFreeBlocksCount = fs.clearBits bgid
  total : fs.device.superblock.freeBlocksCount = (Finset.range fs.groupCount).sum fs.clearBits

/-- The copy of the superblock has the number of free blocks that is on the device. -/
def Current : Prop := fs.superblock.freeBlocksCount = fs.device.superblock.freeBlocksCount

/-- No block is free in any group. -/
def Full : Prop := ∀ bgid < fs.groupCount, ∀ index < fs.perGroup, fs.used bgid index = true

/-- Another bitmap and counter for a group, with another number in the superblock. -/
def changed (bgid : Nat) (bitmap : List (BitVec 8)) (counter freeBlocks : Nat) : Ext4FileSystem :=
  { fs with
    device :=
      { superblock := fs.superblock.setFreeBlocksCount freeBlocks
        groups := Function.update fs.device.groups bgid ((fs.device.groups bgid).setFreeBlocksCount counter)
        blocks := Function.update fs.device.blocks (fs.bitmapBlock bgid) bitmap } }

end Accounts

variable {fs : Ext4FileSystem} {bgid index counter freeBlocks : Nat} {bitmap : List (BitVec 8)}

/-! ## What a change does -/

theorem bitmapBlock_changed (other : Nat) : (fs.changed bgid bitmap counter freeBlocks).bitmapBlock other = fs.bitmapBlock other := by
  unfold bitmapBlock changed
  dsimp only
  by_cases same : other = bgid
  · subst same
    rw [update_self]
    rfl
  · rw [update_of_ne same]

variable {event : BlockEvent} {other idxInBg : Nat}

variable (accounted : Accounted fs) (sound : Sound fs)

include sound

theorem used_changed (inside : bgid < fs.groupCount) (below : other < fs.groupCount) :
    (fs.changed bgid bitmap counter freeBlocks).used other = if other = bgid then bit bitmap else fs.used other := by
  funext index
  unfold used
  rw [bitmapBlock_changed]
  change bit (update fs.device.blocks (fs.bitmapBlock bgid) bitmap (fs.bitmapBlock other)) index = _
  by_cases same : other = bgid
  · subst same
    rw [update_self, if_pos rfl]
  · have apart : fs.bitmapBlock other ≠ fs.bitmapBlock bgid := fun equal => same (sound.apart other bgid below inside equal)
    rw [update_of_ne apart, if_neg same]

theorem Sound.changed (sized : bitmap.length = blockSz) : Sound (fs.changed bgid bitmap counter freeBlocks) := by
  refine ⟨sound.blockSize_eq, sound.sizes, rfl, sound.noBoot, sound.perGroup_le, ?_, ?_, sound.dscCnt_ne⟩
  · intro block
    change (update fs.device.blocks (fs.bitmapBlock bgid) bitmap block).length = blockSz
    by_cases same : block = fs.bitmapBlock bgid
    · rw [same, update_self]
      exact sized
    · rw [update_of_ne same]
      exact sound.sized block
  · intro first second below inside equal
    rw [bitmapBlock_changed, bitmapBlock_changed] at equal
    exact sound.apart first second below inside equal

theorem Sound.perGroup_small : fs.perGroup < 2 ^ 32 := sound.perGroup_le.trans_lt (by decide)

theorem Sound.clearBits_small (bgid : Nat) : fs.clearBits bgid < 2 ^ 16 := by
  have bound : fs.clearBits bgid <= 8 * blockSz := le_trans (vacancies_le (fs.used bgid) fs.perGroup) sound.perGroup_le
  unfold blockSz at bound
  omega

include accounted in
/-- The accounts of a group and of the volume change by the same amount. -/
theorem Accounted.changed (inside : bgid < fs.groupCount)
    (counted : counter = vacancies (bit bitmap) fs.perGroup) (small : counter < 2 ^ 16) (few : freeBlocks < 2 ^ 64)
    (balanced : freeBlocks + fs.clearBits bgid = fs.device.superblock.freeBlocksCount + counter) :
    Accounted (fs.changed bgid bitmap counter freeBlocks) := by
  have clear : ∀ other < fs.groupCount, (fs.changed bgid bitmap counter freeBlocks).clearBits other =
      if other = bgid then counter else fs.clearBits other := by
    intro other below
    unfold clearBits
    rw [used_changed sound inside below]
    by_cases same : other = bgid
    · rw [if_pos same, if_pos same, counted]
      rfl
    · rw [if_neg same, if_neg same]
      rfl
  constructor
  · intro other below
    rw [clear other below]
    change (update fs.device.groups bgid _ other).getFreeBlocksCount = _
    by_cases same : other = bgid
    · rw [same, update_self, if_pos rfl, Ext4BlockGroup.getFreeBlocksCount_set _ small]
    · rw [update_of_ne same, if_neg same]
      exact accounted.groups other below
  · have member : bgid ∈ Finset.range fs.groupCount := mem_range.mpr inside
    have rest : ((Finset.range fs.groupCount).erase bgid).sum
        (fs.changed bgid bitmap counter freeBlocks).clearBits = ((Finset.range fs.groupCount).erase bgid).sum fs.clearBits := by
      apply sum_congr rfl
      intro other present
      rw [clear other (mem_range.mp (mem_of_mem_erase present)), if_neg (ne_of_mem_erase present)]
    change (fs.superblock.setFreeBlocksCount freeBlocks).freeBlocksCount = (Finset.range fs.groupCount).sum _
    rw [Ext4Superblock.freeBlocksCount_set _ few, <- add_sum_erase _ _ member, rest, clear bgid inside, if_pos rfl]
    have before : fs.device.superblock.freeBlocksCount =
        fs.clearBits bgid + ((Finset.range fs.groupCount).erase bgid).sum fs.clearBits :=
      accounted.total.trans (add_sum_erase _ _ member).symm
    omega

/-! ## Allocation -/

omit sound

/-- All three parts of the search together find the first clear bit from the goal on. -/
theorem searchBitmap_spec {blkInBg : Nat} (below : idxInBg < blkInBg) (room : blkInBg <= 8 * bitmap.length)
    (small : blkInBg < 2 ^ 32) :
    ∃ result, searchBitmap bitmap idxInBg blkInBg = some result /\
      FirstVacant (bit bitmap) idxInBg blkInBg result := by
  unfold searchBitmap
  rw [isBitClr_eq (by omega), bind_eq_bind, bind_some]
  cases goal : bit bitmap idxInBg with
  | false =>
    refine ⟨some idxInBg, rfl, le_rfl, below, goal, ?_⟩
    intro index above before
    omega
  | true =>
    have near := @scanBits_spec bitmap bitmap 0 (min ((idxInBg + 63) / 64 * 64) blkInBg - (idxInBg + 1)) (idxInBg + 1)
      rfl (by omega)
    rw [Nat.mul_zero, Nat.zero_add] at near
    rcases near with ⟨result, scanned, first⟩
    dsimp only
    rw [scanned, bind_eq_bind, bind_some]
    have passed : ∀ index, idxInBg <= index -> index < idxInBg + 1 -> bit bitmap index = true := by
      intro index above before
      rw [show index = idxInBg by omega, goal]
    cases result with
    | some tmpIdx =>
      exact ⟨some tmpIdx, rfl, (FirstVacant.prepend (by omega) passed first).extend (by omega)⟩
    | none =>
      -- the bits up to the next multiple of eight are among those that have been looked at
      apply bitFindClr_spec below.le small room
      intro index above before aligned
      by_cases here : index < idxInBg + 1
      · exact passed index above here
      · exact first index (by omega) (by omega)

section Search

variable (fs)

/-- The file system after the block has been taken. -/
def taken (bgid index : Nat) : Ext4FileSystem :=
  fs.changed bgid (putBit (fs.device.blocks (fs.bitmapBlock bgid)) index true)
    (((fs.device.groups bgid).getFreeBlocksCount + 2 ^ 64 - 1) % 2 ^ 64 % 2 ^ 32)
    ((fs.superblock.freeBlocksCount + 2 ^ 64 - 1) % 2 ^ 64)

end Search

variable (sound : Sound fs)

include sound

theorem Sound.bitmap_room (below : index < fs.perGroup) (block : Nat) :
    index < 8 * (fs.device.blocks block).length := by
  rw [sound.sized]
  exact below.trans_le sound.perGroup_le

theorem Sound.takeBlock_eq (writable : Writable fs bgid) (below : index < fs.perGroup) (inode : Ext4InodeRef) :
    ∃ inode', fs.takeBlock inode (fs.device.groups bgid) bgid (fs.bitmapBlock bgid)
      (fs.device.blocks (fs.bitmapBlock bgid)) index = some (fs.bgIdxToAddr index bgid, fs.taken bgid index, inode') := by
  unfold takeBlock updateFreeBlockCounts writeBlock syncSuperblock
  rw [bitSet_eq (sound.bitmap_room below _), bind_eq_bind, bind_some]
  dsimp only
  rw [syncBlockGroup_eq sound.dscCnt_ne writable, map_some]
  exact ⟨_, rfl⟩

/-- A group begins with index 0, since there is no boot block. -/
theorem Sound.firstInBgIndex_eq (bgid : Nat) : fs.addrToIdxBg (fs.getBlockOfBgid bgid) = 0 := by
  unfold addrToIdxBg getBlockOfBgid withoutBoot
  rw [sound.noBoot, if_neg (by simp), if_neg (by simp), Nat.zero_add, mul_mod_left, zero_mod]

theorem Sound.loadOffset_eq (blockId : Nat) :
    fs.loadOffset (blockId * fs.blockSize) = fs.device.blocks blockId := by
  unfold loadOffset
  rw [sound.blockSize_eq, Nat.mul_div_cancel _ (by decide)]

/-- One round of the loop. -/
theorem Sound.allocLoop_succ (inode : Ext4InodeRef) (count : Nat) {bgid : Nat} (idxInBg : Nat)
    (inside : bgid < fs.groupCount) :
    fs.allocLoop inode (count + 1) bgid idxInBg =
      if (fs.device.groups bgid).getFreeBlocksCount = 0 then
        fs.allocLoop inode count ((bgid + 1) % fs.groupCount) idxInBg
      else (searchBitmap (fs.device.blocks (fs.bitmapBlock bgid)) idxInBg fs.perGroup).bind (fun result =>
        match result with
        | some index => (fs.takeBlock inode (fs.device.groups bgid) bgid (fs.bitmapBlock bgid)
            (fs.device.blocks (fs.bitmapBlock bgid)) index).bind (fun outcome =>
              some (.ok (outcome.1, bgid), outcome.2.1, outcome.2.2))
        | none => fs.allocLoop inode count ((bgid + 1) % fs.groupCount) idxInBg) := by
  have few := fs.groupCount_lt
  have next : (bgid + 1) % 2 ^ 32 % fs.superblock.blockGroupCount = (bgid + 1) % fs.groupCount := by
    rw [mod_eq_of_lt (by omega : bgid + 1 < 2 ^ 32)]
    rfl
  have loaded : fs.loadNew bgid = some (fs.device.groups bgid) := if_neg sound.dscCnt_ne
  rw [allocLoop, loaded, bind_eq_bind, bind_some, next, sound.firstInBgIndex_eq]
  dsimp only
  rw [if_neg (Nat.not_lt_zero idxInBg), sound.loadOffset_eq]
  rfl

omit sound

/-- A block of a group is free and not in front of the index. -/
def Offers (fs : Ext4FileSystem) (idxInBg bgid : Nat) (index : Nat) : Prop :=
  idxInBg <= index /\ index < fs.perGroup /\ fs.used bgid index = false

/-- A search passes groups that offer no block. -/
def Passes (fs : Ext4FileSystem) (idxInBg bgid steps : Nat) : Prop :=
  ∀ step < steps, ∀ index, ¬ Offers fs idxInBg ((bgid + step) % fs.groupCount) index

/-- The loop has passed groups and takes a block of the next one, or it has passed `count` groups. -/
def Searched (fs : Ext4FileSystem) (inode : Ext4InodeRef) (idxInBg count bgid : Nat)
    (outcome : Option (Except Int (Nat × Nat) × Ext4FileSystem × Ext4InodeRef)) : Prop :=
  ∃ steps, Passes fs idxInBg bgid steps /\ (steps = count /\ outcome = some (.error ENOSPC, fs, inode) \/
    ∃ found index, found = (bgid + steps) % fs.groupCount /\ Offers fs idxInBg found index /\
      outcome = (fs.takeBlock inode (fs.device.groups found) found (fs.bitmapBlock found)
        (fs.device.blocks (fs.bitmapBlock found)) index).bind (fun outcome =>
          some (.ok (outcome.1, found), outcome.2.1, outcome.2.2)))

/-- A group without a free block behind the index is passed. -/
theorem Searched.pass {inode : Ext4InodeRef} {count : Nat}
    {outcome : Option (Except Int (Nat × Nat) × Ext4FileSystem × Ext4InodeRef)} (inside : bgid < fs.groupCount)
    (here : ∀ index, ¬ Offers fs idxInBg bgid index)
    (rest : Searched fs inode idxInBg count ((bgid + 1) % fs.groupCount) outcome) :
    Searched fs inode idxInBg (count + 1) bgid outcome := by
  have shift : ∀ step, ((bgid + 1) % fs.groupCount + step) % fs.groupCount = (bgid + (step + 1)) % fs.groupCount := by
    intro step
    rw [mod_add_mod, Nat.add_right_comm]
    rfl
  rcases rest with ⟨steps, passed, ends⟩
  refine ⟨steps + 1, fun step bound => ?_, ?_⟩
  · cases step with
    | zero =>
      rw [Nat.add_zero, mod_eq_of_lt inside]
      exact here
    | succ step => exact shift step ▸ passed step (by omega)
  · rw [<- shift]
    exact ends.imp (And.imp_left (congrArg (· + 1))) id

include sound in
theorem allocLoop_searched (accounted : Accounted fs) (inode : Ext4InodeRef)
    (count : Nat) {bgid : Nat} (inside : bgid < fs.groupCount) (below : idxInBg < fs.perGroup) :
    Searched fs inode idxInBg count bgid (fs.allocLoop inode count bgid idxInBg) := by
  induction count generalizing bgid with
  | zero => exact ⟨0, nofun, .inl ⟨rfl, rfl⟩⟩
  | succ count ih =>
    have rest := @ih ((bgid + 1) % fs.groupCount) (mod_lt _ (by omega))
    rw [sound.allocLoop_succ inode count idxInBg inside]
    by_cases empty : (fs.device.groups bgid).getFreeBlocksCount = 0
    · rw [if_pos empty]
      refine rest.pass inside ?_
      rintro index ⟨_, within, clear⟩
      rw [accounted.groups bgid inside] at empty
      rw [vacancies_eq_zero_iff.mp empty index within] at clear
      cases clear
    · have room : fs.perGroup <= 8 * (fs.device.blocks (fs.bitmapBlock bgid)).length := by
        rw [sound.sized]
        exact sound.perGroup_le
      rcases searchBitmap_spec below room sound.perGroup_small with ⟨result, searched, first⟩
      rw [if_neg empty, searched, bind_some]
      cases result with
      | none =>
        refine rest.pass inside fun index offers => Bool.false_ne_true (offers.2.2.symm.trans ?_)
        exact first index offers.1 offers.2.1
      | some index =>
        exact ⟨0, nofun, .inr ⟨bgid, index, (mod_eq_of_lt inside).symm, ⟨first.1, first.2.1, first.2.2.1⟩, rfl⟩⟩

include sound in
theorem Sound.total_small : (Finset.range fs.groupCount).sum fs.clearBits < 2 ^ 63 := by
  have bound := sum_le_card_nsmul (Finset.range fs.groupCount) fs.clearBits (2 ^ 16)
    (fun bgid _ => le_of_lt (sound.clearBits_small bgid))
  have few := fs.groupCount_lt
  rw [card_range] at bound
  change _ <= fs.groupCount * 2 ^ 16 at bound
  omega

theorem usedBlock_of (fs : Ext4FileSystem) (bgid : Nat) (below : index < fs.perGroup) :
    fs.usedBlock (fs.perGroup * bgid + index) = fs.used bgid index := by
  unfold usedBlock
  rw [mul_add_div (by omega), mul_add_mod, div_eq_of_lt below, mod_eq_of_lt below, Nat.add_zero]

include sound

theorem Sound.bgIdxToAddr_eq (index bgid : Nat) : fs.bgIdxToAddr index bgid = fs.perGroup * bgid + index := by
  unfold bgIdxToAddr
  rw [sound.noBoot, if_neg (not_not.mpr rfl)]
  rfl

theorem used_taken (inside : bgid < fs.groupCount) (below : index < fs.perGroup)
    (within : other < fs.groupCount) (place : Nat) :
    (fs.taken bgid index).used other place = (decide (other = bgid /\ place = index) || fs.used other place) := by
  have room := inside_of_lt (sound.bitmap_room below (fs.bitmapBlock bgid))
  unfold taken
  rw [used_changed sound inside within]
  by_cases same : other = bgid
  · rw [if_pos same, bit_putBit room, same]
    by_cases here : place = index
    · simp [here]
    · simp [here, used]
  · simp [same]

include accounted in
theorem Accounted.taken (current : Current fs)
    (inside : bgid < fs.groupCount) (below : index < fs.perGroup) (clear : fs.used bgid index = false) :
    Accounted (fs.taken bgid index) := by
  have room := inside_of_lt (sound.bitmap_room below (fs.bitmapBlock bgid))
  have fewer : fs.clearBits bgid =
      vacancies (bit (putBit (fs.device.blocks (fs.bitmapBlock bgid)) index true)) fs.perGroup + 1 :=
    vacancies_take below clear (fun other _ => bit_putBit room true)
  have small := sound.clearBits_small bgid
  have member : fs.clearBits bgid <= (Finset.range fs.groupCount).sum fs.clearBits :=
    single_le_sum (fun other _ => Nat.zero_le (fs.clearBits other)) (mem_range.mpr inside)
  have total := accounted.total
  have total_small := sound.total_small
  have counter_eq : ((fs.device.groups bgid).getFreeBlocksCount + 2 ^ 64 - 1) % 2 ^ 64 % 2 ^ 32 = fs.clearBits bgid - 1 := by
    rw [accounted.groups bgid inside]
    omega
  have free_eq : (fs.superblock.freeBlocksCount + 2 ^ 64 - 1) % 2 ^ 64 = fs.device.superblock.freeBlocksCount - 1 := by
    rw [current]
    omega
  exact accounted.changed sound inside (by omega) (by omega) (by omega) (by omega)

/-! ## Freeing -/

/-- Blocks of the volume, all of them allocated. -/
structure Freeable (fs : Ext4FileSystem) (start count : Nat) : Prop where
  positive : 0 < count
  inside : start + count <= fs.perGroup * fs.groupCount
  allocated : ∀ block, start <= block -> block < start + count -> fs.usedBlock block = true

variable {start count : Nat}

theorem Sound.volume_small : fs.perGroup * fs.groupCount < 2 ^ 63 := by
  have few := fs.groupCount_lt
  have bound := Nat.mul_le_mul_right fs.groupCount sound.perGroup_le
  unfold blockSz at bound
  omega

omit sound in
theorem perGroup_pos (fs : Ext4FileSystem) : 0 < fs.perGroup := fs.superblock.blocksPerGroup_pos

/-- Blocks of one group are freed in one round. -/
theorem Sound.rounds_eq (freeable : Freeable fs start count)
    (together : start % fs.perGroup + count <= fs.perGroup) :
    (start + count + 2 ^ 64 - 1) % 2 ^ 64 / fs.perGroup + 1 - start / fs.perGroup = 1 := by
  have positive := freeable.positive
  have bound := freeable.inside
  have small := sound.volume_small
  have last : (start + count + 2 ^ 64 - 1) % 2 ^ 64 = fs.perGroup * (start / fs.perGroup) + (start % fs.perGroup + (count - 1)) := by
    have split := div_add_mod start fs.perGroup
    omega
  have within : start % fs.perGroup + (count - 1) < fs.perGroup := by omega
  rw [last, mul_add_div fs.perGroup_pos, div_eq_of_lt within, Nat.add_zero, Nat.add_sub_cancel_left]

omit sound in
/-- The group of the first block of the stretch is one of the volume. -/
theorem Freeable.group_lt (freeable : Freeable fs start count) : start / fs.perGroup < fs.groupCount := by
  have positive := freeable.positive
  have bound := freeable.inside
  exact Nat.div_lt_of_lt_mul (by omega)

/-- The only round clears the bits from the index of the first block up to the number of
blocks, and it counts the blocks. -/
theorem Sound.ballocFreeBlocks_eq (writable : Writable fs (start / fs.perGroup)) (freeable : Freeable fs start count)
    (together : start % fs.perGroup + count <= fs.perGroup) (room : count < 8 * blockSz) (inode : Ext4InodeRef) :
    ∃ bitmap inode',
      fs.ballocFreeBlocks inode start count = some (fs.changed (start / fs.perGroup) bitmap
        (((fs.device.groups (start / fs.perGroup)).getFreeBlocksCount + count) % 2 ^ 64 % 2 ^ 32)
        ((fs.superblock.freeBlocksCount + count) % 2 ^ 64), inode') /\
      bitmap.length = blockSz /\
      ∀ index, bit bitmap index =
        (fs.used (start / fs.perGroup) index && !decide (start % fs.perGroup <= index /\ index <= count)) := by
  have bound := sound.perGroup_le
  have sized := sound.sized (fs.bitmapBlock (start / fs.perGroup))
  have small := sound.perGroup_small
  rcases @bitsFree_spec (fs.device.blocks (fs.bitmapBlock (start / fs.perGroup))) (start % fs.perGroup) count
    (by rw [sized]; exact fun _ => room) with ⟨bitmap, cleared, length_eq, bits⟩
  have enough : ¬(fs.blockSize * 8 + 2 ^ 64 - start % fs.perGroup) % 2 ^ 64 < count := by
    rw [sound.blockSize_eq]
    unfold blockSz at bound ⊢
    omega
  have loaded : fs.loadNew (start / fs.perGroup) = some (fs.device.groups (start / fs.perGroup)) :=
    if_neg sound.dscCnt_ne
  have rounds := sound.rounds_eq freeable together
  have inside := freeable.group_lt
  unfold perGroup at *
  refine ⟨bitmap, ?_⟩
  unfold ballocFreeBlocks
  dsimp only
  rw [rounds, freeLoop, loaded, bind_eq_bind, bind_some]
  dsimp only
  rw [if_neg enough, mod_eq_of_lt (by omega : start % fs.superblock.blocksPerGroup < 2 ^ 32),
    mod_eq_of_lt (by omega : count < 2 ^ 32)]
  have read : ext4BmapBitsFree (fs.readBlock ((fs.device.groups (start / fs.superblock.blocksPerGroup)).getBlockBitmapBlock
      fs.superblock.toGeometry)) (start % fs.superblock.blocksPerGroup) count = some bitmap := cleared
  rw [read, bind_eq_bind, bind_some]
  unfold writeBlock syncSuperblock
  rw [syncBlockGroup_eq sound.dscCnt_ne writable]
  exact ⟨_, rfl, length_eq.trans sized, bits⟩

/-- Those bits are the bits of the blocks, if the first block is the second of its group; or
if it is the first one, and the block behind the stretch is free already. -/
def Aligned (fs : Ext4FileSystem) (start count : Nat) : Prop :=
  start % fs.perGroup + count <= fs.perGroup /\ count < 8 * blockSz /\
    (start % fs.perGroup = 1 \/ start % fs.perGroup = 0 /\
      (count < fs.perGroup -> fs.used (start / fs.perGroup) count = false))

omit sound

/-- The stretch is cleared, and nothing else. -/
theorem Aligned.bits_eq (aligned : Aligned fs start count) (freed : ∀ index, bit bitmap index =
      (fs.used (start / fs.perGroup) index && !decide (start % fs.perGroup <= index /\ index <= count)))
    (below : index < fs.perGroup) :
    bit bitmap index = (fs.used (start / fs.perGroup) index &&
      !decide (start % fs.perGroup <= index /\ index < start % fs.perGroup + count)) := by
  rw [freed]
  rcases aligned.2.2 with second | ⟨_, behind⟩
  · congr 2
    exact decide_eq_decide.mpr (by omega)
  · by_cases last : index = count
    · rw [last, behind (last ▸ below), Bool.false_and, Bool.false_and]
    · congr 2
      exact decide_eq_decide.mpr (by omega)

/-- The block of an index lies in the stretch if the index does. -/
theorem mem_stretch_iff (together : start % fs.perGroup + count <= fs.perGroup) (below : index < fs.perGroup) :
    (start <= fs.perGroup * bgid + index /\ fs.perGroup * bgid + index < start + count) ↔
      bgid = start / fs.perGroup /\ start % fs.perGroup <= index /\ index < start % fs.perGroup + count := by
  have split := div_add_mod start fs.perGroup
  constructor
  · rintro ⟨above, before⟩
    have same : bgid = start / fs.perGroup := by
      rcases lt_trichotomy bgid (start / fs.perGroup) with less | equal | greater
      · have gap := Nat.mul_le_mul_left fs.perGroup less
        rw [mul_succ] at gap
        omega
      · exact equal
      · have gap := Nat.mul_le_mul_left fs.perGroup greater
        rw [mul_succ] at gap
        omega
    subst same
    omega
  · rintro ⟨rfl, above, before⟩
    omega

include accounted sound in
/-- What freeing an aligned stretch does. -/
theorem Accounted.ballocFreeBlocks (writable : Writable fs (start / fs.perGroup))
    (current : Current fs) (freeable : Freeable fs start count) (aligned : Aligned fs start count) (inode : Ext4InodeRef) :
    ∃ after inode', fs.ballocFreeBlocks inode start count = some (after, inode') /\
      Sound after /\ Accounted after /\
      ∀ block < fs.perGroup * fs.groupCount,
        after.usedBlock block = (fs.usedBlock block && !decide (start <= block /\ block < start + count)) := by
  rcases sound.ballocFreeBlocks_eq writable freeable aligned.1 aligned.2.1 inode with ⟨bitmap, inode', freed, sized, bits⟩
  have inside := freeable.group_lt
  have exact_bits := fun index => @Aligned.bits_eq fs index bitmap start count aligned bits
  have split := div_add_mod start fs.perGroup
  have together := aligned.1
  have more : vacancies (bit bitmap) fs.perGroup = fs.clearBits (start / fs.perGroup) + count := by
    apply vacancies_release together
    · intro index above before
      have allocated := freeable.allocated (fs.perGroup * (start / fs.perGroup) + index) (by omega) (by omega)
      rwa [usedBlock_of fs _ (by omega)] at allocated
    · exact fun index below => exact_bits index below
  have fewer := vacancies_le (bit bitmap) fs.perGroup
  have bound := sound.perGroup_le
  have total := accounted.total
  have total_small := sound.total_small
  unfold blockSz at bound
  have counter_eq : ((fs.device.groups (start / fs.perGroup)).getFreeBlocksCount + count) % 2 ^ 64 % 2 ^ 32 =
      fs.clearBits (start / fs.perGroup) + count := by
    rw [accounted.groups _ inside]
    omega
  have free_eq : (fs.superblock.freeBlocksCount + count) % 2 ^ 64 = fs.device.superblock.freeBlocksCount + count := by
    rw [current]
    omega
  rw [counter_eq, free_eq] at freed
  refine ⟨_, inode', freed, sound.changed sized,
    accounted.changed sound inside more.symm (by omega) (by omega) (by omega), ?_⟩
  intro block within
  have below := mod_lt block fs.perGroup_pos
  have group := Nat.div_lt_of_lt_mul within
  change (fs.changed _ bitmap _ _).used (block / fs.perGroup) (block % fs.perGroup) = _
  rw [used_changed sound inside group]
  have place := @mem_stretch_iff fs (block / fs.perGroup) (block % fs.perGroup) start count together below
  rw [div_add_mod] at place
  simp only [place]
  by_cases same : block / fs.perGroup = start / fs.perGroup
  · rw [if_pos same, exact_bits _ below, usedBlock]
    simp [same]
  · rw [if_neg same, usedBlock]
    simp [same]

/-! ## Runs -/

/-- A block is taken that was free, or there is no free block. -/
def Allocates (fs after : Ext4FileSystem) : Except Int Nat -> Prop
  | .ok block => block < fs.perGroup * fs.groupCount /\ fs.usedBlock block = false /\
      ∀ other < fs.perGroup * fs.groupCount,
        after.usedBlock other = (decide (other = block) || fs.usedBlock other)
  | .error code => code = ENOSPC /\ Full fs /\ after = fs

/-- The search begins in a group of the volume.  If some block is free, then the search comes to a
group that offers one and has a descriptor that can be written, and the copy of the superblock is up
to date. -/
def Searches (fs : Ext4FileSystem) (place : Nat × Nat) : Prop :=
  place.1 < fs.groupCount /\ (Full fs \/ Current fs /\ ∃ steps < fs.groupCount, Passes fs place.2 place.1 steps /\
    Writable fs ((place.1 + steps) % fs.groupCount) /\ ∃ index, Offers fs place.2 ((place.1 + steps) % fs.groupCount) index)

include accounted sound in
theorem Accounted.allocLoop {place : Nat × Nat}
    (searches : Searches fs place) (below : place.2 < fs.perGroup) (inode : Ext4InodeRef) :
    ∃ result after inode',
      fs.allocLoop inode fs.groupCount place.1 place.2 = some (result, after, inode') /\
      Sound after /\ Accounted after /\ Allocates fs after (result.map Prod.fst) := by
  rcases searches with ⟨inside, enough⟩
  rcases allocLoop_searched sound accounted inode fs.groupCount inside below with
    ⟨steps, passed, ⟨rfl, done⟩ | ⟨found, index, same, offers, done⟩⟩
  · refine ⟨_, fs, inode, done, sound, accounted, rfl, ?_, rfl⟩
    rcases enough with full | ⟨_, step, bound, _, _, index, offers⟩
    · exact full
    · exact absurd offers (passed step bound index)
  · have within : found < fs.groupCount := same ▸ mod_lt _ (by omega)
    rcases offers with ⟨above, indexed, clear⟩
    rcases enough with full | ⟨current, first, _, earlier, writable, other, offered⟩
    · rw [full found within index indexed] at clear
      cases clear
    · have equal : first = steps := by
        rcases lt_trichotomy first steps with before | equal | behind
        · exact absurd offered (passed first before other)
        · exact equal
        · exact absurd (same ▸ ⟨above, indexed, clear⟩) (earlier steps behind index)
      rw [equal, <- same] at writable
      rcases sound.takeBlock_eq writable indexed inode with ⟨inode', taken⟩
      rw [taken, bind_some] at done
      refine ⟨_, _, inode', done, sound.changed (by rw [length_putBit, sound.sized]),
        accounted.taken sound current within indexed clear, ?_⟩
      rw [sound.bgIdxToAddr_eq]
      refine ⟨?_, (usedBlock_of fs found indexed).trans clear, ?_⟩
      · have next := Nat.mul_le_mul_left fs.perGroup within
        rw [mul_succ] at next
        omega
      · intro other volume
        change (fs.taken found index).used (other / fs.perGroup) (other % fs.perGroup) = _
        rw [used_taken sound within indexed (Nat.div_lt_of_lt_mul volume)]
        have same : decide (other / fs.perGroup = found /\ other % fs.perGroup = index) =
            decide (other = fs.perGroup * found + index) := by
          apply decide_eq_decide.mpr
          constructor
          · rintro ⟨rfl, rfl⟩
            exact (div_add_mod other fs.perGroup).symm
          · rintro rfl
            rw [mul_add_div fs.perGroup_pos, mul_add_mod, div_eq_of_lt indexed, mod_eq_of_lt indexed]
            exact ⟨rfl, rfl⟩
        rw [same]
        rfl

theorem startOf_lt (fs : Ext4FileSystem) (goal : Option Nat) : (fs.startOf goal).2 < fs.perGroup := by
  cases goal with
  | none => exact fs.perGroup_pos
  | some goal => exact lt_of_le_of_lt (mod_le _ _) (mod_lt _ fs.perGroup_pos)

/-- The operations on blocks, and a new mount. -/
inductive BlockEvent where
  | allocBlock (inode : Ext4InodeRef) (goal : Option Nat)
  | allocBlockFrom (inode : Ext4InodeRef) (startBgid : Nat)
  | freeBlocks (inode : Ext4InodeRef) (start count : Nat)
  | mount

namespace BlockEvent

/-- The file system after the operation; a panic is `none`. -/
def exec (fs : Ext4FileSystem) : BlockEvent -> Option Ext4FileSystem
  | .allocBlock inode goal => (fs.ballocAllocBlock inode goal).map (fun outcome => outcome.2.1)
  | .allocBlockFrom inode startBgid => (fs.ballocAllocBlockFrom inode startBgid).map (fun outcome => outcome.2.1)
  | .freeBlocks inode start count => (fs.ballocFreeBlocks inode start count).map Prod.fst
  | .mount => some fs.openExt4rs

def Step (before : Ext4FileSystem) (event : BlockEvent) (after : Ext4FileSystem) : Prop := event.exec before = some after

/-- Only blocks that are allocated are freed. -/
def FreesAllocated (fs : Ext4FileSystem) : BlockEvent -> Prop
  | .freeBlocks _ start count => Freeable fs start count
  | _ => True

/-- Operations after which the accounts are right. -/
def Admits (fs : Ext4FileSystem) : BlockEvent -> Prop
  | .allocBlock _ goal => Searches fs (fs.startOf goal)
  | .allocBlockFrom _ startBgid => Searches fs (startBgid, 0)
  | .freeBlocks _ start count => Writable fs (start / fs.perGroup) /\ Current fs /\ Freeable fs start count /\ Aligned fs start count
  | .mount => True

/-- The operation returns, and it does to the bitmaps what it is for. -/
def Performed (fs after : Ext4FileSystem) : BlockEvent -> Prop
  | .allocBlock inode goal => ∃ result inode',
    fs.ballocAllocBlock inode goal = some (result, after, inode') /\ Allocates fs after result
  | .allocBlockFrom inode startBgid => ∃ result inode',
    fs.ballocAllocBlockFrom inode startBgid = some (result, after, inode') /\ Allocates fs after (result.map Prod.fst)
  | .freeBlocks inode start count => ∃ inode', fs.ballocFreeBlocks inode start count = some (after, inode') /\
      ∀ block < fs.perGroup * fs.groupCount,
        after.usedBlock block = (fs.usedBlock block && !decide (start <= block /\ block < start + count))
  | .mount => after = fs.openExt4rs

theorem exec_eq {after : Ext4FileSystem} (performed : Performed fs after event) : event.exec fs = some after := by
  cases event with
  | allocBlock inode goal | allocBlockFrom inode startBgid =>
    rcases performed with ⟨_, inode', done, _⟩
    rw [exec, done]
    rfl
  | freeBlocks inode start count =>
    rcases performed with ⟨inode', done, _⟩
    rw [exec, done]
    rfl
  | mount =>
    rw [performed]
    rfl

end BlockEvent

include sound in
/-- Mounting anew reads the same geometry. -/
theorem Sound.openExt4rs : Sound fs.openExt4rs := by
  rcases sound with ⟨blockSize_eq, sizes, mounted, noBoot, perGroup_le, sized, apart, dscCnt_ne⟩
  have size_eq : fs.openExt4rs.blockSize = blockSz := by
    change fs.device.superblock.toGeometry.blockSize = blockSz
    rw [mounted]
    exact sizes
  refine ⟨size_eq, size_eq, rfl, ?_, ?_, sized, ?_, ?_⟩
  · change fs.device.superblock.toGeometry.firstDataBlock = 0
    rw [mounted]
    exact noBoot
  · change fs.device.superblock.toGeometry.blocksPerGroup <= 8 * blockSz
    rw [mounted]
    exact perGroup_le
  · change ∀ first second, first < fs.device.superblock.toGeometry.blockGroupCount ->
      second < fs.device.superblock.toGeometry.blockGroupCount ->
      (fs.device.groups first).getBlockBitmapBlock fs.device.superblock.toGeometry =
        (fs.device.groups second).getBlockBitmapBlock fs.device.superblock.toGeometry -> first = second
    rw [mounted]
    exact apart
  · change fs.openExt4rs.blockSize / fs.device.superblock.toGeometry.descSize ≠ 0
    rw [size_eq, mounted, <- blockSize_eq]
    exact dscCnt_ne

include accounted sound in
theorem Accounted.openExt4rs : Accounted fs.openExt4rs := by
  have count_eq : fs.openExt4rs.groupCount = fs.groupCount := congrArg Geometry.blockGroupCount sound.mounted
  have clear_eq : fs.openExt4rs.clearBits = fs.clearBits := by
    funext bgid
    change vacancies (bit (fs.device.blocks ((fs.device.groups bgid).getBlockBitmapBlock
      fs.device.superblock.toGeometry))) fs.device.superblock.toGeometry.blocksPerGroup = _
    rw [sound.mounted]
    rfl
  constructor
  · rw [count_eq, clear_eq]
    exact accounted.groups
  · rw [count_eq, clear_eq]
    exact accounted.total

namespace BlockEvent

include accounted sound in
theorem performed (admitted : Admits fs event) :
    ∃ after, Performed fs after event /\ Sound after /\ Accounted after := by
  cases event with
  | allocBlock inode goal =>
    rcases accounted.allocLoop sound admitted (fs.startOf_lt goal) inode with
      ⟨result, after, inode', done, still, agree, allocates⟩
    refine ⟨after, ⟨result.map Prod.fst, inode', ?_, allocates⟩, still, agree⟩
    unfold ballocAllocBlock
    rw [show fs.superblock.blockGroupCount = fs.groupCount from rfl, done]
    rfl
  | allocBlockFrom inode startBgid =>
    rcases accounted.allocLoop sound admitted fs.perGroup_pos inode with
      ⟨result, after, inode', done, still, agree, allocates⟩
    exact ⟨after, ⟨result, inode', done, allocates⟩, still, agree⟩
  | freeBlocks inode start count =>
    rcases admitted with ⟨writable, current, freeable, aligned⟩
    rcases accounted.ballocFreeBlocks sound writable current freeable aligned inode with
      ⟨after, inode', done, still, agree, cleared⟩
    exact ⟨after, ⟨inode', done, cleared⟩, still, agree⟩
  | mount => exact ⟨fs.openExt4rs, rfl, sound.openExt4rs, accounted.openExt4rs sound⟩

/-- In every run of admitted operations the counters agree with the bitmaps, and the next
admitted operation does what it is for. -/
theorem accounts_agree_in_every_run {start fs : Ext4FileSystem} (sound : Sound start) (accounted : Accounted start)
    (run : Reached (Guarded Admits Step) start fs) :
    Accounted fs /\ ∀ event, Admits fs event -> ∃ after,
      event.exec fs = some after /\ Performed fs after event /\ Accounted after := by
  have kept : Sound fs /\ Accounted fs := by
    refine @Reached.invariant _ _ _ _ _ (fun fs => Sound fs /\ Accounted fs) run ⟨sound, accounted⟩ ?_
    intro before event after holds taken
    rcases performed holds.2 holds.1 taken.1 with ⟨reached, done, still, agree⟩
    have same : some after = some reached := taken.2.symm.trans (exec_eq done)
    rw [some.inj same]
    exact ⟨still, agree⟩
  refine ⟨kept.2, ?_⟩
  intro event admitted
  rcases performed kept.2 kept.1 admitted with ⟨after, done, _, agree⟩
  exact ⟨after, exec_eq done, done, agree⟩

/-- A volume of two groups with eight blocks each; four blocks of each group are free. -/
def twoGroups : Ext4FileSystem :=
  { superblock := smallSuperblock
    blockSize := 4096
    device :=
      { superblock := smallSuperblock
        groups := fun bgid => ⟨bgid + 1, 0, bgid + 3, 0, 4, 0, 8, 0, 0, 0, 8, 0⟩
        blocks := fun _ => 0x0F#8 :: List.replicate 4095 0#8 } }

theorem twoGroups_sound : Sound twoGroups := by
  refine ⟨rfl, rfl, rfl, rfl, by decide, ?_, ?_, by decide⟩
  · intro block
    change (0x0F#8 :: List.replicate 4095 0#8).length = 4096
    rw [List.length_cons, List.length_replicate]
  · intro first second _ _ same
    have place (bgid : Nat) : twoGroups.bitmapBlock bgid = bgid + 1 := joined_zero _
    rw [place, place] at same
    exact succ.inj same

theorem twoGroups_writable : ∀ bgid < twoGroups.groupCount, Writable twoGroups bgid := by
  unfold Writable
  decide +kernel

theorem twoGroups_accounted : Accounted twoGroups := by
  constructor
  · decide +kernel
  · decide +kernel

theorem accounts_agree_after_allocation_and_mount : ∃ fs, Reached (Guarded Admits Step) twoGroups fs /\
    Current fs /\ Accounted fs /\ ∀ event, Admits fs event -> ∃ after,
      event.exec fs = some after /\ Performed fs after event /\ Accounted after := by
  have searches : Admits twoGroups (.allocBlock ⟨12, 0⟩ none) :=
    ⟨by decide, .inr ⟨rfl, 0, by decide, nofun, twoGroups_writable _ (by decide), 5, by decide, by decide,
      by decide +kernel⟩⟩
  rcases performed twoGroups_accounted twoGroups_sound searches with ⟨after, done, _, _⟩
  have run : Reached (Guarded Admits Step) twoGroups after.openExt4rs :=
    @Reached.next _ _ _ _ _ _ .mount (@Reached.next _ _ _ _ _ _ _ .refl ⟨searches, exec_eq done⟩) ⟨trivial, rfl⟩
  exact ⟨_, run, rfl, accounts_agree_in_every_run twoGroups_sound twoGroups_accounted run⟩

/-- The second of two allocations writes the number of free blocks that was right after the
first one. -/
theorem accounts_disagree_after_two_allocations :
    ¬ ∀ start fs : Ext4FileSystem, Sound start -> (∀ bgid < start.groupCount, Writable start bgid) -> Current start -> Accounted start ->
      Reached (Guarded FreesAllocated Step) start fs -> Accounted fs := by
  intro claimed
  have evaluated : ((exec twoGroups (.allocBlock ⟨12, 0⟩ (some 4))).bind
      (fun fs => exec fs (.allocBlock ⟨12, 0⟩ (some 5)))).any (fun fs => decide
        (fs.device.superblock.freeBlocksCount ≠ (Finset.range fs.groupCount).sum fs.clearBits)) = true := by
    decide +kernel
  rcases (any_eq_true _ _).mp evaluated with ⟨fs, both, differs⟩
  rcases bind_eq_some_iff.mp both with ⟨middle, one, two⟩
  have first : Guarded FreesAllocated Step twoGroups (.allocBlock ⟨12, 0⟩ (some 4)) middle := ⟨trivial, one⟩
  have second : Guarded FreesAllocated Step middle (.allocBlock ⟨12, 0⟩ (some 5)) fs := ⟨trivial, two⟩
  have agree := claimed twoGroups fs twoGroups_sound twoGroups_writable rfl twoGroups_accounted
    ((Reached.refl.next first).next second)
  exact of_decide_eq_true differs agree.total

end BlockEvent

end Ext4FileSystem

end GCore.Fs.Ext4
