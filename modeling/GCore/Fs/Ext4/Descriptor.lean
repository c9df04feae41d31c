import GCore.Fs.Ext4.Volume
import GCore.Library.Bytes

namespace GCore.Fs.Ext4

open Library

/-!
# Group descriptors on the device

A descriptor has 64 bytes in memory, whatever size the volume gives it.  It is written as a
whole, over the bytes that follow a descriptor of 32 bytes, and a write that ends with its
block panics, although it fits.  A block of the volume is taken for a block of the device by
the writer, while the reader goes by bytes.
-/

namespace Ext4Superblock

section Descriptors

variable (superBlock : Ext4Superblock) (blockSize bgid : Nat) (device : Memory)

def dscCnt : Nat := blockSize / superBlock.descSize

def dscBlockId : Nat := superBlock.firstDataBlock + bgid / superBlock.dscCnt blockSize + 1

def dscOffset : Nat := bgid % superBlock.dscCnt blockSize * superBlock.descSize

/-- `Ext4BlockGroup::load_new`; bytes behind the buffer cannot be read. -/
def loadDescriptor : Option (List Byte) :=
  let block := superBlock.dscBlockId blockSize bgid * blockSize / blockSz
  let offset := superBlock.dscOffset blockSize bgid % blockSz
  if blockSz < offset + groupSize then none else some (device.load (block * blockSz + offset) groupSize)

/-- `sync_block_group_to_disk`; the buffer has the size of a block of the device. -/
def syncDescriptor (group : List Byte) : Option Memory :=
  let offset := superBlock.dscOffset blockSize bgid
  if blockSize <= offset + group.length \/ blockSz < offset + group.length then none
  else some (device.store (superBlock.dscBlockId blockSize bgid * blockSz + offset) group)

/-- Where the descriptor of a group is on the volume. -/
def dscPlace : Nat := superBlock.dscBlockId blockSize bgid * blockSize + superBlock.dscOffset blockSize bgid

/-- The descriptor is written, read back, and the descriptors of the other groups stay. -/
def RoundTrips (group : List Byte) : Prop :=
  ∃ after, superBlock.syncDescriptor blockSize bgid device group = some after /\
    (∃ loaded, superBlock.loadDescriptor blockSize bgid after = some loaded /\
      loaded.take superBlock.descSize = group.take superBlock.descSize) /\
    ∀ other < superBlock.blockGroupCount, other ≠ bgid -> ∀ index < superBlock.descSize,
      after (superBlock.dscPlace blockSize other + index) = device (superBlock.dscPlace blockSize other + index)

/-- The write ends inside the block, and what follows a short descriptor is not that of a
group or has the bytes already. -/
def Fits (group : List Byte) : Prop :=
  superBlock.dscOffset blockSize bgid + groupSize < blockSize /\
    (bgid + 1 < superBlock.blockGroupCount -> ∀ index, superBlock.descSize <= index -> index < groupSize ->
      group.getD index 0 = device (superBlock.dscPlace blockSize bgid + index))

end Descriptors

variable {superBlock : Ext4Superblock} {bgid : Nat} {device : Memory} {group : List Byte}

theorem dscPlace_eq (sized : superBlock.descSize = 32 \/ superBlock.descSize = 64) :
    superBlock.dscPlace blockSz bgid = (superBlock.firstDataBlock + 1) * blockSz + bgid * superBlock.descSize := by
  unfold dscPlace dscBlockId dscOffset dscCnt blockSz
  rcases sized with size | size <;> rw [size] <;> omega

/-- Both functions go to the place of the descriptor. -/
theorem syncDescriptor_eq (whole : group.length = groupSize)
    (inside : superBlock.dscOffset blockSz bgid + groupSize < blockSz) :
    superBlock.syncDescriptor blockSz bgid device group =
      some (device.store (superBlock.dscPlace blockSz bgid) group) := by
  simp only [syncDescriptor, whole]
  rw [if_neg (by omega)]
  rfl

theorem loadDescriptor_eq (inside : superBlock.dscOffset blockSz bgid + groupSize < blockSz) :
    superBlock.loadDescriptor blockSz bgid device = some (device.load (superBlock.dscPlace blockSz bgid) groupSize) := by
  have offset : superBlock.dscOffset blockSz bgid % blockSz = superBlock.dscOffset blockSz bgid :=
    Nat.mod_eq_of_lt (by omega)
  simp only [loadDescriptor, offset, Nat.mul_div_cancel _ (show 0 < blockSz by decide)]
  rw [if_neg (by omega)]
  rfl

/-- On a volume whose blocks are those of the device, a descriptor goes round exactly if it
fits. -/
theorem descriptor_round_trips_iff (sized : superBlock.descSize = 32 \/ superBlock.descSize = 64)
    (whole : group.length = groupSize) :
    superBlock.RoundTrips blockSz bgid device group ↔ superBlock.Fits blockSz bgid device group := by
  have place := fun other => @dscPlace_eq superBlock other sized
  constructor
  · rintro ⟨after, written, _, frame⟩
    have inside : superBlock.dscOffset blockSz bgid + groupSize < blockSz := by
      by_contra outside
      simp only [syncDescriptor, whole] at written
      rw [if_pos (by omega)] at written
      cases written
    refine ⟨inside, fun next index behind within => ?_⟩
    rw [syncDescriptor_eq whole inside, Option.some.injEq] at written
    have kept := frame (bgid + 1) next (by omega) (index - superBlock.descSize) (by unfold groupSize at within; omega)
    have same : superBlock.dscPlace blockSz (bgid + 1) + (index - superBlock.descSize) =
        superBlock.dscPlace blockSz bgid + index := by
      rcases sized with size | size <;> simp only [place, size] at * <;> omega
    rw [same, <- written, Memory.store_inside _ _ (by omega)] at kept
    exact kept
  · rintro ⟨inside, bytes⟩
    refine ⟨_, syncDescriptor_eq whole inside, ⟨_, loadDescriptor_eq inside, ?_⟩, ?_⟩
    · rw [<- whole, Memory.load_store_same]
    · intro other counted different index within
      by_cases next : other = bgid + 1 /\ superBlock.descSize < groupSize
      · rcases next with ⟨rfl, short⟩
        have same : superBlock.dscPlace blockSz (bgid + 1) + index =
            superBlock.dscPlace blockSz bgid + (superBlock.descSize + index) := by
          rcases sized with size | size <;> simp only [place, size] <;> omega
        have short : superBlock.descSize + index < groupSize := by
          unfold groupSize at short ⊢
          omega
        rw [same, Memory.store_inside _ _ (by omega)]
        exact bytes counted _ (Nat.le_add_right _ _) short
      · apply Memory.store_outside
        rw [whole]
        unfold groupSize at next ⊢
        rcases sized with size | size <;> simp only [place, size] at * <;> omega

theorem first_descriptor_round_trips :
    smallSuperblock.RoundTrips blockSz 0 (fun _ => 0) (List.replicate groupSize 1) := by
  refine (descriptor_round_trips_iff (.inr rfl) (List.length_replicate ..)).mpr ⟨by decide, ?_⟩
  intro _ index behind within
  exact absurd within (not_lt.mpr behind)

/-- Without the condition: the descriptor of the last group in a block cannot be written. -/
theorem last_descriptor_of_block_panics :
    ¬ ∀ (superBlock : Ext4Superblock) (bgid : Nat) (device : Memory) (group : List Byte),
      (superBlock.descSize = 32 \/ superBlock.descSize = 64) -> group.length = groupSize ->
      bgid < superBlock.blockGroupCount -> superBlock.RoundTrips blockSz bgid device group := by
  intro claim
  rcases claim { smallSuperblock with blocksCount := 512 } 63 (fun _ => 0) (List.replicate groupSize 1) (.inr rfl)
    (List.length_replicate ..) (by decide) with ⟨_, written, _⟩
  cases written

end Ext4Superblock

end GCore.Fs.Ext4
