import GCore.Fs.Ext4.BlockAccounts
import GCore.Fs.Ext4.ExtentMap
import Mathlib.Tactic.IntervalCases

namespace GCore.Fs.Ext4

open Library ExtentNode Ext4FileSystem Function Option Ext4Extent

/-!
# Insertion into an extent tree

A new extent is put behind the extent that is found for its first block.  That is right
if nothing follows it in the leaf; otherwise the next entry is overwritten.  It may also
be merged with the extent that is found.  If the leaf is the root and full, then the tree
grows before the extent is added.  A full leaf in a block is never split, so the tree grows
again and again.

A lookup returns the block of the extent that is found, also for a block behind its end.
-/

namespace ExtentFile

variable {file : ExtentFile} {newex : Ext4Extent} {block lo hi : Nat} {leaf : ExtentNode}

/-! ## What is expected, and when -/

/-- The extents lie in front of the new one. -/
def Behind (leaf : ExtentNode) (newex : Ext4Extent) : Prop :=
  ∀ index < leaf.count,
    (leaf.entries index).firstBlock + (leaf.entries index).getActualLen <= newex.firstBlock

/-- Two extents of the greatest length that follow each other; their common length does not
fit into sixteen bits. -/
structure Overflows (ex newex : Ext4Extent) : Prop where
  written : ex.isUnwritten = newex.isUnwritten
  logical : ex.firstBlock + ex.getActualLen = newex.firstBlock
  physical : ex.getPblock + ex.getActualLen = newex.getPblock
  first : ex.getActualLen = extInitMaxLen
  second : newex.getActualLen = extInitMaxLen

/-- The test of the code: it also accepts two extents whose lengths add up to 2 ^ 16. -/
theorem canMerge_iff {ex : Ext4Extent} (stop : ex.firstBlock + ex.getActualLen < 2 ^ 32)
    (small : ex.blockCount < 2 ^ 16) (newSmall : newex.blockCount < 2 ^ 16) :
    canMerge ex newex = true ↔ Continues ex newex \/ Overflows ex newex := by
  have first_short : ex.getActualLen <= extInitMaxLen := (getActualLen_bounded small).trans (by split <;> simp)
  have second_short : newex.getActualLen <= extInitMaxLen := (getActualLen_bounded newSmall).trans (by split <;> simp)
  rw [canMerge_eq_true_iff, Nat.mod_eq_of_lt stop]
  constructor
  · rintro ⟨written, logical, _, physical⟩
    by_cases fits : ex.getActualLen + newex.getActualLen <= extInitMaxLen
    · exact .inl ⟨written, logical, physical, fits⟩
    · refine .inr ⟨written, logical, physical, ?_, ?_⟩ <;> unfold extInitMaxLen at * <;> omega
  · rintro (⟨written, logical, physical, fits⟩ | ⟨written, logical, physical, first, second⟩)
    · exact ⟨written, logical, (Nat.mod_le _ _).trans fits, physical⟩
    · refine ⟨written, logical, ?_, physical⟩
      rw [first, second]
      decide

/-- A new extent has blocks, and it ends below the greatest number of a block. -/
structure Valid (newex : Ext4Extent) : Prop where
  nonempty : 0 < newex.getActualLen
  count_lt : newex.blockCount < 2 ^ 16
  limit : newex.firstBlock + newex.blockCount < 2 ^ 32

theorem getActualLen_le (ext : Ext4Extent) : ext.getActualLen <= ext.blockCount := by
  unfold getActualLen
  split
  · exact Nat.sub_le _ _
  · exact le_rfl

variable {lblock index : Nat}

section Expected

variable (file newex)

/-- The call returns, and the blocks of the new extent are added to the map. -/
def Inserts : Prop :=
  ∃ calls after, insertExtent calls file newex = some (some (.ok (), after)) /\
    ∀ lblock < 2 ^ 32, after.mapped lblock =
      if newex.Covers lblock then some (newex.pblockAt lblock) else file.mapped lblock

def Unmapped : Prop := ∀ lblock, newex.Covers lblock -> file.mapped lblock = none

/-- All blocks of the new extent come to the same leaf. -/
def Together (block : Nat) (leaf : ExtentNode) : Prop :=
  ∀ lblock, newex.Covers lblock -> file.reach lblock = some (block, leaf)

/-- A block can be allocated for a new node. -/
def Grows : Prop :=
  ∃ number fs inode,
    file.fs.ballocAllocBlock file.inode none = some (.ok number, fs, inode)

/-- The leaf is empty; or the new extent continues the one in front of it; or it is behind
all extents of the leaf, and the leaf has room or is a root that can grow. -/
def Fits : Prop :=
  ∃ block leaf, file.reach newex.firstBlock = some (block, leaf) /\
    Together file newex block leaf /\
    (leaf.count = 0 \/ Continues (leaf.entries (leaf.slot newex.firstBlock)) newex \/
      (Behind leaf newex /\ ¬ Overflows (leaf.entries (leaf.slot newex.firstBlock)) newex /\
        (leaf.count < leaf.header.maxEntriesCount \/ file.root.header.depth = 0 /\ Grows file)))

/-- The leaf fills a block and has no room. -/
def Overfull : Prop :=
  0 < file.root.header.depth /\ ∃ block leaf,
    file.reach newex.firstBlock = some (block, leaf) /\ leaf.header.maxEntriesCount <= leaf.count

/-- The first entry of the leaf that is not in use has no blocks. -/
def Blank : Prop :=
  ∀ block leaf, file.reach newex.firstBlock = some (block, leaf) ->
    leaf.count < leaf.header.maxEntriesCount -> (leaf.entries leaf.count).getActualLen = 0

end Expected

theorem Valid.covers_first (valid : Valid newex) : newex.Covers newex.firstBlock :=
  ⟨le_rfl, Nat.lt_add_of_pos_right valid.nonempty⟩

theorem Valid.lt_of_covers (valid : Valid newex) (covers : newex.Covers lblock) : lblock < 2 ^ 32 := by
  have stop := covers.2
  have shorter := getActualLen_le newex
  have limit := valid.limit
  omega

/-- A call has come to a leaf of a well-formed tree. -/
structure Arrives (file : ExtentFile) (newex : Ext4Extent) (block : Nat) (leaf : ExtentNode) (lo hi : Nat) : Prop where
  formed : WellFormed file
  valid : Valid newex
  reaches : file.reach newex.firstBlock = some (block, leaf)
  reached : ReachedLeaf file newex.firstBlock block leaf lo hi

/-- The extent that is found, and where. -/
abbrev found (leaf : ExtentNode) (newex : Ext4Extent) : Ext4Extent := leaf.entries (leaf.slot newex.firstBlock)

abbrev place (block : Nat) (leaf : ExtentNode) (newex : Ext4Extent) : ExtentPathNode := answer newex.firstBlock block leaf

/-- The map of a file with the new extent in it. -/
def Adds (file after : ExtentFile) (newex : Ext4Extent) : Prop :=
  ∀ lblock < 2 ^ 32, after.mapped lblock =
    if newex.Covers lblock then some (newex.pblockAt lblock) else file.mapped lblock

/-! ## One call -/

/-- One call, with the leaf that the first block comes to. -/
theorem insertExtent_succ (reaches : file.reach newex.firstBlock = some (block, leaf)) (calls : Nat) :
    insertExtent (calls + 1) file newex =
      if leaf.count = 0 then
        some (some (.ok (), file.insertNewExtent file.root.header.depth (place block leaf newex) newex))
      else
        match file.tryMerge (place block leaf newex) newex with
        | some merged => some (some (.ok (), merged))
        | none =>
          if leaf.count < leaf.header.maxEntriesCount then
            some (some (.ok (), file.insertNewExtent file.root.header.depth (place block leaf newex) newex))
          else file.extGrowIndepth.bind (fun grown => insertExtent calls grown.2 newex) := by
  rcases findExtent_eq_some reaches with ⟨_, found, depth_eq, last, _⟩
  rw [insertExtent, found, bind_eq_bind, bind_some, last, bind_eq_bind, bind_some, depth_eq]
  rfl

variable (formed : WellFormed file)

include formed in
theorem WellFormed.deviceBlock_eq (block : Nat) : file.deviceBlock block = block := by
  rw [deviceBlock, formed.blockSize_eq, Nat.mul_div_cancel _ (by decide)]

variable (reached : ReachedLeaf file lblock block leaf lo hi)

include reached

theorem ReachedLeaf.canMerge_iff (below : index < leaf.count) (valid : Valid newex) :
    canMerge (leaf.entries index) newex = true ↔
      Continues (leaf.entries index) newex \/ Overflows (leaf.entries index) newex := by
  have limit := reached.leafIn.limit index below
  have shorter := getActualLen_le (leaf.entries index)
  exact ExtentFile.canMerge_iff (by omega) (reached.leafIn.count_lt index below) valid.count_lt

include formed in
theorem ReachedLeaf.count_lt : leaf.count <= 340 := by
  by_cases shallow : file.root.header.depth = 0
  · have few := formed.rootCount
    rw [(reached.root shallow).2]
    omega
  · have fills := (reached.deeper (Nat.pos_of_ne_zero shallow)).2.1
    have max_eq := fills.2.2
    have bound := fills.2.1
    omega

/-- Only the root can be empty. -/
theorem ReachedLeaf.shallow (empty : leaf.count = 0) : file.root.header.depth = 0 := by
  by_contra deep
  have positive := (reached.deeper (Nat.pos_of_ne_zero deep)).2.1.1
  omega

omit reached

namespace Arrives

variable (arrives : Arrives file newex block leaf lo hi)

include arrives

theorem sorted : leaf.Sorted := arrives.reached.leafIn.sorted

/-- The new extent is written behind the one that has been found. -/
theorem insertNewExtent_eq (occupied : leaf.count ≠ 0) :
    file.insertNewExtent file.root.header.depth (place block leaf newex) newex =
      file.edit block (leaf.addEntry (leaf.slot newex.firstBlock + 1) newex) := by
  unfold insertNewExtent edit
  by_cases shallow : file.root.header.depth = 0
  · rw [if_pos shallow, if_pos shallow, if_neg (show ¬ (place block leaf newex).header.entriesCount = 0 from occupied),
      (arrives.reached.root shallow).2]
    rfl
  · have deeper := arrives.reached.deeper (Nat.pos_of_ne_zero shallow)
    rw [if_neg shallow, if_neg shallow, updateNode, arrives.formed.deviceBlock_eq]
    change { file with nodes := update file.nodes block ((file.nodes block).addEntry _ newex) } = _
    rw [deeper.2.2]
    rfl

/-- The entry that has been found becomes longer, unless it is in the root. -/
theorem mergeExtent_eq (left right : Ext4Extent) :
    (file.mergeExtent (place block leaf newex) left right).2 =
      if file.root.header.depth = 0 then file
      else file.edit block (leaf.setEntry (leaf.slot newex.firstBlock) ((found leaf newex).extend right)) := by
  unfold mergeExtent edit
  by_cases shallow : file.root.header.depth = 0
  · have max_eq : leaf.header.maxEntriesCount = 4 := by
      rw [(arrives.reached.root shallow).2]
      exact arrives.formed.rootMax
    rw [if_pos shallow]
    change (if 4 < leaf.header.maxEntriesCount then _ else file) = file
    rw [max_eq, if_neg (by decide)]
  · have deeper := arrives.reached.deeper (Nat.pos_of_ne_zero shallow)
    have large : 4 < leaf.header.maxEntriesCount := by
      rw [deeper.2.1.2.2]
      decide
    rw [if_neg shallow, if_neg shallow]
    change (if 4 < leaf.header.maxEntriesCount then file.updateNode (file.deviceBlock block) _ else file) = _
    rw [if_pos large, updateNode, arrives.formed.deviceBlock_eq, deeper.2.2]
    rfl

/-- Merging with the extent that has been found changes its entry, in the root too. -/
theorem tryMerge_found (merges : canMerge (found leaf newex) newex = true) :
    file.tryMerge (place block leaf newex) newex =
      some (file.edit block (leaf.setEntry (leaf.slot newex.firstBlock) ((found leaf newex).extend newex))) := by
  have merged := arrives.mergeExtent_eq (found leaf newex) newex
  have unfolded : file.tryMerge (place block leaf newex) newex =
      some (if block = 0 then
        { (file.mergeExtent (place block leaf newex) (found leaf newex) newex).2 with
          root := (file.mergeExtent (place block leaf newex) (found leaf newex) newex).2.root.setEntry
            (leaf.slot newex.firstBlock) ((found leaf newex).extend newex) }
      else (file.mergeExtent (place block leaf newex) (found leaf newex) newex).2) :=
    if_pos merges
  rw [unfolded, merged]
  by_cases shallow : file.root.header.depth = 0
  · have root := arrives.reached.root shallow
    rw [if_pos root.1, if_pos shallow, edit, if_pos shallow, root.2]
  · rw [if_neg (arrives.reached.deeper (Nat.pos_of_ne_zero shallow)).1, if_neg shallow]

/-- Without the first attempt, a merge means that a block of data was taken for a node.  This
happens only if an extent follows the one that has been found. -/
theorem tryMerge_cases (occupied : leaf.count ≠ 0) (apart : canMerge (found leaf newex) newex = false) :
    file.tryMerge (place block leaf newex) newex = none \/
      leaf.slot newex.firstBlock < leaf.count - 1 /\
        ((found leaf newex).firstBlock + (found leaf newex).blockCount) % 2 ^ 32 < newex.firstBlock /\
        ∃ next, file.tryMerge (place block leaf newex) newex =
          some (if file.root.header.depth = 0 then file
            else file.edit block (leaf.setEntry (leaf.slot newex.firstBlock) ((found leaf newex).extend next))) := by
  have unfolded : file.tryMerge (place block leaf newex) newex =
      if leaf.slot newex.firstBlock < leaf.count - 1 /\
          ((found leaf newex).firstBlock + (found leaf newex).blockCount) % 2 ^ 32 < newex.firstBlock /\
          canMerge (file.getExtentFromNode (place block leaf newex) (leaf.slot newex.firstBlock + 1)) newex = true then
        some (file.mergeExtent (place block leaf newex) newex
          (file.getExtentFromNode (place block leaf newex) (leaf.slot newex.firstBlock + 1))).2
      else if 0 < leaf.slot newex.firstBlock /\
          (newex.firstBlock + newex.blockCount) % 2 ^ 32 < (found leaf newex).firstBlock /\
          canMerge (file.getExtentFromNode (place block leaf newex) (leaf.slot newex.firstBlock - 1)) newex = true then
        some (file.mergeExtent (place block leaf newex)
          (file.getExtentFromNode (place block leaf newex) (leaf.slot newex.firstBlock - 1)) newex).2
      else none :=
    if_neg (by rw [apart]; decide)
  rw [unfolded]
  split
  · rename_i misled
    rw [arrives.mergeExtent_eq]
    exact .inr ⟨misled.1, misled.2.1, _, rfl⟩
  · left
    rw [if_neg]
    rintro ⟨later, before, _⟩
    have start : (found leaf newex).firstBlock <= newex.firstBlock :=
      (slot_spec arrives.sorted.first_le (Nat.pos_of_ne_zero occupied) newex.firstBlock).1 later
    rw [Nat.mod_eq_of_lt arrives.valid.limit] at before
    omega

end Arrives

/-! ## Enough -/

/-- A change of the leaf that adds the extent to its map adds it to the map of the file. -/
theorem Arrives.inserts_of_edit (arrives : Arrives file newex block leaf lo hi) (calls : Nat) (after : ExtentNode)
    (together : Together file newex block leaf) (rank : after.header.depth = 0)
    (lookup : ∀ lblock, after.lookup lblock =
      if newex.Covers lblock then some (newex.pblockAt lblock) else leaf.lookup lblock)
    (done : insertExtent calls file newex = some (some (.ok (), file.edit block after))) : Inserts file newex := by
  refine ⟨calls, _, done, ?_⟩
  intro lblock small
  by_cases here : file.reach lblock = some (block, leaf)
  · rw [arrives.formed.mapped_edit arrives.reached rank here, lookup, mapped_of_reach here]
  · rw [arrives.formed.mapped_edit_of_ne arrives.reached rank small here,
      if_neg (fun covers => here (together lblock covers))]

/-- An entry behind all others, as it is written. -/
theorem lookup_addEntry (sorted : leaf.Sorted) (few : leaf.count <= 340) (behind : Behind leaf newex) (lblock : Nat) :
    (leaf.addEntry leaf.count newex).lookup lblock =
      if newex.Covers lblock then some (newex.pblockAt lblock) else leaf.lookup lblock := by
  apply sorted.lookup_append
  · change (leaf.count + 1) % 2 ^ 16 = leaf.count + 1
    omega
  · intro index _
    exact update_apply leaf.entries leaf.count newex index
  · exact behind

/-- Nothing follows the extent that is found, if all extents are in front of the new one. -/
theorem Behind.slot_eq (behind : Behind leaf newex) (sorted : leaf.Sorted) (occupied : leaf.count ≠ 0) :
    leaf.slot newex.firstBlock = leaf.count - 1 := by
  have positive := Nat.pos_of_ne_zero occupied
  have inside := slot_lt positive newex.firstBlock
  by_contra different
  have later := (slot_spec sorted.first_le positive newex.firstBlock).2 (leaf.count - 1) (by omega) (by omega)
  have stop := behind (leaf.count - 1) (by omega)
  omega

/-- The extents of the leaf are found, so the new extent does not cover them. -/
theorem ReachedLeaf.first_mapped (reached : ReachedLeaf file lblock block leaf lo hi) (below : index < leaf.count) :
    (leaf.entries index).firstBlock < 2 ^ 32 /\ file.reach (leaf.entries index).firstBlock = some (block, leaf) /\
      leaf.lookup (leaf.entries index).firstBlock =
        some ((leaf.entries index).pblockAt (leaf.entries index).firstBlock) := by
  have nonempty := reached.leafIn.nonempty index below
  have stop := reached.leafIn.below index below
  have limit := reached.leafIn.limit index below
  refine ⟨by omega, reached.range _ (reached.leafIn.above index below) (by omega), ?_⟩
  exact reached.leafIn.sorted.lookup_eq below ⟨le_rfl, by omega⟩

namespace Arrives

variable (arrives : Arrives file newex block leaf lo hi)

include arrives

theorem tryMerge_none (occupied : leaf.count ≠ 0) (behind : Behind leaf newex)
    (apart : canMerge (found leaf newex) newex = false) : file.tryMerge (place block leaf newex) newex = none := by
  rcases arrives.tryMerge_cases occupied apart with none_merged | ⟨later, _⟩
  · exact none_merged
  · rw [behind.slot_eq arrives.sorted occupied] at later
    omega

theorem not_covers_first (unmapped : Unmapped file newex) (below : index < leaf.count) : ¬ newex.Covers (leaf.entries index).firstBlock := by
  intro covers
  have first := arrives.reached.first_mapped below
  have none_found := unmapped _ covers
  rw [mapped_of_reach first.2.1, first.2.2] at none_found
  cases none_found

variable (together : Together file newex block leaf)

include together

/-- The first extent of a file. -/
theorem inserts_empty (empty : leaf.count = 0) : Inserts file newex := by
  have shallow := arrives.reached.shallow empty
  have first : leaf.slot newex.firstBlock = 0 := if_pos empty
  have behind : Behind leaf newex := fun index below => absurd below (by omega)
  refine arrives.inserts_of_edit 1 (leaf.addEntry leaf.count newex) together arrives.reached.rank ?_ ?_
  · exact lookup_addEntry arrives.sorted (by omega) behind
  · rw [insertExtent_succ arrives.reaches, if_pos empty, insertNewExtent, if_pos shallow,
      if_pos (show (place block leaf newex).header.entriesCount = 0 from empty), edit, if_pos shallow, empty,
      show (place block leaf newex).position = 0 from first, (arrives.reached.root shallow).2]

theorem inserts_continued (unmapped : Unmapped file newex) (occupied : leaf.count ≠ 0)
    (continues : Continues (found leaf newex) newex) : Inserts file newex := by
  have positive := Nat.pos_of_ne_zero occupied
  have sorted := arrives.sorted
  have inside := slot_lt positive newex.firstBlock
  refine arrives.inserts_of_edit 1 (leaf.setEntry (leaf.slot newex.firstBlock) ((found leaf newex).extend newex)) together
    arrives.reached.rank (sorted.lookup_extend inside continues ?_) ?_
  · intro index later below
    have start := (slot_spec sorted.first_le positive newex.firstBlock).2 index later below
    -- the next extent is mapped, so it does not begin in the new one
    by_contra overlap
    exact arrives.not_covers_first unmapped below ⟨start.le, by omega⟩
  · rw [insertExtent_succ arrives.reaches, if_neg occupied,
      arrives.tryMerge_found ((arrives.reached.canMerge_iff inside arrives.valid).mpr (.inl continues))]

theorem inserts_behind (occupied : leaf.count ≠ 0) (behind : Behind leaf newex)
    (apart : canMerge (found leaf newex) newex = false) (room : leaf.count < leaf.header.maxEntriesCount) :
    Inserts file newex := by
  refine arrives.inserts_of_edit 1 (leaf.addEntry leaf.count newex) together arrives.reached.rank ?_ ?_
  · exact lookup_addEntry arrives.sorted (arrives.reached.count_lt arrives.formed) behind
  · rw [insertExtent_succ arrives.reaches, if_neg occupied, arrives.tryMerge_none occupied behind apart]
    rw [if_pos room, arrives.insertNewExtent_eq occupied, behind.slot_eq arrives.sorted occupied,
      Nat.sub_add_cancel (Nat.pos_of_ne_zero occupied)]

end Arrives

/-! ## Growing -/

section Growth

variable (file) (number : Nat) (fs : Ext4FileSystem) (inode : Ext4InodeRef)

/-- The root in its new block. -/
def moved : ExtentNode :=
  { header := { file.root.header with maxEntriesCount := 340 }
    entries := fun pos => if pos < 4 then file.root.entries pos else .zero }

/-- The file whose root has moved into a block. -/
def grown : ExtentFile :=
  { fs := fs
    nodes := Function.update file.nodes number file.moved
    inode := inode
    root :=
      { header := { file.root.header with entriesCount := 1, depth := 1 }
        entries := Function.update file.root.entries 0 ((file.root.entries 0).storeLeaf number) } }

end Growth

variable {number : Nat} {fs : Ext4FileSystem} {inode : Ext4InodeRef}

include formed in
theorem WellFormed.extGrowIndepth_eq (shallow : file.root.header.depth = 0)
    (allocated : file.fs.ballocAllocBlock file.inode none = some (.ok number, fs, inode)) :
    file.extGrowIndepth = some (.ok (), file.grown number fs inode) := by
  have size_eq := ballocAllocBlock_blockSize allocated
  have place : number * fs.blockSize / blockSz = number := by
    rw [size_eq, formed.blockSize_eq, Nat.mul_div_cancel _ (by decide)]
  have space : (file.fs.blockSize - 12) / 12 % 2 ^ 16 = 340 := by
    rw [formed.blockSize_eq]
    decide
  unfold extGrowIndepth updateNode deviceBlock grown moved
  rw [allocated, map_some]
  dsimp only
  rw [place, space, shallow]
  rfl

include formed

theorem WellFormed.moved_entries (below : index < file.root.count) :
    file.moved.entries index = file.root.entries index :=
  if_pos (below.trans_le formed.rootCount)

theorem WellFormed.moved_slot (lblock : Nat) : file.moved.slot lblock = file.root.slot lblock := by
  apply slot_congr file.root file.moved rfl
  intro place below
  rw [formed.moved_entries below]

/-- The moved root has the same extents. -/
theorem WellFormed.moved_leafIn {low : Nat} (leafIn : LeafIn file.root 0 (2 ^ 32))
    (start : ∀ index < file.root.count, low <= (file.root.entries index).firstBlock) :
    LeafIn file.moved low (2 ^ 32) := by
  constructor
  case sorted =>
    intro index other less below
    rw [formed.moved_entries (less.trans below), formed.moved_entries below]
    exact leafIn.sorted index other less below
  all_goals
    intro index below
    rw [formed.moved_entries below]
  case above => exact start index below
  case nonempty => exact leafIn.nonempty index below
  case below => exact leafIn.below index below
  case count_lt => exact leafIn.count_lt index below
  case limit => exact leafIn.limit index below

omit formed

theorem leafLo_storeLeaf (ext : Ext4Extent) (small : number < 2 ^ 32) : (ext.storeLeaf number).leafLo = number := by
  unfold storeLeaf leafLo
  dsimp only
  omega

theorem grown_entry : (file.grown number fs inode).root.entries 0 = (file.root.entries 0).storeLeaf number := by
  unfold grown
  dsimp only
  rw [update_self]

theorem grown_node : (file.grown number fs inode).nodes number = file.moved := by
  unfold grown
  dsimp only
  rw [update_self]

/-- Every block comes to the moved root. -/
theorem reach_grown (small : number < 2 ^ 32) (lblock : Nat) :
    (file.grown number fs inode).reach lblock = some (number, file.moved) := by
  have index_eq : (file.grown number fs inode).root.binsearchIdx true lblock = some 0 := rfl
  change descend _ lblock 1 _ true 0 = _
  rw [descend, index_eq, bind_some, descend, grown_entry, leafLo_storeLeaf _ small, grown_node]

theorem WellFormed.reach_root (shallow : file.root.header.depth = 0) (lblock : Nat) :
    file.reach lblock = some (0, file.root) := by
  rw [reach, shallow, descend]

include formed

/-- Growing does not change the map. -/
theorem WellFormed.mapped_grown (shallow : file.root.header.depth = 0)
    (small : number < 2 ^ 32) (lblock : Nat) : (file.grown number fs inode).mapped lblock = file.mapped lblock := by
  rw [mapped_of_reach (reach_grown small lblock), mapped_of_reach (WellFormed.reach_root shallow lblock), lookup,
    lookup, formed.moved_slot]
  by_cases below : file.root.slot lblock < file.root.count
  · rw [formed.moved_entries below]
    rfl
  · rw [if_neg (fun inside => below inside.1), if_neg (fun inside => below inside.1)]

theorem WellFormed.grown (shallow : file.root.header.depth = 0)
    (occupied : file.root.count ≠ 0) (size_eq : fs.blockSize = file.fs.blockSize) (positive : number ≠ 0)
    (small : number < 2 ^ 32) : WellFormed (file.grown number fs inode) := by
  have tree := formed.tree
  rw [shallow] at tree
  have leafIn := tree.2
  have few := formed.rootCount
  refine ⟨size_eq.trans formed.blockSize_eq, formed.rootMax, show 1 <= 4 by decide, rfl, Nat.one_pos, ?_⟩
  intro index below
  have first : index = 0 := Nat.lt_one_iff.mp below
  subst first
  have limit := leafIn.limit 0 (Nat.pos_of_ne_zero occupied)
  have upper_eq : upper (file.grown number fs inode).root (2 ^ 32) 0 = 2 ^ 32 := rfl
  rw [grown_entry, upper_eq, leafLo_storeLeaf _ small, grown_node]
  refine ⟨Nat.zero_le _, ?_, le_rfl, positive, ⟨Nat.pos_of_ne_zero occupied, ?_, rfl⟩, shallow, ?_⟩
  · change (file.root.entries 0).firstBlock < 2 ^ 32
    omega
  · change file.root.count <= 340
    omega
  · apply formed.moved_leafIn leafIn
    intro other inside
    exact leafIn.sorted.first_le (Nat.zero_le other) inside

/-- A full root that the new extent cannot be merged into. -/
structure FullRoot (file : ExtentFile) (newex : Ext4Extent) : Prop where
  shallow : file.root.header.depth = 0
  full : file.root.header.maxEntriesCount <= file.root.count
  unmerged : file.tryMerge (place 0 file.root newex) newex = none

theorem WellFormed.occupied (full : file.root.header.maxEntriesCount <= file.root.count) :
    file.root.count ≠ 0 := by
  have max_eq := formed.rootMax
  omega

omit formed

/-- A full root grows, and the call goes on in the tree that has grown. -/
theorem FullRoot.insertExtent_succ (root : FullRoot file newex) (formed : WellFormed file) (calls : Nat) :
    insertExtent (calls + 1) file newex = file.extGrowIndepth.bind (fun grown => insertExtent calls grown.2 newex) := by
  rw [ExtentFile.insertExtent_succ (WellFormed.reach_root root.shallow _), if_neg (formed.occupied root.full), root.unmerged]
  rw [if_neg (not_lt.mpr root.full)]

theorem FullRoot.inserts_iff_grown (root : FullRoot file newex) (formed : WellFormed file) (small : number < 2 ^ 32)
    (allocated : file.fs.ballocAllocBlock file.inode none = some (.ok number, fs, inode)) :
    Inserts file newex ↔ Inserts (file.grown number fs inode) newex := by
  have called : ∀ calls, insertExtent (calls + 1) file newex =
      insertExtent calls (file.grown number fs inode) newex := by
    intro calls
    rw [root.insertExtent_succ formed, formed.extGrowIndepth_eq root.shallow allocated, bind_some]
  have mapped_eq : ∀ lblock, (file.grown number fs inode).mapped lblock = file.mapped lblock :=
    formed.mapped_grown root.shallow small
  unfold Inserts
  simp only [mapped_eq]
  constructor
  · rintro ⟨calls, after, returned, mapped⟩
    cases calls with
    | zero => cases returned
    | succ calls => exact ⟨calls, after, (called calls).symm.trans returned, mapped⟩
  · rintro ⟨calls, after, returned, mapped⟩
    exact ⟨calls + 1, after, (called calls).trans returned, mapped⟩

/-! ## Not enough -/

/-- Sixteen bits are too few for the common length, and nothing is left. -/
theorem Overflows.extend_len {ex : Ext4Extent} (overflows : Overflows ex newex) (small : ex.blockCount < 2 ^ 16) :
    (ex.extend newex).getActualLen = 0 := by
  have written : ex.isUnwritten = false := by
    apply Bool.eq_false_iff.mpr
    intro unwritten
    have long := overflows.first
    rw [getActualLen, if_pos unwritten] at long
    unfold extInitMaxLen at long
    omega
  unfold Ext4Extent.extend
  rw [overflows.first, overflows.second, written]
  rfl

namespace Arrives

variable (arrives : Arrives file newex block leaf lo hi) (unmapped : Unmapped file newex)

include arrives unmapped

/-- What a right map says of a changed leaf: all blocks of the extent come to it, and it has
the right map for all blocks that do. -/
theorem edit_right {after : ExtentNode} (adds : Adds file (file.edit block after) newex) (rank : after.header.depth = 0) :
    Together file newex block leaf /\ ∀ lblock < 2 ^ 32, file.reach lblock = some (block, leaf) ->
      after.lookup lblock = if newex.Covers lblock then some (newex.pblockAt lblock) else leaf.lookup lblock := by
  constructor
  · intro lblock covers
    by_contra elsewhere
    have small := arrives.valid.lt_of_covers covers
    have right := adds lblock small
    rw [arrives.formed.mapped_edit_of_ne arrives.reached rank small elsewhere, if_pos covers, unmapped lblock covers] at right
    cases right
  · intro lblock small here
    have right := adds lblock small
    rwa [arrives.formed.mapped_edit arrives.reached rank here, mapped_of_reach here] at right

/-- No extent of the leaf covers the first block of the new one. -/
theorem not_covered (below : index < leaf.count) : ¬ (leaf.entries index).Covers newex.firstBlock := by
  intro covers
  have none_found := unmapped _ arrives.valid.covers_first
  rw [mapped_of_reach arrives.reaches, arrives.sorted.lookup_eq below covers] at none_found
  cases none_found

/-- An entry that becomes longer must cover the first block of the new extent. -/
theorem extend_covers_first {next : Ext4Extent} {pos : Nat}
    (right : ∀ lblock < 2 ^ 32, file.reach lblock = some (block, leaf) ->
      (leaf.setEntry pos ((leaf.entries pos).extend next)).lookup lblock =
        if newex.Covers lblock then some (newex.pblockAt lblock) else leaf.lookup lblock) :
    ((leaf.entries pos).extend next).Covers newex.firstBlock := by
  have covers_first := arrives.valid.covers_first
  have first := right newex.firstBlock (arrives.valid.lt_of_covers covers_first) arrives.reaches
  rw [if_pos covers_first] at first
  rcases covered_of_lookup first with ⟨index, below, covers, _⟩
  change (update leaf.entries pos ((leaf.entries pos).extend next) index).Covers _ at covers
  by_cases here : index = pos
  · rwa [here, update_self] at covers
  · rw [update_of_ne here] at covers
    exact absurd covers (arrives.not_covered unmapped below)

variable (occupied : leaf.count ≠ 0)

include occupied

/-- A merge with the extent that was found is right only if the new one continues it. -/
theorem continues_of_merged (merges : canMerge (found leaf newex) newex = true)
    (adds : Adds file (file.edit block (leaf.setEntry (leaf.slot newex.firstBlock) ((found leaf newex).extend newex)))
      newex) : Together file newex block leaf /\ Continues (found leaf newex) newex := by
  have inside := slot_lt (Nat.pos_of_ne_zero occupied) newex.firstBlock
  have right := arrives.edit_right unmapped adds arrives.reached.rank
  refine ⟨right.1, ?_⟩
  rcases (arrives.reached.canMerge_iff inside arrives.valid).mp merges with continues | overflows
  · exact continues
  · have stop := (arrives.extend_covers_first unmapped right.2).2
    rw [overflows.extend_len (arrives.reached.leafIn.count_lt _ inside), extend_firstBlock] at stop
    have logical := overflows.logical
    omega

/-- A merge that a block of data has led to is never right: the found extent would also
cover blocks in front of the new one. -/
theorem misled (before : ((found leaf newex).firstBlock + (found leaf newex).blockCount) % 2 ^ 32 < newex.firstBlock)
    (next : Ext4Extent) : ¬ Adds file (if file.root.header.depth = 0 then file
      else file.edit block (leaf.setEntry (leaf.slot newex.firstBlock) ((found leaf newex).extend next))) newex := by
  intro adds
  have positive := Nat.pos_of_ne_zero occupied
  have sorted := arrives.sorted
  have reached := arrives.reached
  have covers_first := arrives.valid.covers_first
  have inside := slot_lt positive newex.firstBlock
  have limit := reached.leafIn.limit _ inside
  have shorter := getActualLen_le (found leaf newex)
  have above := reached.leafIn.above _ inside
  have within := reached.inside
  have small := arrives.valid.lt_of_covers covers_first
  by_cases shallow : file.root.header.depth = 0
  · have first := adds newex.firstBlock small
    rw [if_pos shallow, if_pos covers_first, unmapped _ covers_first] at first
    cases first
  · rw [if_neg shallow] at adds
    have right := (arrives.edit_right unmapped adds reached.rank).2
    have covers := arrives.extend_covers_first unmapped right
    have behind := (slot_spec sorted.first_le positive newex.firstBlock).2
    unfold found at *
    generalize leaf.slot newex.firstBlock = pos at *
    -- the block right behind the found extent, which nothing maps
    generalize gap_eq : (leaf.entries pos).firstBlock + (leaf.entries pos).getActualLen = gap at *
    have slot_eq : leaf.slot gap = pos :=
      sorted.slot_eq_of inside (by omega) (fun other later below => by
        have start := behind other later below
        omega)
    have after_slot : (leaf.setEntry pos ((leaf.entries pos).extend next)).slot gap = pos := by
      refine (slot_congr leaf (leaf.setEntry pos ((leaf.entries pos).extend next)) rfl ?_ gap).trans slot_eq
      intro place _
      change (update leaf.entries _ _ place).firstBlock = _
      by_cases here : place = pos
      · rw [here, update_self, extend_firstBlock]
      · rw [update_of_ne here]
    have unmapped_gap : leaf.lookup gap = none := by
      rw [lookup, slot_eq, if_neg]
      rintro ⟨_, covered⟩
      have stop := covered.2
      omega
    have gap_covers : ((leaf.entries pos).extend next).Covers gap := by
      have stop := covers.2
      rw [extend_firstBlock] at stop
      constructor
      · rw [extend_firstBlock]
        omega
      · rw [extend_firstBlock]
        omega
    have after_gap := right gap (by omega) (reached.range gap (by omega) (by omega))
    rw [if_neg (fun covered : newex.Covers gap => by have start := covered.1; omega), unmapped_gap, lookup, after_slot,
      if_pos] at after_gap
    · cases after_gap
    · refine ⟨inside, ?_⟩
      change (update leaf.entries pos _ pos).Covers gap
      rwa [update_self]

/-- The entry behind the found one is overwritten, so nothing may be there. -/
theorem behind_of_added (blank : (leaf.entries leaf.count).getActualLen = 0)
    (adds : Adds file (file.edit block (leaf.addEntry (leaf.slot newex.firstBlock + 1) newex)) newex) :
    Together file newex block leaf /\ Behind leaf newex := by
  have positive := Nat.pos_of_ne_zero occupied
  have sorted := arrives.sorted
  have reached := arrives.reached
  have inside := slot_lt positive newex.firstBlock
  have few := reached.count_lt arrives.formed
  have right := arrives.edit_right unmapped adds reached.rank
  have count_eq : (leaf.addEntry (leaf.slot newex.firstBlock + 1) newex).count = leaf.count + 1 := by
    change (leaf.count + 1) % 2 ^ 16 = _
    omega
  have entry_cases : ∀ index lblock,
      ((leaf.addEntry (leaf.slot newex.firstBlock + 1) newex).entries index).Covers lblock ->
        newex.Covers lblock \/ index ≠ leaf.slot newex.firstBlock + 1 /\ (leaf.entries index).Covers lblock := by
    intro index lblock covers
    change (update leaf.entries (leaf.slot newex.firstBlock + 1) newex index).Covers lblock at covers
    by_cases here : index = leaf.slot newex.firstBlock + 1
    · rw [here, update_self] at covers
      exact .inl covers
    · rw [update_of_ne here] at covers
      exact .inr ⟨here, covers⟩
  -- an old extent is still found, and not in the new one
  have still : ∀ index < leaf.count, ¬ newex.Covers (leaf.entries index).firstBlock /\
      (leaf.addEntry (leaf.slot newex.firstBlock + 1) newex).lookup (leaf.entries index).firstBlock =
        some ((leaf.entries index).pblockAt (leaf.entries index).firstBlock) := by
    intro index below
    have first := reached.first_mapped below
    have uncovered := arrives.not_covers_first unmapped below
    refine ⟨uncovered, ?_⟩
    rw [right.2 _ first.1 first.2.1, if_neg uncovered, first.2.2]
  refine ⟨right.1, ?_⟩
  have last : leaf.slot newex.firstBlock = leaf.count - 1 := by
    by_contra later
    have below : leaf.slot newex.firstBlock + 1 < leaf.count := by omega
    rcases covered_of_lookup (still _ below).2 with ⟨index, _, covers, _⟩
    rcases entry_cases index _ covers with new | ⟨different, old⟩
    · exact (still _ below).1 new
    · by_cases end_eq : index = leaf.count
      · have stop := old.2
        have start := old.1
        rw [end_eq, blank] at stop
        rw [end_eq] at start
        omega
      · have nonempty := reached.leafIn.nonempty _ below
        have one := sorted.slot_eq (show index < leaf.count by omega) old
        have other := sorted.slot_eq below ⟨le_rfl, Nat.lt_add_of_pos_right nonempty⟩
        exact different (one.symm.trans other)
  have start : (found leaf newex).firstBlock <= newex.firstBlock := by
    by_cases more : 0 < leaf.slot newex.firstBlock
    · exact (slot_spec sorted.first_le positive newex.firstBlock).1 more
    · -- the new entry is second but smaller, and the first one is not found any more
      by_contra smaller
      have zero : leaf.slot newex.firstBlock = 0 := by omega
      have lookup_eq := (still _ inside).2
      have after_slot : (leaf.addEntry (leaf.slot newex.firstBlock + 1) newex).slot (found leaf newex).firstBlock = 1 := by
        apply slot_eq_one (by omega)
        rw [zero]
        change (update leaf.entries 1 newex 1).firstBlock <= _
        rw [update_self]
        omega
      rw [lookup, after_slot, if_neg] at lookup_eq
      · cases lookup_eq
      · rintro ⟨_, covers⟩
        rcases entry_cases 1 _ covers with new | ⟨different, _⟩
        · exact (still _ inside).1 new
        · omega
  intro index below
  by_cases same : index = leaf.slot newex.firstBlock
  · rw [same]
    by_contra stop
    exact arrives.not_covered unmapped inside ⟨start, by omega⟩
  · have gap : _ <= (found leaf newex).firstBlock := sorted index (leaf.slot newex.firstBlock) (by omega) inside
    omega

omit occupied

/-! ## The map after an insertion -/

/-- A call that does not grow the tree is right only in the cases above. -/
theorem leaf_of_right {after : ExtentFile} {calls : Nat}
    (blank : leaf.count < leaf.header.maxEntriesCount -> (leaf.entries leaf.count).getActualLen = 0)
    (steady : leaf.count < leaf.header.maxEntriesCount \/ file.tryMerge (place block leaf newex) newex ≠ none)
    (done : insertExtent (calls + 1) file newex = some (some (.ok (), after))) (adds : Adds file after newex) :
    Together file newex block leaf /\ (leaf.count = 0 \/ Continues (found leaf newex) newex \/
      Behind leaf newex /\ canMerge (found leaf newex) newex = false /\ leaf.count < leaf.header.maxEntriesCount) := by
  rw [insertExtent_succ arrives.reaches] at done
  by_cases empty : leaf.count = 0
  · have root := arrives.reached.root (arrives.reached.shallow empty)
    refine ⟨fun lblock _ => ?_, .inl empty⟩
    rw [root.1, root.2, reach, arrives.reached.shallow empty, descend]
  · rw [if_neg empty] at done
    cases merges : canMerge (found leaf newex) newex with
    | true =>
      rw [arrives.tryMerge_found merges] at done
      cases done
      have continues := arrives.continues_of_merged unmapped empty merges adds
      exact ⟨continues.1, .inr (.inl continues.2)⟩
    | false =>
      rcases arrives.tryMerge_cases empty merges with none_merged | ⟨_, before, next, merged⟩
      · rw [none_merged] at done
        have room := steady.resolve_right (not_not.mpr none_merged)
        rw [if_pos room, arrives.insertNewExtent_eq empty] at done
        cases done
        have behind := arrives.behind_of_added unmapped empty (blank room) adds
        exact ⟨behind.1, .inr (.inr ⟨behind.2, rfl, room⟩)⟩
      · rw [merged] at done
        cases done
        exact absurd adds (arrives.misled unmapped empty before next)

end Arrives

/-- Without a block for a new node the call never returns. -/
theorem FullRoot.insertExtent_endless {code : Int} (root : FullRoot file newex) (formed : WellFormed file)
    (refused : file.fs.ballocAllocBlock file.inode none = some (.error code, fs, inode)) (calls : Nat) :
    insertExtent calls file newex = some none := by
  induction calls with
  | zero => rfl
  | succ calls ih =>
    have same := ballocAllocBlock_error refused
    rw [root.insertExtent_succ formed, extGrowIndepth, refused, map_some, same.1, same.2]
    exact ih

section Assumptions

variable (file)

/-- Block 0 is in use, and numbers of blocks have 32 bits. -/
def AllocatesBlocks : Prop :=
  ∀ number fs inode, file.fs.ballocAllocBlock file.inode none = some (.ok number, fs, inode) ->
    number ≠ 0 /\ number < 2 ^ 32

end Assumptions

include formed in
theorem WellFormed.arrives (valid : Valid newex) (reaches : file.reach newex.firstBlock = some (block, leaf)) :
    ∃ lo hi, Arrives file newex block leaf lo hi := by
  rcases formed.reached (valid.lt_of_covers valid.covers_first) reaches with ⟨lo, hi, reached⟩
  exact ⟨lo, hi, formed, valid, reaches, reached⟩

theorem FullRoot.found_moved (root : FullRoot file newex) (formed : WellFormed file) :
    found file.moved newex = found file.root newex := by
  unfold found
  rw [formed.moved_slot, formed.moved_entries (slot_lt (Nat.pos_of_ne_zero (formed.occupied root.full)) _)]

section FullRoots

variable (formed : WellFormed file) (valid : Valid newex) (allocates : AllocatesBlocks file) (root : FullRoot file newex)

include formed valid allocates root

/-- The tree that has grown, where the call comes to the moved root. -/
theorem FullRoot.arrives_grown
    (allocated : file.fs.ballocAllocBlock file.inode none = some (.ok number, fs, inode)) :
    ∃ lo hi, Arrives (file.grown number fs inode) newex number file.moved lo hi := by
  have known := allocates number fs inode allocated
  exact (formed.grown root.shallow (formed.occupied root.full) (ballocAllocBlock_blockSize allocated) known.1
    known.2).arrives valid (reach_grown known.2 newex.firstBlock)

/-- A full root that the new extent is behind. -/
theorem FullRoot.inserts (behind : Behind file.root newex) (apart : canMerge (found file.root newex) newex = false)
    (grows : Grows file) : Inserts file newex := by
  rcases grows with ⟨number, fs, inode, allocated⟩
  have known := allocates number fs inode allocated
  have few := formed.rootCount
  rw [root.inserts_iff_grown formed known.2 allocated]
  rcases root.arrives_grown formed valid allocates allocated with ⟨_, _, arrives⟩
  apply arrives.inserts_behind (fun lblock _ => reach_grown known.2 lblock) (formed.occupied root.full)
  · intro index below
    rw [formed.moved_entries below]
    exact behind index below
  · rw [root.found_moved formed]
    exact apart
  · change file.root.count < 340
    omega

end FullRoots

include formed in
/-- A file whose leaf is as described gets the extent. -/
theorem WellFormed.inserts_of_fits (valid : Valid newex) (unmapped : Unmapped file newex)
    (allocates : AllocatesBlocks file) (fits : Fits file newex) : Inserts file newex := by
  rcases fits with ⟨_, leaf, reaches, together, which⟩
  rcases formed.arrives valid reaches with ⟨_, _, arrives⟩
  by_cases empty : leaf.count = 0
  · exact arrives.inserts_empty together empty
  · by_cases continues : Continues (found leaf newex) newex
    · exact arrives.inserts_continued together unmapped empty continues
    · rcases (which.resolve_left empty).resolve_left continues with ⟨behind, short, room⟩
      have inside := slot_lt (Nat.pos_of_ne_zero empty) newex.firstBlock
      have apart : canMerge (found leaf newex) newex = false := by
        apply Bool.eq_false_iff.mpr
        intro merges
        exact ((arrives.reached.canMerge_iff inside valid).mp merges).elim continues short
      by_cases space : leaf.count < leaf.header.maxEntriesCount
      · exact arrives.inserts_behind together empty behind apart space
      · rcases room.resolve_left space with ⟨shallow, grows⟩
        rcases arrives.reached.root shallow with ⟨rfl, rfl⟩
        exact FullRoot.inserts formed valid allocates
          ⟨shallow, not_lt.mp space, arrives.tryMerge_none empty behind apart⟩ behind apart grows

/-- A new extent that is merged with the one that is found does not overflow. -/
theorem Arrives.not_overflows (arrives : Arrives file newex block leaf lo hi) (occupied : leaf.count ≠ 0)
    (apart : canMerge (found leaf newex) newex = false) : ¬ Overflows (found leaf newex) newex := by
  intro overflows
  have inside := slot_lt (Nat.pos_of_ne_zero occupied) newex.firstBlock
  rw [(arrives.reached.canMerge_iff inside arrives.valid).mpr (.inr overflows)] at apart
  cases apart

include formed

/-- A full root must be able to grow, and the new extent must be behind its extents. -/
theorem FullRoot.fits (valid : Valid newex) (allocates : AllocatesBlocks file)
    (root : FullRoot file newex) (unmapped : Unmapped file newex) (inserts : Inserts file newex) : Fits file newex := by
  have max_eq := formed.rootMax
  have few := formed.rootCount
  have full := root.full
  have occupied := formed.occupied full
  have reaches : ∀ lblock, file.reach lblock = some (0, file.root) := WellFormed.reach_root root.shallow
  cases allocated : file.fs.ballocAllocBlock file.inode none with
  | none =>
    rcases inserts with ⟨calls, after, returned, _⟩
    cases calls with
    | zero => cases returned
    | succ calls =>
      rw [root.insertExtent_succ formed, extGrowIndepth, allocated] at returned
      cases returned
  | some outcome =>
    rcases outcome with ⟨result, fs, inode⟩
    cases result with
    | error code =>
      rcases inserts with ⟨calls, after, returned, _⟩
      rw [root.insertExtent_endless formed allocated calls] at returned
      cases returned
    | ok number =>
      have known := allocates number fs inode allocated
      rw [root.inserts_iff_grown formed known.2 allocated] at inserts
      rcases root.arrives_grown formed valid allocates allocated with ⟨_, _, grown⟩
      rcases formed.arrives valid (reaches _) with ⟨_, _, arrives⟩
      have still_unmapped : Unmapped (file.grown number fs inode) newex := by
        intro lblock covers
        rw [formed.mapped_grown root.shallow known.2]
        exact unmapped lblock covers
      have count_eq : file.moved.count = 4 := by
        change file.root.count = 4
        omega
      have room : file.moved.count < file.moved.header.maxEntriesCount := by
        rw [count_eq]
        change 4 < 340
        decide
      have blank : (file.moved.entries file.moved.count).getActualLen = 0 := by
        rw [count_eq]
        rfl
      rcases inserts with ⟨calls, after, returned, mapped⟩
      cases calls with
      | zero => cases returned
      | succ calls =>
        have leaf := grown.leaf_of_right still_unmapped (fun _ => blank) (.inl room) returned mapped
        rw [root.found_moved formed] at leaf
        refine ⟨0, file.root, reaches _, fun lblock _ => reaches lblock, ?_⟩
        rcases leaf.2 with none_there | continues | ⟨behind, apart, _⟩
        · exact absurd none_there occupied
        · exact .inr (.inl continues)
        · refine .inr (.inr ⟨?_, arrives.not_overflows occupied apart, .inr ⟨root.shallow, number, fs, inode, allocated⟩⟩)
          intro index below
          have stop := behind index below
          rwa [formed.moved_entries below] at stop

/-- Nothing else is right, apart from full leaves in blocks. -/
theorem WellFormed.fits_of_inserts (valid : Valid newex) (unmapped : Unmapped file newex)
    (allocates : AllocatesBlocks file) (blank : Blank file newex) (room : ¬ Overfull file newex)
    (inserts : Inserts file newex) : Fits file newex := by
  rcases inserts with ⟨calls, after, returned, mapped⟩
  cases calls with
  | zero => cases returned
  | succ calls =>
    cases reaches : file.reach newex.firstBlock with
    | none =>
      rw [insertExtent, findExtent_eq_none reaches] at returned
      cases returned
    | some place =>
      rcases place with ⟨block, leaf⟩
      rcases formed.arrives valid reaches with ⟨_, _, arrives⟩
      by_cases steady : leaf.count < leaf.header.maxEntriesCount \/
          file.tryMerge (place block leaf newex) newex ≠ none
      · have right := arrives.leaf_of_right unmapped (blank block leaf reaches) steady returned mapped
        refine ⟨block, leaf, reaches, right.1, ?_⟩
        rcases right.2 with empty | continues | ⟨behind, apart, space⟩
        · exact .inl empty
        · exact .inr (.inl continues)
        · by_cases empty : leaf.count = 0
          · exact .inl empty
          · exact .inr (.inr ⟨behind, arrives.not_overflows empty apart, .inl space⟩)
      · rcases not_or.mp steady with ⟨full, unmerged⟩
        by_cases shallow : file.root.header.depth = 0
        · rcases arrives.reached.root shallow with ⟨rfl, rfl⟩
          exact FullRoot.fits formed valid allocates ⟨shallow, not_lt.mp full, not_not.mp unmerged⟩ unmapped
            ⟨calls + 1, after, returned, mapped⟩
        · exact absurd ⟨Nat.pos_of_ne_zero shallow, block, leaf, reaches, not_lt.mp full⟩ room

omit formed

/-- The map of a well-formed tree gets exactly the new extent, if the leaf is empty, if the
extent continues the one in front of it, or if it is behind all extents of a leaf with room
or of a root that can grow.  In all other cases the call does not return or the map is
wrong.  A full leaf in a block, where the tree grows again and again, is left open. -/
theorem extent_is_added_iff_it_fits (file : ExtentFile) (newex : Ext4Extent) (formed : WellFormed file)
    (valid : Valid newex) (unmapped : Unmapped file newex) (allocates : AllocatesBlocks file) :
    (Fits file newex -> Inserts file newex) /\
      (Blank file newex -> ¬ Overfull file newex -> Inserts file newex -> Fits file newex) :=
  ⟨formed.inserts_of_fits valid unmapped allocates, formed.fits_of_inserts valid unmapped allocates⟩

/-- A file with two extents, at its blocks 0 to 3 and 8 to 9. -/
def twoExtents : ExtentFile :=
  { fs := BlockEvent.twoGroups
    nodes := fun _ => ⟨⟨0, 0, 0⟩, fun _ => .zero⟩
    inode := ⟨12, 0⟩
    root :=
      { header := ⟨2, 4, 0⟩
        entries := fun pos => if pos = 0 then ⟨0, 4, 0, 100⟩ else if pos = 1 then ⟨8, 2, 0, 200⟩ else .zero } }

theorem twoExtents_formed : WellFormed twoExtents := by
  refine ⟨rfl, rfl, by decide, rfl, ?_, by decide, by decide, by decide, by decide, by decide⟩
  intro index other less below
  change other < 2 at below
  have first : index = 0 := by omega
  have second : other = 1 := by omega
  rw [first, second]
  decide

theorem twoExtents_allocates : AllocatesBlocks twoExtents := by
  intro number fs inode allocated
  have known : (twoExtents.fs.ballocAllocBlock twoExtents.inode none).all (fun outcome =>
      outcome.1.toOption.all (fun number => decide (number ≠ 0 /\ number < 2 ^ 32))) = true := by
    decide +kernel
  rw [allocated] at known
  exact of_decide_eq_true known

theorem extent_is_added_behind_two : Fits twoExtents ⟨20, 3, 0, 300⟩ /\ Inserts twoExtents ⟨20, 3, 0, 300⟩ := by
  have reaches : ∀ lblock, twoExtents.reach lblock = some (0, twoExtents.root) := WellFormed.reach_root rfl
  have fits : Fits twoExtents ⟨20, 3, 0, 300⟩ := by
    refine ⟨0, twoExtents.root, reaches _, fun lblock _ => reaches lblock, .inr (.inr ⟨?_, ?_, .inl (by decide)⟩)⟩
    · unfold Behind
      decide
    · intro overflows
      exact absurd overflows.second (by decide)
  have unmapped : Unmapped twoExtents ⟨20, 3, 0, 300⟩ := by
    rintro lblock ⟨start, stop⟩
    change lblock < 23 at stop
    interval_cases lblock
    · rfl
    · rfl
    · rfl
  exact ⟨fits, (extent_is_added_iff_it_fits twoExtents ⟨20, 3, 0, 300⟩ twoExtents_formed ⟨by decide, by decide, by decide⟩
    unmapped twoExtents_allocates).1 fits⟩

/-- The second extent is lost when a block between the two is added. -/
theorem extent_is_lost_by_insertion :
    ¬ ∀ file newex, WellFormed file -> Valid newex -> Unmapped file newex -> AllocatesBlocks file ->
      Inserts file newex := by
  intro claimed
  have valid : Valid ⟨5, 1, 0, 300⟩ := ⟨by decide, by decide, by decide⟩
  have unmapped : Unmapped twoExtents ⟨5, 1, 0, 300⟩ := by
    rintro lblock ⟨start, stop⟩
    change lblock < 6 at stop
    interval_cases lblock
    rfl
  have blank : Blank twoExtents ⟨5, 1, 0, 300⟩ := by
    intro block leaf reaches _
    cases reaches
    rfl
  have shallow : ¬ Overfull twoExtents ⟨5, 1, 0, 300⟩ := fun overfull => absurd overfull.1 (by decide)
  have inserts := claimed twoExtents ⟨5, 1, 0, 300⟩ twoExtents_formed valid unmapped twoExtents_allocates
  rcases twoExtents_formed.fits_of_inserts valid unmapped twoExtents_allocates blank shallow inserts with
    ⟨block, leaf, reaches, _, which⟩
  cases reaches
  rcases which with empty | continues | ⟨behind, _⟩
  · exact absurd empty (by decide)
  · exact absurd continues.logical (by decide)
  · exact absurd (behind 1 (by decide)) (by decide)

/-! ## Holes -/

/-- An extent in one of the leaves of a tree. -/
def HasExtent (nodes : Nat -> ExtentNode) (ext : Ext4Extent) : Nat -> ExtentNode -> Prop
  | 0, node => ∃ index, index < node.count /\ node.entries index = ext
  | depth + 1, node => ∃ index, index < node.count /\
      HasExtent nodes ext depth (nodes (node.entries index).leafLo)

variable {ext : Ext4Extent} {nodes : Nat -> ExtentNode} {lblock depth low high : Nat} {node : ExtentNode}

/-- A block that an extent covers is sent to the leaf with this extent. -/
theorem descend_of_covers (isRoot : Bool) (start : Nat) (tree : TreeIn nodes depth node low high)
    (member : HasExtent nodes ext depth node) (covers : ext.Covers lblock) : low <= ext.firstBlock /\ ext.firstBlock + ext.getActualLen <= high /\
      ∃ block leaf index,
        descend nodes lblock depth node isRoot start = some (block, leaf) /\ leaf.Sorted /\ index < leaf.count /\
        leaf.entries index = ext := by
  induction depth generalizing node isRoot start low high with
  | zero =>
    rcases member with ⟨index, below, same⟩
    subst same
    exact ⟨tree.2.above index below, tree.2.below index below, start, node, index, rfl, tree.2.sorted, below, rfl⟩
  | succ depth ih =>
    rcases member with ⟨pos, below, member⟩
    rcases tree.2.2 pos below with ⟨low_le, _, upper_le, _, _, child⟩
    rcases ih false _ child member with ⟨above, stop, block, leaf, index, reached, rest⟩
    refine ⟨low_le.trans above, stop.trans upper_le, block, leaf, index, ?_, rest⟩
    rw [descend, binsearchIdx_eq (fun index below => (tree.2.2 index below).2.1) below
      (above.trans covers.1) (covers.2.trans_le stop)]
    exact reached

/-- The physical block of a block that some extent covers. -/
theorem covered_block_is_found (formed : WellFormed file)
    (member : HasExtent file.nodes ext file.root.header.depth file.root) (covers : ext.Covers lblock) :
    file.getPblockIdx lblock = some ((ext.getPblock + (lblock - ext.firstBlock)) % 2 ^ 64) := by
  rcases descend_of_covers true 0 formed.tree member covers with ⟨_, _, _, leaf, index, reached, sorted, below, same⟩
  subst same
  rcases findExtent_eq_some reached with ⟨path, found, _, _, last⟩
  have distance : (leaf.entries index).pblockAt lblock =
      ((leaf.entries index).getPblock + (lblock - (leaf.entries index).firstBlock)) % 2 ^ 64 := by
    have start := covers.1
    unfold pblockAt
    omega
  rw [getPblockIdx, found, bind_some, last, map_some, answer, sorted.slot_eq below covers, distance]

theorem block_of_second_extent_is_found : twoExtents.getPblockIdx 9 = some 201 :=
  covered_block_is_found twoExtents_formed ⟨1, by decide, rfl⟩ (show Ext4Extent.Covers ⟨8, 2, 0, 200⟩ 9 by decide)

/-- No extent covers the block behind the first of two extents, and a physical block is
returned for it. -/
theorem hole_is_reported_as_block :
    WellFormed twoExtents /\ twoExtents.getPblockIdx 5 = some 105 /\
      ∀ ext, HasExtent twoExtents.nodes ext twoExtents.root.header.depth twoExtents.root -> ¬ ext.Covers 5 := by
  refine ⟨twoExtents_formed, rfl, ?_⟩
  rintro ext ⟨index, below, rfl⟩
  have every : ∀ index < 2, ¬ (twoExtents.root.entries index).Covers 5 := by decide
  exact every index below

/-! ## Merging -/

/-- Two extents are adjacent, and another one has the blocks of both. -/
structure Lossless (left right merged : Ext4Extent) : Prop where
  written : left.isUnwritten = right.isUnwritten
  logical : left.firstBlock + left.getActualLen = right.firstBlock
  physical : left.getPblock + left.getActualLen = right.getPblock
  firstBlock : merged.firstBlock = left.firstBlock
  pblock : merged.getPblock = left.getPblock
  kept : merged.isUnwritten = left.isUnwritten
  length : merged.getActualLen = left.getActualLen + right.getActualLen
  encoded : merged.blockCount < 2 ^ 16

/-- The left extent ends at a number of a block, and the count has a value for both lengths. -/
def Joinable (left right : Ext4Extent) : Prop :=
  left.firstBlock + left.getActualLen < 2 ^ 32 /\
    left.getActualLen + right.getActualLen <= if left.isUnwritten then extInitMaxLen - 1 else extInitMaxLen

theorem merging_is_lossless_iff (file : ExtentFile) (node : ExtentPathNode) {left right : Ext4Extent}
    (small : right.firstBlock < 2 ^ 32) :
    (canMerge left right = true -> Lossless left right (file.mergeExtent node left right).1) ↔
      (canMerge left right = true -> Joinable left right) := by
  refine forall_congr' fun merges => ?_
  rcases canMerge_eq_true_iff.mp merges with ⟨written, logical, _, physical⟩
  constructor
  · intro lossless
    refine ⟨lossless.logical ▸ small, ?_⟩
    rw [<- lossless.length, <- lossless.kept]
    exact getActualLen_bounded lossless.encoded
  · rintro ⟨stop, fits⟩
    rw [Nat.mod_eq_of_lt stop] at logical
    have short : left.getActualLen + right.getActualLen <= extInitMaxLen := fits.trans (by split <;> simp)
    have count_eq := extend_blockCount short
    have encoding : (left.extend right).isUnwritten = left.isUnwritten /\ (left.extend right).blockCount < 2 ^ 16 := by
      rw [isUnwritten, count_eq]
      cases unwritten : left.isUnwritten with
      | false =>
        rw [if_neg Bool.false_ne_true]
        exact ⟨by simpa using short, short.trans_lt (by decide)⟩
      | true =>
        have positive := getActualLen_pos unwritten
        rw [unwritten, if_pos rfl] at fits
        rw [if_pos rfl, or_extInitMaxLen (fits.trans_lt (by decide))]
        unfold extInitMaxLen at *
        exact ⟨decide_eq_true (by omega), by omega⟩
    refine ⟨written, logical, physical, extend_firstBlock left right, ?_, encoding.1,
      Continues.extend_len ⟨written, logical, physical, short⟩, encoding.2⟩
    change (left.extend right).getPblock = _
    unfold Ext4Extent.extend
    split
    · rfl
    · rfl

theorem two_short_extents_are_merged : Lossless ⟨0, 4, 0, 100⟩ ⟨4, 2, 0, 104⟩
    (twoExtents.mergeExtent ⟨twoExtents.root.header, none, none, 0, 0, 0⟩ ⟨0, 4, 0, 100⟩ ⟨4, 2, 0, 104⟩).1 :=
  (merging_is_lossless_iff _ _ (by decide)).mpr (fun _ => ⟨by decide, by decide⟩) (by decide)

/-- Two unwritten extents of 16384 blocks become a written one. -/
theorem unwritten_extents_become_written :
    canMerge ⟨0, 49152, 0, 100⟩ ⟨16384, 49152, 0, 16484⟩ = true /\
      ¬ Lossless ⟨0, 49152, 0, 100⟩ ⟨16384, 49152, 0, 16484⟩
        (twoExtents.mergeExtent ⟨twoExtents.root.header, none, none, 0, 0, 0⟩ ⟨0, 49152, 0, 100⟩
          ⟨16384, 49152, 0, 16484⟩).1 :=
  ⟨by decide, fun lossless => absurd lossless.kept (by decide)⟩

end ExtentFile

end GCore.Fs.Ext4
