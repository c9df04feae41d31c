import GCore.Fs.Ext4.Extent

namespace GCore.Fs.Ext4

open Library Ext4Extent Option

/-!
# The map of an extent tree

A logical block is mapped if the extent that `find_extent` finds for it is an entry of
the leaf and covers the block; the physical block is the one that `get_pblock_idx`
returns.  In a leaf whose extents are sorted and do not overlap, these are the blocks
that some extent covers.  A tree sends a block down to a leaf; a change of that leaf
changes the map for the blocks that come to it, and for no others.
-/

/-! ## Leaves -/

def Ext4Extent.Covers (ext : Ext4Extent) (lblock : Nat) : Prop :=
  ext.firstBlock <= lblock /\ lblock < ext.firstBlock + ext.getActualLen

instance (ext : Ext4Extent) (lblock : Nat) : Decidable (ext.Covers lblock) :=
  inferInstanceAs (Decidable (_ /\ _))

variable {other : Nat} {after : ExtentNode} {pos : Nat}

namespace ExtentNode

section Lookup

variable (node : ExtentNode)

def count : Nat := node.header.entriesCount

/-- The place that the search answers with. -/
def slot (lblock : Nat) : Nat :=
  if node.count = 0 then 0
  else bisect (fun m => decide ((node.entries m).firstBlock <= lblock)) node.count 1 (node.count - 1) - 1

theorem binsearchExtent_eq (lblock : Nat) :
    node.binsearchExtent lblock = some (node.entries (node.slot lblock), node.slot lblock) := by
  unfold binsearchExtent slot count
  split
  · rfl
  · rfl

/-- The physical block, if the extent that is found covers the block. -/
def lookup (lblock : Nat) : Option Nat :=
  if node.slot lblock < node.count /\ (node.entries (node.slot lblock)).Covers lblock then
    some ((node.entries (node.slot lblock)).pblockAt lblock)
  else none

/-- Extents in order that do not overlap. -/
def Sorted : Prop :=
  ∀ index other, index < other -> other < node.count ->
    (node.entries index).firstBlock + (node.entries index).getActualLen <= (node.entries other).firstBlock

end Lookup

variable {node : ExtentNode} {lblock index : Nat}

theorem slot_lt (positive : 0 < node.count) (lblock : Nat) : node.slot lblock < node.count := by
  unfold slot
  rw [if_neg (by omega)]
  have bounds := @bisect_bounds (fun m => decide ((node.entries m).firstBlock <= lblock)) node.count 1 (node.count - 1)
    (by omega)
  omega

/-- In the root, the search for an index answers with the same place. -/
theorem binsearchIdx_root (positive : 0 < node.count) (lblock : Nat) :
    node.binsearchIdx true lblock = some (node.slot lblock) := by
  have bounds := @bisect_bounds (fun m => decide ((node.entries m).firstBlock <= lblock)) node.count 1 (node.count - 1)
    (by omega)
  unfold binsearchIdx slot
  rw [if_neg (show ¬ node.header.entriesCount = 0 from positive.ne'), if_neg positive.ne']
  exact if_neg (ne_of_gt bounds.1)

section Ordered

variable (ordered : ∀ {index other}, index <= other -> other < node.count ->
  (node.entries index).firstBlock <= (node.entries other).firstBlock)

include ordered

/-- The test of a search holds for a first part of the entries. -/
theorem initial_of_ordered (lblock low : Nat) :
    ∀ index other, low <= index -> index <= other -> other <= node.count - 1 ->
      decide ((node.entries other).firstBlock <= lblock) = true -> decide ((node.entries index).firstBlock <= lblock) = true := by
  intro index other _ upward below passed
  by_cases empty : node.count = 0
  · rw [show index = other by omega]
    exact passed
  · have bound := ordered upward (by omega : other < node.count)
    have reached := of_decide_eq_true passed
    exact decide_eq_true (by omega)

/-- The search for an index answers with the last entry that does not begin behind the block,
or in the root with the first entry. -/
theorem binsearchIdx_eq_some_iff {isRoot : Bool} : node.binsearchIdx isRoot lblock = some pos ↔
    pos < node.count /\ (isRoot = true /\ pos = 0 \/ (node.entries pos).firstBlock <= lblock) /\
      ∀ index, pos < index -> index < node.count -> lblock < (node.entries index).firstBlock := by
  unfold binsearchIdx
  by_cases empty : node.header.entriesCount = 0
  · rw [if_pos empty, count, empty]
    exact ⟨nofun, fun found => absurd found.1 (Nat.not_lt_zero pos)⟩
  · rw [if_neg empty]
    change node.count ≠ 0 at empty
    generalize low_eq : (if isRoot = true then 1 else 0) = low
    have small : low <= 1 := by split at low_eq <;> omega
    have bounds := @bisect_bounds (fun m => decide ((node.entries m).firstBlock <= lblock)) node.count low (node.count - 1)
      (by omega)
    have sides := bisect_spec node.count low (node.count - 1) (by omega) (initial_of_ordered ordered lblock low)
    constructor
    · intro chosen
      change (if bisect _ node.count low (node.count - 1) = 0 then none
        else some (bisect _ node.count low (node.count - 1) - 1)) = some pos at chosen
      split at chosen
      · cases chosen
      · have pos_eq := some.inj chosen
        refine ⟨by omega, ?_, fun index above below => ?_⟩
        · by_cases start : low <= pos
          · exact .inr (of_decide_eq_true (sides.1 pos start (by omega)))
          · split at low_eq
            · exact .inl ⟨‹_›, by omega⟩
            · omega
        · have failed := of_decide_eq_false (sides.2 index (by omega) (by omega))
          omega
    · rintro ⟨below, start, behind⟩
      have found : bisect (fun m => decide ((node.entries m).firstBlock <= lblock)) node.count low (node.count - 1) =
          pos + 1 := by
        apply bisect_eq (by omega) (by omega) (initial_of_ordered ordered lblock low) (by omega) (by omega)
        · intro more
          rcases start with ⟨root, rfl⟩ | start
          · rw [if_pos root] at low_eq
            omega
          · exact decide_eq_true start
        · intro inside
          exact decide_eq_false (not_le.mpr (behind _ (by omega) (by omega)))
      exact congrArg (fun l => if l = 0 then none else some (l - 1)) found

theorem slot_spec (positive : 0 < node.count) (lblock : Nat) :
    (0 < node.slot lblock -> (node.entries (node.slot lblock)).firstBlock <= lblock) /\
      ∀ index, node.slot lblock < index -> index < node.count -> lblock < (node.entries index).firstBlock := by
  rcases (binsearchIdx_eq_some_iff ordered).mp (binsearchIdx_root positive lblock) with ⟨_, start, behind⟩
  exact ⟨fun more => start.resolve_left fun first => ne_of_gt more first.2, behind⟩

/-- The searches find the last entry that does not begin behind the block, or the first one; outside
of the root, the search for an index does so exactly if the first entry does not begin behind it. -/
theorem searches_find_last_iff (positive : 0 < node.count) (lblock : Nat) :
    ∃ pos < node.count, (0 < pos -> (node.entries pos).firstBlock <= lblock) /\
      (∀ index, pos < index -> index < node.count -> lblock < (node.entries index).firstBlock) /\
      node.binsearchExtent lblock = some (node.entries pos, pos) /\ node.binsearchIdx true lblock = some pos /\
      (node.binsearchIdx false lblock = some pos ↔ (node.entries 0).firstBlock <= lblock) := by
  have spec := slot_spec ordered positive lblock
  have inside := slot_lt positive lblock
  refine ⟨node.slot lblock, inside, spec.1, spec.2, node.binsearchExtent_eq lblock, binsearchIdx_root positive lblock, ?_⟩
  rw [binsearchIdx_eq_some_iff ordered]
  constructor
  · rintro ⟨_, root | start, _⟩
    · cases root.1
    · exact (ordered (Nat.zero_le _) inside).trans start
  · intro start
    refine ⟨inside, .inr ?_, spec.2⟩
    rcases Nat.eq_zero_or_pos (node.slot lblock) with zero | behind
    · rw [zero]
      exact start
    · exact spec.1 behind

end Ordered

theorem third_extent_is_found : let node := ExtentNode.mk ⟨4, 340, 0⟩ fun index => ⟨10 * index + 1, 5, 0, 100 + index⟩
    node.binsearchExtent 23 = some (⟨21, 5, 0, 102⟩, 2) /\ node.binsearchIdx true 23 = some 2 /\
      node.binsearchIdx false 23 = some 2 := by
  intro node
  have ordered : ∀ {first last}, first <= last -> last < node.count ->
      (node.entries first).firstBlock <= (node.entries last).firstBlock := by
    intro first last less _
    change 10 * first + 1 <= 10 * last + 1
    omega
  rcases searches_find_last_iff ordered (by decide) 23 with ⟨pos, inside, start, behind, found, root, inner⟩
  have here : pos = 2 := by
    have least : ¬ pos < 2 := fun less => absurd (behind 2 less (by decide)) (by decide)
    have most : pos ≠ 3 := by
      rintro rfl
      exact absurd (start (by decide)) (by decide)
    have below : pos < 4 := inside
    omega
  subst here
  exact ⟨found, root, inner.mpr (by decide)⟩

/-- In a block, nothing is found in front of the first entry. -/
theorem first_index_is_missed : let node := ExtentNode.mk ⟨1, 340, 1⟩ fun _ => ⟨1, 0, 0, 0⟩
    node.binsearchIdx true 0 = some 0 /\ node.binsearchIdx false 0 = none := by
  decide

variable (sorted : Sorted node)

include sorted

theorem Sorted.first_le (ordered : index <= other) (below : other < node.count) :
    (node.entries index).firstBlock <= (node.entries other).firstBlock := by
  rcases Nat.lt_or_eq_of_le ordered with less | rfl
  · have gap := sorted index other less below
    omega
  · exact le_rfl

theorem Sorted.slot_eq_of (below : index < node.count) (start : (node.entries index).firstBlock <= lblock)
    (behind : ∀ other, index < other -> other < node.count -> lblock < (node.entries other).firstBlock) :
    node.slot lblock = index := by
  have positive : 0 < node.count := by omega
  have spec := slot_spec sorted.first_le positive lblock
  rcases lt_trichotomy (node.slot lblock) index with less | equal | greater
  · have later := spec.2 index less below
    omega
  · exact equal
  · have later := behind _ greater (slot_lt positive lblock)
    omega

theorem Sorted.slot_eq (below : index < node.count)
    (covers : (node.entries index).Covers lblock) : node.slot lblock = index := by
  apply sorted.slot_eq_of below covers.1
  intro other later inside
  have gap := sorted index other later inside
  have stop := covers.2
  omega

omit sorted

/-- The search looks at the first blocks only. -/
theorem slot_congr (node after : ExtentNode) (count_eq : after.count = node.count)
    (first_eq : ∀ place < node.count,
      (after.entries place).firstBlock = (node.entries place).firstBlock) (lblock : Nat) :
    after.slot lblock = node.slot lblock := by
  unfold slot
  rw [count_eq]
  by_cases empty : node.count = 0
  · rw [if_pos empty, if_pos empty]
  · rw [if_neg empty, if_neg empty, bisect_congr]
    intro index _ below
    rw [first_eq index (by omega)]

/-- The second of two entries is found for all blocks from its first one on. -/
theorem slot_eq_one (count_eq : node.count = 2) (start : (node.entries 1).firstBlock <= lblock) : node.slot lblock = 1 := by
  unfold slot
  rw [count_eq]
  simp [bisect, start]

theorem Sorted.lookup_eq (sorted : Sorted node) (below : index < node.count)
    (covers : (node.entries index).Covers lblock) : node.lookup lblock = some ((node.entries index).pblockAt lblock) := by
  unfold lookup
  rw [sorted.slot_eq below covers, if_pos ⟨below, covers⟩]

/-- In any leaf a block that is found is covered. -/
theorem covered_of_lookup {pblock : Nat} (found : node.lookup lblock = some pblock) :
    ∃ index, index < node.count /\ (node.entries index).Covers lblock /\
      pblock = (node.entries index).pblockAt lblock := by
  unfold lookup at found
  split at found
  · rename_i covered
    exact ⟨node.slot lblock, covered.1, covered.2, (some.inj found).symm⟩
  · cases found

variable {newex : Ext4Extent}

/-- A leaf that covers the blocks of another leaf and of a new extent has the map of both. -/
theorem Sorted.lookup_added (sorted : Sorted node) (ordered : Sorted after)
    (added : newex.Covers lblock -> ∃ place, place < after.count /\ (after.entries place).Covers lblock /\
      (after.entries place).pblockAt lblock = newex.pblockAt lblock)
    (kept : ∀ index < node.count, (node.entries index).Covers lblock ->
      ∃ place, place < after.count /\ (after.entries place).Covers lblock /\
        (after.entries place).pblockAt lblock = (node.entries index).pblockAt lblock)
    (nothing : ∀ place < after.count, (after.entries place).Covers lblock ->
      newex.Covers lblock \/ ∃ index, index < node.count /\ (node.entries index).Covers lblock) :
    after.lookup lblock = if newex.Covers lblock then some (newex.pblockAt lblock) else node.lookup lblock := by
  by_cases covers : newex.Covers lblock
  · rcases added covers with ⟨place, below, covered, same⟩
    rw [if_pos covers, ordered.lookup_eq below covered, same]
  · rw [if_neg covers]
    cases found : node.lookup lblock with
    | some pblock =>
      rcases covered_of_lookup found with ⟨index, inside, before, rfl⟩
      rcases kept index inside before with ⟨place, below, covered, same⟩
      rw [ordered.lookup_eq below covered, same]
    | none =>
      refine if_neg fun covering => ?_
      rcases nothing _ covering.1 covering.2 with new | ⟨index, inside, before⟩
      · exact covers new
      · rw [sorted.lookup_eq inside before] at found
        cases found

/-- A new extent behind all others. -/
theorem Sorted.lookup_append (sorted : Sorted node) (count_eq : after.count = node.count + 1)
    (entries_eq : ∀ index ≤ node.count,
      after.entries index = if index = node.count then newex else node.entries index)
    (behind : ∀ index < node.count,
      (node.entries index).firstBlock + (node.entries index).getActualLen <= newex.firstBlock) (lblock : Nat) :
    after.lookup lblock = if newex.Covers lblock then some (newex.pblockAt lblock) else node.lookup lblock := by
  have last : after.entries node.count = newex := by rw [entries_eq _ le_rfl, if_pos rfl]
  have others : ∀ index < node.count, after.entries index = node.entries index := by
    intro index below
    rw [entries_eq _ below.le, if_neg (ne_of_lt below)]
  have ordered : Sorted after := by
    intro index other less below
    rw [others index (by omega)]
    by_cases new : other = node.count
    · rw [new, last]
      exact behind index (by omega)
    · rw [others other (by omega)]
      exact sorted index other less (by omega)
  apply sorted.lookup_added ordered
  · intro covers
    exact ⟨node.count, by omega, by rw [last]; exact covers, by rw [last]⟩
  · intro index below covers
    exact ⟨index, by omega, by rw [others index below]; exact covers, by rw [others index below]⟩
  · intro place below covers
    by_cases new : place = node.count
    · rw [new, last] at covers
      exact .inl covers
    · rw [others place (by omega)] at covers
      exact .inr ⟨place, by omega, covers⟩

/-- The new extent begins where another one ends, also on the device. -/
structure Continues (ex newex : Ext4Extent) : Prop where
  written : ex.isUnwritten = newex.isUnwritten
  logical : ex.firstBlock + ex.getActualLen = newex.firstBlock
  physical : ex.getPblock + ex.getActualLen = newex.getPblock
  short : ex.getActualLen + newex.getActualLen <= extInitMaxLen

variable {ex : Ext4Extent}

/-- The length in a 16-bit count: the lengths of unwritten extents end one before those of others. -/
theorem getActualLen_bounded (small : ex.blockCount < 2 ^ 16) :
    ex.getActualLen <= if ex.isUnwritten then extInitMaxLen - 1 else extInitMaxLen := by
  unfold getActualLen
  split
  · unfold extInitMaxLen
    omega
  · rename_i written
    simpa [isUnwritten] using written

theorem extend_blockCount (short : ex.getActualLen + newex.getActualLen <= extInitMaxLen) :
    (ex.extend newex).blockCount = if ex.isUnwritten then (ex.getActualLen + newex.getActualLen) ||| extInitMaxLen
      else ex.getActualLen + newex.getActualLen := by
  have sum_eq : (ex.getActualLen + newex.getActualLen) % 2 ^ 16 = ex.getActualLen + newex.getActualLen := by
    unfold extInitMaxLen at short
    omega
  unfold extend
  rw [sum_eq]
  split
  · rfl
  · rfl

/-- The mark is a bit of its own, except for the longest extents. -/
theorem or_extInitMaxLen {len : Nat} (short : len < extInitMaxLen) : len ||| extInitMaxLen = len + extInitMaxLen := by
  rw [Nat.or_comm, Nat.add_comm]
  exact (@Nat.two_pow_add_eq_or_of_lt 15 len short 1).symm

theorem getActualLen_pos (unwritten : ex.isUnwritten = true) : 0 < ex.getActualLen := by
  have long := of_decide_eq_true unwritten
  rw [getActualLen, if_pos unwritten]
  omega

theorem Continues.extend_len (continues : Continues ex newex) :
    (ex.extend newex).getActualLen = ex.getActualLen + newex.getActualLen := by
  have short := continues.short
  rw [getActualLen, isUnwritten, extend_blockCount short]
  cases unwritten : ex.isUnwritten with
  | false => rw [if_neg Bool.false_ne_true, if_neg (by simpa using short)]
  | true =>
    have positive := getActualLen_pos unwritten
    -- the mark is lost for the longest extent, but its length is not
    rcases Nat.lt_or_eq_of_le short with less | longest
    · rw [if_pos rfl, or_extInitMaxLen less, if_pos (decide_eq_true (by omega)), Nat.add_sub_cancel]
    · rw [if_pos rfl, longest, Nat.or_self, if_neg (by simp)]

theorem extend_firstBlock (ex newex : Ext4Extent) : (ex.extend newex).firstBlock = ex.firstBlock := by
  unfold extend
  split
  · rfl
  · rfl

theorem extend_pblockAt (ex newex : Ext4Extent) (lblock : Nat) : (ex.extend newex).pblockAt lblock = ex.pblockAt lblock := by
  unfold extend
  split
  · rfl
  · rfl

/-- A new extent is merged with the one in front of it. -/
theorem Sorted.lookup_extend (sorted : Sorted node) (inside : pos < node.count)
    (continues : Continues (node.entries pos) newex) (apart : ∀ index, pos < index -> index < node.count ->
      newex.firstBlock + newex.getActualLen <= (node.entries index).firstBlock) (lblock : Nat) :
    (node.setEntry pos ((node.entries pos).extend newex)).lookup lblock =
      if newex.Covers lblock then some (newex.pblockAt lblock) else node.lookup lblock := by
  have logical := continues.logical
  have physical := continues.physical
  have count_eq : (node.setEntry pos ((node.entries pos).extend newex)).count = node.count := rfl
  have here : (node.setEntry pos ((node.entries pos).extend newex)).entries pos = (node.entries pos).extend newex :=
    Function.update_self ..
  have others : ∀ index ≠ pos,
      (node.setEntry pos ((node.entries pos).extend newex)).entries index = node.entries index :=
    fun index different => Function.update_of_ne different ..
  generalize node.setEntry pos ((node.entries pos).extend newex) = after at count_eq here others
  have covers_iff : ((node.entries pos).extend newex).Covers lblock ↔
      (node.entries pos).Covers lblock \/ newex.Covers lblock := by
    unfold Ext4Extent.Covers
    rw [extend_firstBlock, continues.extend_len]
    omega
  have first_eq : ∀ index, (after.entries index).firstBlock = (node.entries index).firstBlock := by
    intro index
    by_cases same : index = pos
    · rw [same, here, extend_firstBlock]
    · rw [others index same]
  have ordered : Sorted after := by
    intro index other less below
    rw [count_eq] at below
    rw [first_eq, first_eq]
    by_cases same : index = pos
    · rw [same, here, continues.extend_len]
      have gap := apart other (by omega) below
      omega
    · rw [others index same]
      exact sorted index other less below
  apply sorted.lookup_added ordered
  · intro covers
    refine ⟨pos, by omega, by rw [here]; exact covers_iff.mpr (.inr covers), ?_⟩
    have start := covers.1
    rw [here, extend_pblockAt, pblockAt, pblockAt, <- logical, <- physical]
    congr 1
    omega
  · intro index below covers
    refine ⟨index, by omega, ?_, ?_⟩
    · by_cases same : index = pos
      · subst same
        rw [here]
        exact covers_iff.mpr (.inl covers)
      · rw [others index same]
        exact covers
    · by_cases same : index = pos
      · rw [same, here, extend_pblockAt]
      · rw [others index same]
  · intro place below covers
    by_cases same : place = pos
    · rw [same, here] at covers
      rcases covers_iff.mp covers with old | new
      · exact .inr ⟨pos, inside, old⟩
      · exact .inl new
    · rw [others place same] at covers
      exact .inr ⟨place, by omega, covers⟩

theorem canMerge_eq_true_iff : canMerge ex newex = true ↔ ex.isUnwritten = newex.isUnwritten /\
    (ex.firstBlock + ex.getActualLen) % 2 ^ 32 = newex.firstBlock /\
    (ex.getActualLen + newex.getActualLen) % 2 ^ 16 <= extInitMaxLen /\
    ex.getPblock + ex.getActualLen = newex.getPblock := by
  unfold canMerge
  simp only [ne_eq, ite_not, Bool.ite_eq_true_distrib, Bool.false_eq_true, decide_eq_true_eq, if_false_right,
    if_false_left, not_lt]

end ExtentNode

/-! ## The way to a leaf -/

namespace ExtentFile

/-- The leaf that the indices lead to, with its block. -/
def descend (nodes : Nat -> ExtentNode) (lblock : Nat) : Nat -> ExtentNode -> Bool -> Nat -> Option (Nat × ExtentNode)
  | 0, node, _, block => some (block, node)
  | depth + 1, node, isRoot, _ => (node.binsearchIdx isRoot lblock).bind (fun pos =>
    descend nodes lblock depth (nodes (node.entries pos).leafLo) false (node.entries pos).leafLo)

section Map

variable (file : ExtentFile) (lblock : Nat)

def reach : Option (Nat × ExtentNode) := descend file.nodes lblock file.root.header.depth file.root true 0

/-- What `find_extent` finds for the block in a leaf. -/
def answer (block : Nat) (leaf : ExtentNode) : ExtentPathNode :=
  { header := leaf.header, index := none, extent := some (leaf.entries (leaf.slot lblock)),
    position := leaf.slot lblock, pblock := (leaf.entries (leaf.slot lblock)).pblockAt lblock, pblockOfNode := block }

/-- The physical block of a logical block, as it is read back: the extent that is found must
be an entry of its leaf and cover the block. -/
def mapped : Option Nat :=
  (file.findExtent lblock).bind (fun path => path.path.getLast?.bind (fun node => node.extent.bind (fun ex =>
    if node.position < node.header.entriesCount /\ ex.Covers lblock then file.getPblockIdx lblock else none)))

end Map

variable {file : ExtentFile} {nodes : Nat -> ExtentNode} {lblock block : Nat} {leaf : ExtentNode}
  {depth start high lo hi : Nat} {isRoot : Bool} {node : ExtentNode} {low : Nat}

theorem walk_eq_none (path : SearchPath)
    (lost : descend nodes lblock depth node isRoot block = none) : walk nodes lblock depth node isRoot block path = none := by
  induction depth generalizing node isRoot block path with
  | zero => cases lost
  | succ depth ih =>
    rw [descend] at lost
    rw [walk]
    cases chosen : node.binsearchIdx isRoot lblock with
    | none => rfl
    | some pos =>
      rw [chosen, bind_some] at lost
      exact ih _ lost

theorem walk_eq_some (path : SearchPath) (deep : path.path.length = path.depth)
    (reached : descend nodes lblock depth node isRoot start = some (block, leaf)) :
    ∃ below, walk nodes lblock depth node isRoot start path = some (leaf, block, below) /\
      below.depth = path.depth + depth /\ below.path.length = below.depth := by
  induction depth generalizing node isRoot start path with
  | zero =>
    cases reached
    exact ⟨path, rfl, rfl, deep⟩
  | succ depth ih =>
    rw [descend] at reached
    rw [walk]
    cases chosen : node.binsearchIdx isRoot lblock with
    | none =>
      rw [chosen] at reached
      cases reached
    | some pos =>
      rw [chosen, bind_some] at reached
      let step : ExtentPathNode :=
        { header := node.header, index := some (node.entries pos), extent := none, position := pos,
          pblock := (node.entries pos).leafLo, pblockOfNode := start }
      have deeper : (path.path ++ [step]).length = path.depth + 1 := by
        rw [List.length_append, deep]
        rfl
      rcases ih { path with depth := path.depth + 1, path := path.path ++ [step] } deeper reached with
        ⟨below, walked, depth_eq, deep_below⟩
      refine ⟨below, walked, ?_, deep_below⟩
      rw [depth_eq]
      exact Nat.add_right_comm path.depth 1 depth

theorem findExtent_eq_none (lost : file.reach lblock = none) : file.findExtent lblock = none := by
  rw [findExtent, walk_eq_none _ lost]
  rfl

/-- The last node of the path is the leaf. -/
theorem findExtent_eq_some (reached : file.reach lblock = some (block, leaf)) :
    ∃ path, file.findExtent lblock = some path /\ path.depth = file.root.header.depth /\
      path.path[path.depth]? = some (answer lblock block leaf) /\
      path.path.getLast? = some (answer lblock block leaf) := by
  rcases walk_eq_some ⟨0, 4, []⟩ rfl reached with ⟨path, walked, depth_eq, deep⟩
  rw [findExtent, walked, bind_some]
  dsimp only
  rw [leaf.binsearchExtent_eq lblock]
  refine ⟨_, rfl, ?_, ?_, ?_⟩
  · rw [depth_eq, Nat.zero_add]
  · rw [<- deep]
    exact List.getElem?_concat_length
  · exact List.getLast?_concat

theorem mapped_eq (file : ExtentFile) (lblock : Nat) :
    file.mapped lblock = (file.reach lblock).bind (fun place => place.2.lookup lblock) := by
  cases reached : file.reach lblock with
  | none => rw [mapped, findExtent_eq_none reached, bind_none, bind_none]
  | some place =>
    rcases findExtent_eq_some reached with ⟨_, found, _, _, last⟩
    rw [mapped, getPblockIdx, found, bind_some, bind_some, last, bind_some, bind_some]
    rfl

theorem mapped_of_reach (reached : file.reach lblock = some (block, leaf)) : file.mapped lblock = leaf.lookup lblock := by
  rw [mapped_eq, reached, bind_some]

/-! ## Trees -/

/-- The end of the range of an index. -/
def upper (node : ExtentNode) (high index : Nat) : Nat :=
  if index + 1 < node.count then (node.entries (index + 1)).firstBlock else high

/-- The extents of a leaf lie between two bounds. -/
structure LeafIn (node : ExtentNode) (low high : Nat) : Prop where
  sorted : node.Sorted
  above : ∀ index < node.count, low <= (node.entries index).firstBlock
  nonempty : ∀ index < node.count, 0 < (node.entries index).getActualLen
  below : ∀ index < node.count, (node.entries index).firstBlock + (node.entries index).getActualLen <= high
  count_lt : ∀ index < node.count, (node.entries index).blockCount < 2 ^ 16
  limit : ∀ index < node.count, (node.entries index).firstBlock + (node.entries index).blockCount < 2 ^ 32

/-- A node that fills a block: it is not empty, and it has room for 340 entries. -/
def FillsBlock (node : ExtentNode) : Prop :=
  0 < node.count /\ node.count <= node.header.maxEntriesCount /\ node.header.maxEntriesCount = 340

/-- A tree of some depth between two bounds: the indices are in order, and they lead to trees
in their ranges. -/
def TreeIn (nodes : Nat -> ExtentNode) : Nat -> ExtentNode -> Nat -> Nat -> Prop
  | 0, node, low, high => node.header.depth = 0 /\ LeafIn node low high
  | depth + 1, node, low, high => node.header.depth = depth + 1 /\ 0 < node.count /\ ∀ index < node.count,
      low <= (node.entries index).firstBlock /\ (node.entries index).firstBlock < upper node high index /\
      upper node high index <= high /\ (node.entries index).leafLo ≠ 0 /\ FillsBlock (nodes (node.entries index).leafLo) /\
      TreeIn nodes depth (nodes (node.entries index).leafLo) (node.entries index).firstBlock (upper node high index)

variable (keys : ∀ index < node.count, (node.entries index).firstBlock < upper node high index)

include keys

/-- The keys of an index node are in order. -/
theorem keys_le {index : Nat} (ordered : index <= other) (below : other < node.count) :
    (node.entries index).firstBlock <= (node.entries other).firstBlock := by
  induction other, ordered using Nat.le_induction with
  | base => exact le_rfl
  | succ other ordered ih =>
    have key := keys other (by omega)
    rw [upper, if_pos below] at key
    omega

/-- An index is chosen for all blocks of its range. -/
theorem binsearchIdx_eq (below : pos < node.count) (above : (node.entries pos).firstBlock <= lblock)
    (stop : lblock < upper node high pos) : node.binsearchIdx isRoot lblock = some pos := by
  refine (ExtentNode.binsearchIdx_eq_some_iff (keys_le keys)).mpr ⟨below, .inr above, fun index later inside => ?_⟩
  rw [upper, if_pos (by omega)] at stop
  exact stop.trans_le (keys_le keys later inside)

/-- The index that is chosen for a block is chosen for all blocks of its range. -/
theorem binsearchIdx_spec (chosen : node.binsearchIdx isRoot lblock = some pos) :
    pos < node.count /\ (lblock < high -> lblock < upper node high pos) /\
      ∀ other, (node.entries pos).firstBlock <= other -> other < upper node high pos ->
        node.binsearchIdx isRoot other = some pos := by
  rcases (ExtentNode.binsearchIdx_eq_some_iff (keys_le keys)).mp chosen with ⟨below, _, behind⟩
  refine ⟨below, ?_, fun other above stop => binsearchIdx_eq keys below above stop⟩
  intro inside
  unfold upper
  split
  · exact behind (pos + 1) (by omega) ‹_›
  · exact inside

omit keys

/-- A leaf is reached by all blocks of its range, and the extents of the leaf are in it. -/
theorem descend_range (tree : TreeIn nodes depth node low high)
    (reached : descend nodes lblock depth node isRoot start = some (block, leaf)) :
    ∃ lo hi, low <= lo /\ hi <= high /\ leaf.header.depth = 0 /\ LeafIn leaf lo hi /\
      (lblock < high -> lblock < hi) /\
      (∀ other, lo <= other -> other < hi -> descend nodes other depth node isRoot start = some (block, leaf)) /\
      (0 < depth -> block ≠ 0 /\ FillsBlock leaf /\ nodes block = leaf) := by
  induction depth generalizing node isRoot start low high with
  | zero =>
    cases reached
    exact ⟨low, high, le_rfl, le_rfl, tree.1, tree.2, id, fun _ _ _ => rfl,
      fun impossible => absurd impossible (lt_irrefl 0)⟩
  | succ depth ih =>
    rw [descend] at reached
    cases chosen : node.binsearchIdx isRoot lblock with
    | none =>
      rw [chosen] at reached
      cases reached
    | some pos =>
      rw [chosen, bind_some] at reached
      have spec := binsearchIdx_spec (fun index below => (tree.2.2 index below).2.1) chosen
      rcases tree.2.2 pos spec.1 with ⟨low_le, _, upper_le, nonzero, fills, child⟩
      rcases ih child reached with ⟨lo, hi, above, below, rank, leafIn, inside, range, rest⟩
      refine ⟨lo, hi, low_le.trans above, below.trans upper_le, rank, leafIn,
        fun within => inside (spec.2.1 within), ?_, ?_⟩
      · intro other start_le stop
        rw [descend, spec.2.2 other (by omega) (by omega), bind_some]
        exact range other start_le stop
      · intro _
        cases depth with
        | zero =>
          cases reached
          exact ⟨nonzero, fills, rfl⟩
        | succ depth => exact rest (Nat.succ_pos depth)

/-! ## Changing a leaf -/

/-- Index nodes have a depth, so the leaf is none of them. -/
theorem descend_update (tree : TreeIn nodes (depth + 1) node low high) (rank : (nodes block).header.depth = 0) :
    descend (Function.update nodes block after) lblock (depth + 1) node isRoot start =
      (descend nodes lblock (depth + 1) node isRoot start).map (fun place =>
        if place.1 = block then (block, after) else place) := by
  induction depth generalizing node isRoot start low high with
  | zero =>
    rw [descend, descend]
    cases node.binsearchIdx isRoot lblock with
    | none => rfl
    | some pos =>
      rw [bind_some, bind_some, descend, descend, map_some]
      by_cases same : (node.entries pos).leafLo = block
      · rw [if_pos same, same, Function.update_self]
      · rw [if_neg same, Function.update_of_ne same]
  | succ depth ih =>
    rw [descend, descend]
    cases chosen : node.binsearchIdx isRoot lblock with
    | none => rfl
    | some pos =>
      have spec := binsearchIdx_spec (fun index below => (tree.2.2 index below).2.1) chosen
      rcases tree.2.2 pos spec.1 with ⟨_, _, _, _, _, child⟩
      have different : (node.entries pos).leafLo ≠ block := by
        intro same
        have level := child.1
        rw [same, rank] at level
        cases level
      rw [bind_some, bind_some, Function.update_of_ne different]
      exact ih child

section Files

variable (file)

/-- A tree of extents in an inode. -/
structure WellFormed : Prop where
  blockSize_eq : file.fs.blockSize = blockSz
  rootMax : file.root.header.maxEntriesCount = 4
  rootCount : file.root.count <= 4
  tree : TreeIn file.nodes file.root.header.depth file.root 0 (2 ^ 32)

/-- Another content for the leaf at a block. -/
def edit (block : Nat) (after : ExtentNode) : ExtentFile :=
  if file.root.header.depth = 0 then { file with root := after }
  else { file with nodes := Function.update file.nodes block after }

end Files

/-- What is known of the leaf that a block is sent to. -/
structure ReachedLeaf (file : ExtentFile) (lblock block : Nat) (leaf : ExtentNode) (lo hi : Nat) : Prop where
  rank : leaf.header.depth = 0
  leafIn : LeafIn leaf lo hi
  inside : lblock < hi
  range : ∀ other, lo <= other -> other < hi -> file.reach other = some (block, leaf)
  root : file.root.header.depth = 0 -> block = 0 /\ leaf = file.root
  deeper : 0 < file.root.header.depth -> block ≠ 0 /\ FillsBlock leaf /\ file.nodes block = leaf

variable (formed : WellFormed file)

include formed

theorem WellFormed.reached (small : lblock < 2 ^ 32)
    (reaches : file.reach lblock = some (block, leaf)) : ∃ lo hi, ReachedLeaf file lblock block leaf lo hi := by
  rcases descend_range formed.tree reaches with ⟨lo, hi, _, _, rank, leafIn, inside, range, rest⟩
  refine ⟨lo, hi, rank, leafIn, inside small, range, ?_, rest⟩
  intro shallow
  rw [reach, shallow, descend] at reaches
  cases reaches
  exact ⟨rfl, rfl⟩

variable (reached : ReachedLeaf file lblock block leaf lo hi)

include reached

variable (rank : after.header.depth = 0)

include rank

/-- Blocks that come to the leaf are looked up in its new content. -/
theorem WellFormed.reach_edit (other : Nat) :
    (file.edit block after).reach other =
      (file.reach other).map (fun place => if place.1 = block then (block, after) else place) := by
  unfold edit reach
  by_cases shallow : file.root.header.depth = 0
  · rw [if_pos shallow]
    rw [rank, shallow, descend, descend, map_some, (reached.root shallow).1, if_pos rfl]
  · rw [if_neg shallow]
    have deeper := reached.deeper (Nat.pos_of_ne_zero shallow)
    have leaf_rank : (file.nodes block).header.depth = 0 := by
      rw [deeper.2.2]
      exact reached.rank
    have tree := formed.tree
    cases depth_eq : file.root.header.depth with
    | zero => exact absurd depth_eq shallow
    | succ depth =>
      rw [depth_eq] at tree
      exact descend_update tree leaf_rank

theorem WellFormed.mapped_edit
    (reaches : file.reach other = some (block, leaf)) : (file.edit block after).mapped other = after.lookup other := by
  apply mapped_of_reach
  rw [formed.reach_edit reached rank, reaches, map_some, if_pos rfl]

theorem WellFormed.mapped_edit_of_ne (small : other < 2 ^ 32)
    (different : file.reach other ≠ some (block, leaf)) : (file.edit block after).mapped other = file.mapped other := by
  rw [mapped_eq, mapped_eq, formed.reach_edit reached rank]
  cases reaches : file.reach other with
  | none => rfl
  | some place =>
    have elsewhere : place.1 ≠ block := by
      intro same
      apply different
      rcases place with ⟨_, _⟩
      subst same
      rcases formed.reached small reaches with ⟨_, _, known⟩
      -- one block has one leaf
      by_cases shallow : file.root.header.depth = 0
      · rw [reaches, (known.root shallow).2, (reached.root shallow).2]
      · have depth_pos := Nat.pos_of_ne_zero shallow
        rw [reaches, <- (known.deeper depth_pos).2.2, (reached.deeper depth_pos).2.2]
    rw [map_some, if_neg elsewhere]

end ExtentFile

end GCore.Fs.Ext4
