import GCore.Fs.FatContents
import GCore.Mm.Stores

namespace GCore.Mm

open Library List Zram Function Page

/-!
# Runs of the compressed store and of the swap device

A store hands out an identifier for each page that is written.  The pages that are kept are
followed beside the store as a list of identifiers and pages, and a store is in order if the
identifiers in the list are distinct and each of them is read as its page.

The swap device is modelled here with its words of 64 bits and with the blocks that the file
system gave to it.  A block has the size of a page.  The device takes the blocks as they are:
its identifiers are always distinct, but two of them share a block if the file system has given
one twice, as a FAT volume does with a cluster that was freed before.
-/

/-- The identifiers are distinct, and each is read as the page that was written under it. -/
structure ReadsBack (read : Nat -> Option Page) (live : List (Nat × Page)) : Prop where
  nodup : (live.map Prod.fst).Nodup
  read : ∀ id page, (id, page) ∈ live -> read id = some page

namespace ReadsBack

variable {before after : Nat -> Option Page} {live : List (Nat × Page)} {id : Nat} {page : Page}

theorem empty (read : Nat -> Option Page) : ReadsBack read [] := ⟨nodup_nil, nofun⟩

theorem mem_ids (member : (id, page) ∈ live) : id ∈ live.map Prod.fst := mem_map_of_mem member

theorem add (holds : ReadsBack before live) (fresh : id ∉ live.map Prod.fst) (new : after id = some page)
    (others : ∀ other ∈ live.map Prod.fst, after other = before other) :
    ReadsBack after ((id, page) :: live) where
  nodup := by
    rw [map_cons, nodup_cons]
    exact ⟨fresh, holds.nodup⟩
  read := by
    intro other kept member
    rcases mem_cons.mp member with same | old
    · cases same
      exact new
    · rw [others other (mem_ids old)]
      exact holds.read other kept old

/-- The list without an identifier. -/
def without (live : List (Nat × Page)) (id : Nat) : List (Nat × Page) := live.filter (fun kept => kept.1 ≠ id)

theorem mem_without {kept : Nat × Page} : kept ∈ without live id ↔ kept ∈ live /\ kept.1 ≠ id := by
  unfold without
  rw [mem_filter, decide_eq_true_eq]

theorem mem_ids_without {other : Nat} : other ∈ (without live id).map Prod.fst ↔ other ∈ live.map Prod.fst /\ other ≠ id := by
  rw [mem_map, mem_map]
  constructor
  · rintro ⟨kept, member, rfl⟩
    rcases mem_without.mp member with ⟨old, different⟩
    exact ⟨⟨kept, old, rfl⟩, different⟩
  · rintro ⟨⟨kept, old, rfl⟩, different⟩
    exact ⟨kept, mem_without.mpr ⟨old, different⟩, rfl⟩

theorem remove (holds : ReadsBack before live)
    (others : ∀ other ∈ live.map Prod.fst, other ≠ id -> after other = before other) :
    ReadsBack after (without live id) where
  nodup := (filter_sublist.map Prod.fst).nodup holds.nodup
  read := by
    intro other kept member
    rcases mem_without.mp member with ⟨old, different⟩
    rw [others other (mem_ids old) different]
    exact holds.read other kept old

end ReadsBack

open ReadsBack

/-! ## The compressed store -/

namespace Zram

def read (zram : Zram) (id : Nat) : Except ZramError Page := zram.get id

def write (zram : Zram) (data : Page) : Except ZramError (Nat × Zram) := zram.insert data

def discard (zram : Zram) (id : Nat) : Except ZramError Zram := zram.remove id

variable {zram after : Zram} {id : Nat} {data : Page}

/-- The slot for a page is the newest on the stack, or else the one at the mark. -/
theorem insert_place (done : zram.insert data = .ok (id, after)) :
    after.compressed.length = zram.compressed.length /\
      (zram.recycled = id :: after.recycled /\ after.tail = zram.tail \/
        zram.recycled = [] /\ after.recycled = [] /\ id = zram.tail /\ after.tail = zram.tail + 1) := by
  rcases insert_cases done with ⟨_, returned, rfl⟩ | ⟨returned, _, rfl, rfl⟩
  · exact ⟨length_set, .inl ⟨returned, rfl⟩⟩
  · exact ⟨length_set, .inr ⟨returned, rfl, rfl, rfl⟩⟩

/-- A write fails only if the stack is empty and the mark is at the end. -/
theorem insert_error_iff {error : ZramError} :
    zram.insert data = .error error ↔ error = .noSpace /\ zram.recycled = [] /\ zram.tail = zram.compressed.length := by
  unfold insert
  cases returned : zram.recycled with
  | cons first rest => simp
  | nil =>
    by_cases full : zram.tail = zram.compressed.length
    · simp [full, eq_comm]
    · simp [full]

theorem remove_place (sound : Sound zram) (done : zram.remove id = .ok after) :
    after.compressed.length = zram.compressed.length /\
      (after.recycled = zram.recycled /\ zram.tail = id + 1 /\ after.tail = id \/
        after.recycled = id :: zram.recycled /\ after.tail = zram.tail) := by
  rcases remove_cases sound done with ⟨_, _, ⟨last, rfl⟩ | rfl⟩
  · exact ⟨length_set, .inl ⟨rfl, last, rfl⟩⟩
  · exact ⟨length_set, .inr ⟨rfl, rfl⟩⟩

end Zram

structure ZramWorld where
  zram : Zram
  live : List (Nat × Page)

inductive StoreOp where
  | write (data : Page)
  | discard (id : Nat)

namespace ZramWorld

/-- A page is kept from the write of it to the return of its identifier.  A write that fails
changes nothing; a discard that fails is a panic in the tracker. -/
def exec (world : ZramWorld) : StoreOp -> Option ZramWorld
  | .write data =>
    match world.zram.write data with
    | .ok (id, zram) => some ⟨zram, (id, data) :: world.live⟩
    | .error _ => some world
  | .discard id =>
    match world.zram.discard id with
    | .ok zram => some ⟨zram, without world.live id⟩
    | .error _ => none

/-- Only identifiers in use are returned. -/
def Admits (world : ZramWorld) : StoreOp -> Prop
  | .write _ => True
  | .discard id => id ∈ world.live.map Prod.fst

def Step (before : ZramWorld) (op : StoreOp) (after : ZramWorld) : Prop :=
  before.Admits op /\ before.exec op = some after

/-- Each slot below the mark is in use or on the stack, and the slots in use are those in the
list. -/
structure Sound (capacity : Nat) (world : ZramWorld) : Prop where
  store : world.zram.Sound
  capacity : world.zram.compressed.length = capacity
  tight : ∀ id < world.zram.tail, id ∉ world.zram.recycled -> world.zram.slot? id ≠ none
  holds : ReadsBack world.zram.slot? world.live
  listed : ∀ id, world.zram.slot? id ≠ none -> id ∈ world.live.map Prod.fst

variable {capacity : Nat} {world after : ZramWorld} {id : Nat} {data : Page} {zram : Zram}

theorem Sound.new (small : capacity <= 65535) : Sound capacity ⟨Zram.new capacity, []⟩ where
  store := Zram.Sound.new (Nat.lt_succ_of_le small)
  capacity := length_replicate
  tight := nofun
  holds := ReadsBack.empty _
  listed := by
    intro id kept
    exact absurd ((Zram.Sound.new (Nat.lt_succ_of_le small)).tail_free id (Nat.zero_le _)) kept

variable (sound : Sound capacity world)

include sound

theorem Sound.write (done : world.zram.write data = .ok (id, zram)) :
    Sound capacity ⟨zram, (id, data) :: world.live⟩ := by
  rcases insert_spec sound.store done with ⟨free, store, slots⟩
  rcases insert_place done with ⟨length, place⟩
  have fresh : id ∉ world.live.map Prod.fst := by
    intro member
    rcases mem_map.mp member with ⟨⟨_, page⟩, kept, rfl⟩
    rw [sound.holds.read _ page kept] at free
    cases free
  have others : ∀ other ≠ id, zram.slot? other = world.zram.slot? other := by
    intro other different
    rw [slots, if_neg different]
  refine ⟨store, length.trans sound.capacity, ?_, sound.holds.add fresh ?_ ?_, ?_⟩
  · intro other low unreturned
    by_cases same : other = id
    · rw [slots, if_pos same]
      exact Option.some_ne_none data
    · rw [others other same]
      rcases place with ⟨stack, mark⟩ | ⟨stack, _, _, mark⟩
      · refine sound.tight other (mark ▸ low) ?_
        rw [stack]
        intro member
        rcases mem_cons.mp member with newest | older
        · exact same newest
        · exact unreturned older
      · change other < zram.tail at low
        refine sound.tight other (by omega) ?_
        rw [stack]
        exact not_mem_nil
  · rw [slots, if_pos rfl]
  · intro other member
    exact others other (fun same => fresh (same ▸ member))
  · intro other kept
    rw [map_cons, mem_cons]
    by_cases same : other = id
    · exact .inl same
    · rw [others other same] at kept
      exact .inr (sound.listed other kept)

theorem Sound.discard (member : id ∈ world.live.map Prod.fst) :
    ∃ zram, world.zram.discard id = .ok zram /\ Sound capacity ⟨zram, without world.live id⟩ := by
  have present : (world.zram.slot? id).isSome = true := by
    rcases mem_map.mp member with ⟨⟨_, page⟩, kept, rfl⟩
    rw [sound.holds.read _ page kept]
    rfl
  rcases exists_remove present with ⟨zram, done⟩
  rcases remove_spec sound.store done with ⟨store, slots⟩
  rcases remove_place sound.store done with ⟨length, place⟩
  have others : ∀ other ≠ id, zram.slot? other = world.zram.slot? other := by
    intro other different
    rw [slots, if_neg different]
  refine ⟨zram, done, store, length.trans sound.capacity, ?_, sound.holds.remove (fun other _ => others other), ?_⟩
  · intro other low unreturned
    have different : other ≠ id := by
      rintro rfl
      rcases place with ⟨_, _, mark⟩ | ⟨stack, _⟩
      · exact absurd low (by rw [mark]; exact lt_irrefl _)
      · exact unreturned (by rw [stack]; exact mem_cons_self)
    rw [others other different]
    rcases place with ⟨stack, _, mark⟩ | ⟨stack, mark⟩
    · exact sound.tight other (by rw [mark] at low; omega) (stack ▸ unreturned)
    · refine sound.tight other (mark ▸ low) ?_
      intro returned
      exact unreturned (by rw [stack]; exact mem_cons_of_mem _ returned)
  · intro other kept
    have different : other ≠ id := by
      rintro rfl
      rw [slots, if_pos rfl] at kept
      exact kept rfl
    rw [others other different] at kept
    exact mem_ids_without.mpr ⟨sound.listed other kept, different⟩

/-- The slots below the mark are those in use and those on the stack. -/
theorem Sound.length : world.live.length + world.zram.recycled.length = world.zram.tail := by
  have used : ∀ id ∈ world.live.map Prod.fst, world.zram.slot? id ≠ none := by
    intro id member
    rcases mem_map.mp member with ⟨⟨_, page⟩, kept, rfl⟩
    rw [sound.holds.read _ page kept]
    exact Option.some_ne_none page
  have perm : (world.live.map Prod.fst ++ world.zram.recycled).Perm (range world.zram.tail) := by
    refine (perm_ext_iff_of_nodup ?_ nodup_range).mpr ?_
    · refine nodup_append.mpr ⟨sound.holds.nodup, sound.store.nodup, ?_⟩
      rintro id member _ returned rfl
      exact used id member (sound.store.recycled_free id returned)
    · intro id
      rw [mem_append, mem_range]
      constructor
      · rintro (member | returned)
        · rcases Option.ne_none_iff_exists'.mp (used id member) with ⟨page, kept⟩
          exact lt_tail_of_slot sound.store kept
        · exact sound.store.recycled_lt id returned
      · intro low
        by_cases returned : id ∈ world.zram.recycled
        · exact .inr returned
        · exact .inl (sound.listed id (sound.tight id low returned))
  have same := perm.length_eq
  rw [length_append, length_map, length_range] at same
  exact same

theorem Sound.write_error_iff (data : Page) :
    world.zram.write data = .error .noSpace ↔ world.live.length = capacity := by
  have count := sound.length
  have top := sound.store.tail_le
  have size := sound.capacity
  change world.zram.insert data = _ ↔ _
  rw [insert_error_iff, <- length_eq_zero_iff]
  constructor
  · rintro ⟨_, _⟩
    omega
  · intro full
    exact ⟨rfl, by omega, by omega⟩

theorem Sound.exec {op : StoreOp} (admitted : world.Admits op) :
    ∃ after, world.exec op = some after /\ Sound capacity after := by
  cases op with
  | write data =>
    cases done : world.zram.write data with
    | ok granted =>
      refine ⟨⟨granted.2, (granted.1, data) :: world.live⟩, ?_, sound.write done⟩
      unfold ZramWorld.exec
      dsimp only
      rw [done]
    | error error =>
      refine ⟨world, ?_, sound⟩
      unfold ZramWorld.exec
      dsimp only
      rw [done]
  | discard id =>
    rcases sound.discard admitted with ⟨zram, done, kept⟩
    refine ⟨_, ?_, kept⟩
    unfold ZramWorld.exec
    dsimp only
    rw [done]

omit sound

theorem Sound.reached (small : capacity <= 65535) (run : Reached Step ⟨Zram.new capacity, []⟩ world) : Sound capacity world := by
  refine run.invariant (Sound.new small) ?_
  intro before op after sound taken
  rcases sound.exec taken.1 with ⟨_, done, kept⟩
  rw [taken.2] at done
  cases done
  exact kept

/-- What the store owes to its callers. -/
structure Serves (capacity : Nat) (world : ZramWorld) : Prop where
  nodup : (world.live.map Prod.fst).Nodup
  read : ∀ id page, (id, page) ∈ world.live -> world.zram.read id = .ok page
  full : ∀ data, world.zram.write data = .error .noSpace ↔ world.live.length = capacity
  total : ∀ op, world.Admits op -> (world.exec op).isSome = true

theorem Sound.serves (sound : Sound capacity world) : Serves capacity world where
  nodup := sound.holds.nodup
  read := fun id page member => get_eq_ok_iff.mpr (sound.holds.read id page member)
  full := sound.write_error_iff
  total := by
    intro op admitted
    rcases sound.exec admitted with ⟨_, done, _⟩
    rw [done]
    rfl

end ZramWorld

/-! ## The swap device -/

/-- Blocks of the device in a page. -/
def blkPerPg : Nat := 1

/-- The number of zeros below the lowest bit that is set. -/
def trailingZeros (word : BitVec 64) : Nat := ((List.range 64).find? (fun place => word.getLsbD place)).getD 64

structure SwapDevice where
  bitmap : List (BitVec 64)
  blockIds : List Nat
  usable : Bool

namespace SwapDevice

/-- For a number of megabytes, with the blocks that the file system has allocated. -/
def new (size : Nat) (allocated : List Nat) : SwapDevice :=
  let blocks := size * 256
  let usable := !allocated.isEmpty && allocated.length == blocks
  ⟨List.replicate (if usable then size * 256 / 64 else 0) 0, allocated, usable⟩

section Operations

variable (swap : SwapDevice)

def setBit (pos : Nat) : Option SwapDevice :=
  if pos / 64 < swap.bitmap.length then
    some { swap with bitmap := swap.bitmap.modify (pos / 64) (fun word => word ||| BitVec.twoPow 64 (pos % 64)) }
  else none

def clearBit (pos : Nat) : Option SwapDevice :=
  if pos / 64 < swap.bitmap.length then
    some { swap with bitmap := swap.bitmap.modify (pos / 64) (fun word => word &&& ~~~ BitVec.twoPow 64 (pos % 64)) }
  else none

/-- Words that are full are skipped. -/
def allocPage : Option Nat :=
  (swap.bitmap.findIdx? (fun word => word ≠ BitVec.allOnes 64)).map (fun i =>
    i * 64 + trailingZeros (~~~ (swap.bitmap.getD i 0)))

def getBlockIds (swapId : Nat) : Option (List Nat) :=
  if swapId * blkPerPg + blkPerPg <= swap.blockIds.length then
    some ((swap.blockIds.drop (swapId * blkPerPg)).take blkPerPg)
  else none

end Operations

/-- The first of the blocks of a page; they have to be in a row. -/
def firstBlock (blockIds : List Nat) : Option Nat :=
  match blockIds[0]?, blockIds[blkPerPg - 1]? with
  | some first, some last => if first + blkPerPg - 1 = last then some first else none
  | _, _ => none

/-- A device that is not usable leaves the buffer as it is. -/
def read (swap : SwapDevice) (device : Nat -> Page) (swapId : Nat) (buf : Page) : Option Page :=
  if swap.usable then ((swap.getBlockIds swapId).bind firstBlock).map device else some buf

def write (swap : SwapDevice) (device : Nat -> Page) (buf : Page) : Option (Option Nat × SwapDevice × (Nat -> Page)) :=
  if swap.usable then
    match swap.allocPage with
    | some swapId =>
      ((swap.getBlockIds swapId).bind firstBlock).bind (fun block =>
        (swap.setBit swapId).map (fun swap => (some swapId, swap, update device block buf)))
    | none => some (none, swap, device)
  else some (none, swap, device)

def discard (swap : SwapDevice) (swapId : Nat) : Option SwapDevice := swap.clearBit swapId

/-- The identifier is marked in its word. -/
def taken (swap : SwapDevice) (pos : Nat) : Bool := (swap.bitmap.getD (pos / 64) 0).getLsbD (pos % 64)

variable {swap after : SwapDevice} {pos other : Nat}

/-- A change of one bit of the word at a position. -/
theorem taken_modify {change : BitVec 64 -> BitVec 64} {value : Bool} (inside : pos / 64 < swap.bitmap.length)
    (bits : ∀ word other, other / 64 = pos / 64 -> (change word).getLsbD (other % 64) =
      if other = pos then value else word.getLsbD (other % 64)) (other : Nat) :
    taken { swap with bitmap := swap.bitmap.modify (pos / 64) change } other =
      if other = pos then value else swap.taken other := by
  simp only [taken, getD_eq_getElem?_getD]
  by_cases same : other / 64 = pos / 64
  · rw [same, getElem?_modify_eq, getElem?_eq_getElem inside]
    exact bits _ other same
  · rw [getElem?_modify_ne _ _ (Ne.symm same), if_neg (fun equal => same (congrArg (· / 64) equal))]

theorem getLsbD_mask64 (pos other : Nat) (same : other / 64 = pos / 64) :
    (BitVec.twoPow 64 (pos % 64)).getLsbD (other % 64) = decide (other = pos) := by
  have place : (pos % 64 = other % 64) ↔ other = pos := by omega
  rw [BitVec.getLsbD_twoPow, decide_eq_true (Nat.mod_lt pos (by decide : 0 < 64)), Bool.true_and]
  exact decide_eq_decide.mpr place

/-- One identifier is marked, or not marked any more. -/
structure Marks (swap : SwapDevice) (pos : Nat) (value : Bool) (after : SwapDevice) : Prop where
  blockIds : after.blockIds = swap.blockIds
  usable : after.usable = swap.usable
  length_eq : after.bitmap.length = swap.bitmap.length
  taken : ∀ other, after.taken other = if other = pos then value else swap.taken other

theorem setBit_spec (inside : pos / 64 < swap.bitmap.length) :
    ∃ after, swap.setBit pos = some after /\ Marks swap pos true after := by
  refine ⟨_, if_pos inside, rfl, rfl, length_modify _ _ _, taken_modify inside ?_⟩
  intro word other same
  rw [BitVec.getLsbD_or, getLsbD_mask64 pos other same]
  by_cases equal : other = pos
  · rw [if_pos equal, decide_eq_true equal, Bool.or_true]
  · rw [if_neg equal, decide_eq_false equal, Bool.or_false]

theorem clearBit_spec (inside : pos / 64 < swap.bitmap.length) :
    ∃ after, swap.clearBit pos = some after /\ Marks swap pos false after := by
  refine ⟨_, if_pos inside, rfl, rfl, length_modify _ _ _, taken_modify inside ?_⟩
  intro word other same
  have small : other % 64 < 64 := Nat.mod_lt _ (by decide)
  rw [BitVec.getLsbD_and, BitVec.getLsbD_not, getLsbD_mask64 pos other same, decide_eq_true small, Bool.true_and]
  by_cases equal : other = pos
  · rw [if_pos equal, decide_eq_true equal, Bool.not_true, Bool.and_false]
  · rw [if_neg equal, decide_eq_false equal, Bool.not_false, Bool.and_true]

theorem trailingZeros_spec {word : BitVec 64} (some : word ≠ 0) :
    trailingZeros word < 64 /\ word.getLsbD (trailingZeros word) = true := by
  unfold trailingZeros
  cases found : (range 64).find? (fun place => word.getLsbD place) with
  | none =>
    refine absurd ?_ some
    refine BitVec.eq_of_getLsbD_eq ?_
    intro place low
    have clear := find?_eq_none.mp found place (mem_range.mpr low)
    rw [Bool.not_eq_true] at clear
    rw [clear]
    exact BitVec.getLsbD_zero.symm
  | some place =>
    have low := mem_range.mp (mem_of_find?_eq_some found)
    exact ⟨low, find?_some found⟩

/-- The identifier that is found is free. -/
theorem allocPage_spec (found : swap.allocPage = some pos) :
    pos / 64 < swap.bitmap.length /\ swap.taken pos = false := by
  rcases Option.map_eq_some_iff.mp found with ⟨i, first, rfl⟩
  rcases findIdx?_eq_some_iff_getElem.mp first with ⟨inside, notFull, _⟩
  have word : swap.bitmap.getD i 0 = swap.bitmap[i] := by
    rw [getD_eq_getElem?_getD, getElem?_eq_getElem inside, Option.getD_some]
  rw [word]
  have free : ~~~ swap.bitmap[i] ≠ 0 := by
    intro nothing
    apply of_decide_eq_true notFull
    have twice : ~~~ (~~~ swap.bitmap[i]) = ~~~ (0 : BitVec 64) := congrArg _ nothing
    rw [BitVec.not_not] at twice
    rw [twice]
    rfl
  rcases trailingZeros_spec free with ⟨low, set⟩
  have index : (i * 64 + trailingZeros (~~~ swap.bitmap[i])) / 64 = i := by omega
  have place : (i * 64 + trailingZeros (~~~ swap.bitmap[i])) % 64 = trailingZeros (~~~ swap.bitmap[i]) := by omega
  refine ⟨by rw [index]; exact inside, ?_⟩
  unfold taken
  rw [index, place, word]
  rw [BitVec.getLsbD_not, decide_eq_true low, Bool.true_and] at set
  exact Bool.not_eq_eq_eq_not.mp set

/-- A page has one block. -/
theorem block_eq (swap : SwapDevice) (swapId : Nat) : (swap.getBlockIds swapId).bind firstBlock = swap.blockIds[swapId]? := by
  unfold getBlockIds blkPerPg
  rw [Nat.mul_one]
  by_cases inside : swapId + 1 <= swap.blockIds.length
  · rw [if_pos inside, Option.bind_some, getElem?_eq_getElem inside, drop_eq_getElem_cons inside]
    exact if_pos rfl
  · rw [if_neg inside, getElem?_eq_none (by omega)]
    rfl

end SwapDevice

open SwapDevice

structure SwapWorld where
  swap : SwapDevice
  device : Nat -> Page
  live : List (Nat × Page)

namespace SwapWorld

/-- A panic has no world after it. -/
def exec (world : SwapWorld) : StoreOp -> Option SwapWorld
  | .write data =>
    (world.swap.write world.device data).map (fun (swapId, swap, device) =>
      ⟨swap, device, (swapId.map (fun id => (id, data))).toList ++ world.live⟩)
  | .discard id =>
    (world.swap.discard id).map (fun swap => ⟨swap, world.device, without world.live id⟩)

/-- Only trackers that exist are dropped. -/
def Admits (world : SwapWorld) : StoreOp -> Prop
  | .write _ => True
  | .discard id => id ∈ world.live.map Prod.fst

def Step (before : SwapWorld) (op : StoreOp) (after : SwapWorld) : Prop :=
  before.Admits op /\ before.exec op = some after

/-- What is read under an identifier. -/
def content (world : SwapWorld) (id : Nat) : Option Page := (world.swap.blockIds[id]?).map world.device

/-- The identifiers in use are those that are marked, and each has a block. -/
structure Marked (world : SwapWorld) : Prop where
  enough : world.swap.usable = true -> 64 * world.swap.bitmap.length <= world.swap.blockIds.length
  usable : world.live ≠ [] -> world.swap.usable = true
  nodup : (world.live.map Prod.fst).Nodup
  taken : ∀ id, id ∈ world.live.map Prod.fst ↔ id / 64 < world.swap.bitmap.length /\ world.swap.taken id = true

variable {world : SwapWorld} {id size : Nat} {data : Page} {allocated : List Nat} {device : Nat -> Page}

theorem usable_new : (SwapDevice.new size allocated).usable = true ↔ allocated ≠ [] /\ allocated.length = size * 256 := by
  simp [SwapDevice.new]

theorem length_bitmap_new (usable : (SwapDevice.new size allocated).usable = true) :
    64 * (SwapDevice.new size allocated).bitmap.length = allocated.length := by
  change 64 * (replicate (if (SwapDevice.new size allocated).usable then size * 256 / 64 else 0) 0).length = _
  rw [length_replicate, if_pos usable, (usable_new.mp usable).2]
  omega

theorem Marked.new (size : Nat) (allocated : List Nat) (device : Nat -> Page) :
    Marked ⟨SwapDevice.new size allocated, device, []⟩ where
  enough := fun usable => le_of_eq (length_bitmap_new usable)
  usable := fun some => absurd rfl some
  nodup := nodup_nil
  taken := by
    intro id
    refine iff_of_false not_mem_nil fun marked => ?_
    have clear : (SwapDevice.new size allocated).taken id = false := by
      unfold SwapDevice.taken
      rw [getD_eq_getElem?_getD]
      cases there : (SwapDevice.new size allocated).bitmap[id / 64]? with
      | none => exact BitVec.getLsbD_zero
      | some word =>
        rw [Option.getD_some, eq_of_mem_replicate (mem_of_getElem? there)]
        exact BitVec.getLsbD_zero
    rw [clear] at marked
    cases marked.2

/-- A page is written to the block of a free identifier, which is marked then. -/
structure Writes (world : SwapWorld) (data : Page) (id block : Nat) (after : SwapWorld) : Prop where
  given : world.swap.blockIds[id]? = some block
  fresh : id ∉ world.live.map Prod.fst
  blockIds : after.swap.blockIds = world.swap.blockIds
  device : after.device = update world.device block data
  live : after.live = (id, data) :: world.live
  length : after.swap.bitmap.length = world.swap.bitmap.length
  usable : world.swap.usable = true /\ after.swap.usable = true
  marked : Marked after

theorem Marked.writes (marked : Marked world) (usable : world.swap.usable = true) (data : Page)
    (found : world.swap.allocPage = some id) :
    ∃ block after, world.exec (.write data) = some after /\ Writes world data id block after := by
  rcases allocPage_spec found with ⟨inside, free⟩
  rcases setBit_spec inside with ⟨swap, marking, blockIds, same, length, bits⟩
  have room : id < world.swap.blockIds.length := by
    have enough := marked.enough usable
    omega
  have block := getElem?_eq_getElem room
  have written : world.swap.write world.device data =
      some (some id, swap, update world.device world.swap.blockIds[id] data) := by
    unfold SwapDevice.write
    rw [if_pos usable, found]
    dsimp only
    rw [block_eq, block, Option.bind_some, marking]
    rfl
  have fresh : id ∉ world.live.map Prod.fst := by
    intro member
    rw [((marked.taken id).mp member).2] at free
    cases free
  refine ⟨world.swap.blockIds[id], ⟨swap, update world.device world.swap.blockIds[id] data, (id, data) :: world.live⟩,
    congrArg (Option.map _) written, block, fresh, blockIds, rfl, rfl, length,
    ⟨usable, same.trans usable⟩, ?_, fun _ => same.trans usable, nodup_cons.mpr ⟨fresh, marked.nodup⟩, ?_⟩
  · intro _
    rw [length, blockIds]
    exact marked.enough usable
  · intro other
    rw [map_cons, mem_cons, length, bits, marked.taken]
    by_cases equal : other = id
    · rw [if_pos equal, equal]
      exact iff_of_true (.inl rfl) ⟨inside, rfl⟩
    · rw [if_neg equal, or_iff_right equal]

/-- A device with an identifier left finds one. -/
theorem Marked.exists_page (marked : Marked world) (room : world.live.length < 64 * world.swap.bitmap.length) :
    ∃ id, world.swap.allocPage = some id := by
  cases found : world.swap.allocPage with
  | some id => exact ⟨id, rfl⟩
  | none =>
    exfalso
    have full := findIdx?_eq_none_iff.mp (Option.map_eq_none_iff.mp found)
    have covered : range (64 * world.swap.bitmap.length) ⊆ world.live.map Prod.fst := by
      intro id member
      have inside : id / 64 < world.swap.bitmap.length := by
        rw [mem_range] at member
        omega
      refine (marked.taken id).mpr ⟨inside, ?_⟩
      have word := full _ (getElem_mem inside)
      rw [decide_eq_false_iff_not, not_not] at word
      unfold SwapDevice.taken
      rw [getD_eq_getElem?_getD, getElem?_eq_getElem inside, Option.getD_some, word, BitVec.getLsbD_allOnes]
      exact decide_eq_true (Nat.mod_lt _ (by decide))
    have count := (subperm_of_subset nodup_range covered).length_le
    rw [length_range, length_map] at count
    omega

theorem Marked.write (marked : Marked world) (data : Page) : (∃ id block after, world.exec (.write data) = some after /\
    Writes world data id block after) \/ world.exec (.write data) = some world := by
  have unchanged : world.swap.write world.device data = some (none, world.swap, world.device) ->
      world.exec (.write data) = some world := fun nothing => congrArg (Option.map _) nothing
  by_cases usable : world.swap.usable = true
  · cases found : world.swap.allocPage with
    | none =>
      refine .inr (unchanged ?_)
      unfold SwapDevice.write
      rw [if_pos usable, found]
    | some id => exact .inl ⟨id, marked.writes usable data found⟩
  · exact .inr (unchanged (if_neg usable))

theorem Marked.discard (marked : Marked world) (member : id ∈ world.live.map Prod.fst) :
    ∃ swap, world.exec (.discard id) = some ⟨swap, world.device, without world.live id⟩ /\
      swap.blockIds = world.swap.blockIds /\ swap.usable = world.swap.usable /\ Marked ⟨swap, world.device, without world.live id⟩ := by
  have inside := ((marked.taken id).mp member).1
  rcases clearBit_spec inside with ⟨swap, cleared, blockIds, same, length, bits⟩
  have usable := marked.usable (fun nothing => by rw [nothing] at member; cases member)
  refine ⟨swap, congrArg (Option.map _) cleared, blockIds, same, ?_, fun _ => same.trans usable,
    (filter_sublist.map Prod.fst).nodup marked.nodup, ?_⟩
  · intro _
    rw [length, blockIds]
    exact marked.enough usable
  · intro other
    rw [mem_ids_without, length, bits, marked.taken]
    by_cases equal : other = id
    · rw [if_pos equal]
      exact iff_of_false (fun both => both.2 equal) (fun both => nomatch both.2)
    · rw [if_neg equal]
      exact and_iff_left equal

/-- The blocks are distinct, so that no write reaches the page of another identifier. -/
structure Sound (world : SwapWorld) : Prop extends Marked world where
  blocks : world.swap.usable = true -> world.swap.blockIds.Nodup
  read : ∀ id page, (id, page) ∈ world.live -> world.content id = some page

theorem Sound.write (sound : Sound world) (data : Page) :
    ∃ after, world.exec (.write data) = some after /\ Sound after := by
  rcases sound.toMarked.write data with ⟨id, block, after, done, writes⟩ | nothing
  · have distinct := sound.blocks writes.usable.1
    refine ⟨after, done, writes.marked, fun _ => writes.blockIds ▸ distinct, ?_⟩
    intro other page member
    rw [writes.live] at member
    unfold content
    rw [writes.blockIds, writes.device]
    rcases mem_cons.mp member with same | old
    · cases same
      rw [writes.given, Option.map_some, update_self]
    · have before := sound.read other page old
      unfold content at before
      rcases Option.map_eq_some_iff.mp before with ⟨otherBlock, there, stored⟩
      have apart : otherBlock ≠ block := by
        intro equal
        rw [equal, <- writes.given] at there
        have bound := (List.getElem?_eq_some_iff.mp (there.trans writes.given)).1
        exact writes.fresh (((getElem?_inj bound distinct).mp there) ▸ ReadsBack.mem_ids old)
      rw [there, Option.map_some, update_of_ne apart, stored]
  · exact ⟨world, nothing, sound⟩

theorem Sound.exec (sound : Sound world) {op : StoreOp} (admitted : world.Admits op) :
    ∃ after, world.exec op = some after /\ Sound after := by
  cases op with
  | write data => exact sound.write data
  | discard id =>
    rcases sound.toMarked.discard admitted with ⟨swap, done, blockIds, same, marked⟩
    refine ⟨_, done, marked, fun usable => blockIds ▸ sound.blocks (same ▸ usable), fun other page member => ?_⟩
    · unfold content
      rw [blockIds]
      exact sound.read other page (mem_without.mp member).1

theorem Sound.reached {start : SwapWorld} (initial : Sound start) (run : Reached Step start world) : Sound world := by
  refine run.invariant initial ?_
  intro before op after sound taken
  rcases sound.exec taken.1 with ⟨_, done, kept⟩
  rw [taken.2] at done
  cases done
  exact kept

/-- What the device owes to its callers. -/
structure Serves (world : SwapWorld) : Prop where
  nodup : (world.live.map Prod.fst).Nodup
  read : ∀ id page, (id, page) ∈ world.live -> ∀ buf, world.swap.read world.device id buf = some page
  total : ∀ op, world.Admits op -> (world.exec op).isSome = true

theorem Sound.serves (sound : Sound world) : Serves world where
  nodup := sound.nodup
  read := by
    intro id page member buf
    have usable := sound.usable (ne_nil_of_mem member)
    unfold SwapDevice.read
    rw [if_pos usable, block_eq]
    exact sound.read id page member
  total := by
    intro op admitted
    rcases sound.exec admitted with ⟨_, done, _⟩
    rw [done]
    rfl

/-- Each identifier of the device can be in use at once, with a page of its own. -/
theorem exists_filled (usable : (SwapDevice.new size allocated).usable = true) (pages : Nat -> Page) :
    ∃ world, Reached Step ⟨SwapDevice.new size allocated, device, []⟩ world /\
      world.swap.usable = true /\ world.swap.blockIds = allocated /\
      ∀ id < allocated.length, (id, pages id) ∈ world.live := by
  have filled : ∀ count, count <= allocated.length -> ∃ world,
      Reached Step ⟨SwapDevice.new size allocated, device, []⟩ world /\ Marked world /\ world.swap.usable = true /\
      world.swap.blockIds = allocated /\ 64 * world.swap.bitmap.length = allocated.length /\
      world.live.length = count /\ ∀ id page, (id, page) ∈ world.live -> page = pages id := by
    intro count
    induction count with
    | zero =>
      intro _
      exact ⟨_, .refl, Marked.new size allocated device, usable, rfl, length_bitmap_new usable, rfl, nofun⟩
    | succ count ih =>
      intro room
      rcases ih (Nat.le_of_succ_le room) with ⟨world, run, marked, ready, blockIds, length, full, given⟩
      rcases marked.exists_page (by omega) with ⟨id, found⟩
      rcases marked.writes ready (pages id) found with ⟨block, after, done, writes⟩
      have taken : Step world (.write (pages id)) after := ⟨trivial, done⟩
      refine ⟨after, run.next taken, writes.marked, writes.usable.2, writes.blockIds.trans blockIds,
        by rw [writes.length, length], by rw [writes.live, length_cons, full], ?_⟩
      intro other page member
      rw [writes.live] at member
      rcases mem_cons.mp member with same | old
      · cases same
        rfl
      · exact given other page old
  rcases filled _ le_rfl with ⟨world, run, marked, ready, blockIds, length, full, given⟩
  refine ⟨world, run, ready, blockIds, fun id below => ?_⟩
  -- as many identifiers are in use as there are
  have inside : world.live.map Prod.fst ⊆ range allocated.length := by
    intro other member
    have bound := ((marked.taken other).mp member).1
    rw [mem_range]
    omega
  have all := (subperm_of_subset marked.nodup inside).perm_of_length_le (by rw [length_range, length_map, full])
  rcases mem_map.mp (all.mem_iff.mpr (mem_range.mpr below)) with ⟨⟨_, page⟩, member, rfl⟩
  rw [<- given _ page member]
  exact member

/-- The device serves in every run if and only if its blocks are distinct, or it is not usable. -/
theorem serves_iff : (∀ world, Reached Step ⟨SwapDevice.new size allocated, device, []⟩ world -> Serves world) ↔
    ((SwapDevice.new size allocated).usable = true -> allocated.Nodup) := by
  constructor
  · intro serves usable
    rw [nodup_iff_injective_get]
    rintro ⟨first, low⟩ ⟨second, high⟩ same
    -- a page of ones under the first identifier, and of zeros under all others
    rcases @exists_filled size allocated device usable (fun id _ => if id = first then 1 else 0) with
      ⟨world, run, ready, blockIds, all⟩
    have read := (serves world run).read
    have one := read first _ (all first low) zero
    have other := read second _ (all second high) zero
    have shared : allocated[first] = allocated[second] := same
    unfold SwapDevice.read at one other
    rw [if_pos ready, block_eq, blockIds, getElem?_eq_getElem low, Option.map_some, shared] at one
    rw [if_pos ready, block_eq, blockIds, getElem?_eq_getElem high, Option.map_some] at other
    have equal := congrFun (Option.some_inj.mp (one.symm.trans other)) 0
    by_contra different
    have apart : second ≠ first := fun equal => different (Fin.ext equal.symm)
    rw [if_pos rfl, if_neg apart] at equal
    cases equal
  · intro distinct world run
    refine (Sound.reached ⟨Marked.new size allocated device, distinct, nofun⟩ run).serves

end SwapWorld

/-- In every run of the compressed store the identifiers in use are distinct and read as what was
written under them, and the store is full exactly if its capacity is in use.  The swap device
serves as well in all its runs if and only if the file system has given no block to it twice,
or not as many as it wants. -/
theorem stores_serve_in_every_run_iff (size : Nat) (allocated : List Nat) (device : Nat -> Page) :
    (∀ capacity ≤ 65535, ∀ world, Reached ZramWorld.Step ⟨Zram.new capacity, []⟩ world ->
      ZramWorld.Serves capacity world) /\
    ((∀ world, Reached SwapWorld.Step ⟨SwapDevice.new size allocated, device, []⟩ world -> SwapWorld.Serves world) ↔
      ((SwapDevice.new size allocated).usable = true -> allocated.Nodup)) := by
  refine ⟨?_, SwapWorld.serves_iff⟩
  intro capacity small world run
  exact (ZramWorld.Sound.reached small run).serves

set_option maxRecDepth 2000 in
/-- Both stores are written to, one identifier is returned, and the next page gets it. -/
theorem stores_serve_after_return : ∃ store swapped, ∃ first second third : Page,
    ZramWorld.Serves 2 store /\ store.live = [(0, third), (1, second)] /\
      SwapWorld.Serves swapped /\ swapped.live = [(0, third), (1, second)] /\
      swapped.swap.read swapped.device 0 first = some third := by
  have run : ∃ s1 s2 s3 store, ∃ w1 w2 w3 swapped, ∃ first second third : Page,
      ZramWorld.Step ⟨Zram.new 2, []⟩ (.write first) s1 /\ ZramWorld.Step s1 (.write second) s2 /\
      ZramWorld.Step s2 (.discard 0) s3 /\ ZramWorld.Step s3 (.write third) store /\
      store.live = [(0, third), (1, second)] /\
      SwapWorld.Step ⟨SwapDevice.new 1 (range 256), fun _ => zero, []⟩ (.write first) w1 /\
      SwapWorld.Step w1 (.write second) w2 /\ SwapWorld.Step w2 (.discard 0) w3 /\
      SwapWorld.Step w3 (.write third) swapped /\ swapped.live = [(0, third), (1, second)] :=
    ⟨_, _, _, _, _, _, _, _, fun _ => 1, fun _ => 2, fun _ => 3, ⟨trivial, rfl⟩, ⟨trivial, rfl⟩, ⟨.tail _ (.head _), rfl⟩,
      ⟨trivial, rfl⟩, rfl, ⟨trivial, rfl⟩, ⟨trivial, rfl⟩, ⟨.tail _ (.head _), rfl⟩, ⟨trivial, rfl⟩, rfl⟩
  rcases run with ⟨s1, s2, s3, store, w1, w2, w3, swapped, first, second, third, a, b, c, d, kept, e, f, g, h, held⟩
  have serve := stores_serve_in_every_run_iff 1 (range 256) (fun _ => zero)
  have served := serve.1 2 (by decide) store (((Reached.refl.next a).next b |>.next c).next d)
  have swap := serve.2.mpr (fun _ => nodup_range) swapped (((Reached.refl.next e).next f |>.next g).next h)
  exact ⟨store, swapped, first, second, third, served, kept, swap, held, swap.read 0 third (by rw [held]; exact mem_cons_self) first⟩

/-- A FAT volume on which a file of one cluster has been removed. -/
def vacated : Fs.EasyFileSystem where
  geometry := { Fs.MountedVolume.smallGeometry with
    secPerClus := 8, clusterCount := 298
    secPerClus_pos := Nat.succ_pos 7, secPerClus_lt := by decide, fits := by decide }
  fat := (Fs.Fat.new { Fs.MountedVolume.smallLayout with totEnt := 300, totEnt_le := by decide }
    (fun sector offset => if sector = 32 /\ offset < 12 then Fs.eoc else Fs.fatEntryFree)).free [2] none
  blockDevice := fun _ _ => 0

/-- The volume gives the blocks of the free cluster twice, and two pages share each of them. -/
theorem swap_pages_share_blocks :
    (vacated.allocBlocks 256).take 16 = range' 64 8 ++ range' 64 8 /\
    ¬ ∀ world, Reached SwapWorld.Step ⟨SwapDevice.new 1 (vacated.allocBlocks 256), fun _ => zero, []⟩ world ->
      SwapWorld.Serves world := by
  have blocks : (vacated.allocBlocks 256).take 16 = range' 64 8 ++ range' 64 8 := by decide +kernel
  have usable : (SwapDevice.new 1 (vacated.allocBlocks 256)).usable = true := by decide +kernel
  refine ⟨blocks, fun serves => ?_⟩
  have distinct := (SwapWorld.serves_iff.mp serves usable).sublist (take_sublist 16 _)
  rw [blocks] at distinct
  exact absurd distinct (by decide +kernel)

end GCore.Mm
