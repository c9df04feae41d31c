import GCore.Library.Bytes
import GCore.Library.Run

namespace GCore.Fs

open Library List Function Option

/-!
# The block cache

`BlockCacheManager` has a pool of buffers for blocks of the device.  A buffer that is not
used has the largest number as its block.  `get_block_cache` returns the buffer that has the
block, or else it looks for an unused buffer and reads the block into it.  As long as there
is no unused buffer, `oom` goes over the pool: each buffer that no caller holds loses its
priority, or is written to its block if it is dirty and becomes unused.  This loop has no
bound in the source; here it has a number of rounds.

The callers are followed as a list of handles, each with the place of its buffer and the
block that it was asked for.  The flat array of blocks is followed beside the cache: it is
the device at first and changes only when a caller modifies a block.
-/

/-- The block of a buffer that is not used. -/
def unusedBlock : Nat := 2 ^ 64 - 1

def bufferPriorityUpperbound : Nat := 1

structure BufferCache where
  priority : Nat
  blockId : Nat
  dirty : Bool
  buffer : Memory

namespace BufferCache

def new (buffer : Memory) : BufferCache := ⟨0, unusedBlock, false, buffer⟩

section Operations

variable (cache : BufferCache)

def modify (change : Memory -> Memory) : BufferCache := { cache with dirty := true, buffer := change cache.buffer }

def readBlock (blockId : Nat) (device : Nat -> Memory) : BufferCache :=
  { cache with blockId := blockId, buffer := device blockId }

/-- The buffer has been asked for. -/
def touch : BufferCache :=
  { cache with priority := if cache.priority < bufferPriorityUpperbound then cache.priority + 1 else cache.priority }

/-- What `oom` makes of a buffer. -/
def relax (held : Bool) : BufferCache :=
  if held then cache
  else if 0 < cache.priority then { cache with priority := cache.priority - 1 }
  else { cache with dirty := false, blockId := unusedBlock }

/-- What `oom` writes for a buffer. -/
def flush (held : Bool) (device : Nat -> Memory) : Nat -> Memory :=
  if held = false /\ cache.priority = 0 /\ cache.dirty = true then Function.update device cache.blockId cache.buffer
  else device

end Operations

end BufferCache

open BufferCache

namespace BlockCacheManager

/-- The loop of `oom` from a place in the pool on. -/
def oomLoop (held : Nat -> Bool) : Nat -> List BufferCache -> (Nat -> Memory) -> List BufferCache × (Nat -> Memory)
  | _, [], device => ([], device)
  | place, cache :: rest, device =>
    let (rest, after) := oomLoop held (place + 1) rest (cache.flush (held place) device)
    (cache.relax (held place) :: rest, after)

def oom (held : Nat -> Bool) (pool : List BufferCache) (device : Nat -> Memory) : List BufferCache × (Nat -> Memory) :=
  oomLoop held 0 pool device

def allocBufferCache (held : Nat -> Bool) :
    Nat -> List BufferCache -> (Nat -> Memory) -> Option (Nat × List BufferCache × (Nat -> Memory))
  | 0, _, _ => none
  | rounds + 1, pool, device =>
    match pool.findIdx? (fun cache => cache.blockId = unusedBlock) with
    | some place => some (place, pool, device)
    | none => allocBufferCache held rounds (oom held pool device).1 (oom held pool device).2

def tryGetBlockCache (pool : List BufferCache) (blockId : Nat) : Option (Nat × List BufferCache) :=
  (pool.findIdx? (fun cache => cache.blockId = blockId)).map (fun place => (place, pool.modify place touch))

/-- With the place of the buffer. -/
def getBlockCache (held : Nat -> Bool) (rounds : Nat) (pool : List BufferCache) (device : Nat -> Memory) (blockId : Nat) :
    Option (Nat × List BufferCache × (Nat -> Memory)) :=
  match tryGetBlockCache pool blockId with
  | some (place, pool) => some (place, pool, device)
  | none =>
    (allocBufferCache held rounds pool device).map (fun (place, pool, device) =>
      (place, pool.modify place (fun cache => (cache.readBlock blockId device).touch), device))

end BlockCacheManager

structure BlockCacheWorld where
  pool : List BufferCache
  device : Nat -> Memory
  handles : List (Nat × Nat)
  contents : Nat -> Memory

inductive BlockCacheOp where
  | get (blockId : Nat)
  | modify (handle : Nat × Nat) (change : Memory -> Memory)
  | drop (handle : Nat × Nat)
  | oom

namespace BlockCacheWorld

open BlockCacheManager

def start (buffers : List Memory) (device : Nat -> Memory) : BlockCacheWorld :=
  ⟨buffers.map BufferCache.new, device, [], device⟩

/-- A caller has a handle on the buffer. -/
def held (world : BlockCacheWorld) (place : Nat) : Bool := world.handles.any (fun handle => handle.1 = place)

/-- With a number of rounds for the search of a buffer. -/
def exec (world : BlockCacheWorld) (rounds : Nat) : BlockCacheOp -> Option BlockCacheWorld
  | .get blockId =>
    (getBlockCache world.held rounds world.pool world.device blockId).map (fun (place, pool, device) =>
      { world with pool := pool, device := device, handles := (place, blockId) :: world.handles })
  | .modify handle change =>
    some { world with
      pool := world.pool.modify handle.1 (fun cache => cache.modify change)
      contents := Function.update world.contents handle.2 (change (world.contents handle.2)) }
  | .drop handle => some { world with handles := world.handles.erase handle }
  | .oom => some { world with pool := (oom world.held world.pool world.device).1, device := (oom world.held world.pool world.device).2 }

/-- Blocks have a number of their own, and only handles that exist are used. -/
def Admits (world : BlockCacheWorld) : BlockCacheOp -> Prop
  | .get blockId => blockId ≠ unusedBlock
  | .modify handle _ => handle ∈ world.handles
  | .drop handle => handle ∈ world.handles
  | .oom => True

def Step (before : BlockCacheWorld) (op : BlockCacheOp) (after : BlockCacheWorld) : Prop :=
  before.Admits op /\ ∃ rounds, before.exec rounds op = some after

end BlockCacheWorld

/-! ## The pool in front of the blocks -/

/-- The buffers of a pool have the blocks as they are in the flat array, and what is not in a
dirty buffer is on the device. -/
structure Buffered (contents : Nat -> Memory) (pool : List BufferCache) (device : Nat -> Memory) : Prop where
  single : ∀ (first second : Nat) (own other : BufferCache), pool[first]? = some own -> pool[second]? = some other ->
    own.blockId = other.blockId -> own.blockId ≠ unusedBlock -> first = second
  buffer : ∀ (place : Nat) (cache : BufferCache), pool[place]? = some cache -> cache.blockId ≠ unusedBlock ->
    cache.buffer = contents cache.blockId
  clean : ∀ (place : Nat) (cache : BufferCache), pool[place]? = some cache -> cache.blockId = unusedBlock ->
    cache.dirty = false
  priority : ∀ (place : Nat) (cache : BufferCache), pool[place]? = some cache ->
    cache.priority <= bufferPriorityUpperbound
  device : ∀ block ≠ unusedBlock,
    (∀ (place : Nat) (cache : BufferCache), pool[place]? = some cache -> cache.blockId = block -> cache.dirty = false) ->
    device block = contents block

variable {index : Nat}

namespace Buffered

open BlockCacheManager

variable {contents contents' : Nat -> Memory} {pool front rest : List BufferCache} {device device' : Nat -> Memory}
  {cache new : BufferCache} {place : Nat}

theorem getElem?_replaced (here : pool[place]? = some cache) {other : BufferCache}
    (found : (pool.set place new)[index]? = some other) :
    index = place /\ other = new \/ index ≠ place /\ pool[index]? = some other := by
  rcases List.getElem?_eq_some_iff.mp here with ⟨inside, _⟩
  by_cases same : index = place
  · subst same
    rw [getElem?_set_self inside] at found
    cases found
    exact .inl ⟨rfl, rfl⟩
  · rw [getElem?_set_ne (Ne.symm same)] at found
    exact .inr ⟨same, found⟩

variable (buffered : Buffered contents pool device)

include buffered

variable (here : pool[place]? = some cache)

include here

/-- Replace one buffer, with the flat array and the device after it. -/
theorem replace (low : new.priority <= bufferPriorityUpperbound)
    (clean : new.blockId = unusedBlock -> new.dirty = false)
    (filled : new.blockId ≠ unusedBlock -> new.buffer = contents' new.blockId)
    (alone : new.blockId ≠ unusedBlock -> ∀ (index : Nat) (other : BufferCache), index ≠ place ->
      pool[index]? = some other -> other.blockId ≠ new.blockId)
    (others : ∀ block ≠ unusedBlock, block ≠ new.blockId -> contents' block = contents block)
    (behind : ∀ block ≠ unusedBlock,
      (∀ (index : Nat) (other : BufferCache), index ≠ place -> pool[index]? = some other -> other.blockId = block ->
        other.dirty = false) ->
      (new.blockId = block -> new.dirty = false) -> device' block = contents' block) :
    Buffered contents' (pool.set place new) device' where
  single := by
    intro first second own other atFirst atSecond same used
    rcases getElem?_replaced here atFirst with ⟨atPlace, isNew⟩ | ⟨apart, old⟩
    · subst isNew
      rcases getElem?_replaced here atSecond with ⟨again, _⟩ | ⟨apart, old⟩
      · exact atPlace.trans again.symm
      · exact absurd same.symm (alone used second other apart old)
    · rcases getElem?_replaced here atSecond with ⟨_, isNew⟩ | ⟨_, otherOld⟩
      · subst isNew
        exact absurd same (alone (same ▸ used) first own apart old)
      · exact buffered.single first second own other old otherOld same used
  buffer := by
    intro index other found used
    rcases getElem?_replaced here found with ⟨_, isNew⟩ | ⟨apart, old⟩
    · subst isNew
      exact filled used
    · by_cases same : other.blockId = new.blockId
      · exact absurd same (alone (same ▸ used) index other apart old)
      · rw [others _ used same]
        exact buffered.buffer index other old used
  clean := by
    intro index other found unused
    rcases getElem?_replaced here found with ⟨_, isNew⟩ | ⟨_, old⟩
    · subst isNew
      exact clean unused
    · exact buffered.clean index other old unused
  priority := by
    intro index other found
    rcases getElem?_replaced here found with ⟨_, isNew⟩ | ⟨_, old⟩
    · subst isNew
      exact low
    · exact buffered.priority index other old
  device := by
    intro block used undirty
    rcases List.getElem?_eq_some_iff.mp here with ⟨inside, _⟩
    refine behind block used ?_ ?_
    · intro index other apart old
      exact undirty index other ((getElem?_set_ne (Ne.symm apart)).trans old)
    · exact undirty place new (getElem?_set_self inside)

/-- A block is on the device if the buffer at a place and those elsewhere agree on that. -/
theorem device_eq {block : Nat} (used : block ≠ unusedBlock) (undirty : ∀ (index : Nat) (other : BufferCache),
      index ≠ place -> pool[index]? = some other -> other.blockId = block -> other.dirty = false)
    (own : cache.blockId = block -> cache.dirty = false) : device block = contents block := by
  refine buffered.device block used ?_
  intro index other there same
  by_cases atPlace : index = place
  · subst atPlace
    rw [here] at there
    cases there
    exact own same
  · exact undirty index other atPlace there same

/-- A buffer that keeps its block and its data. -/
theorem refresh (low : new.priority <= bufferPriorityUpperbound) (block : new.blockId = cache.blockId)
    (dirty : new.dirty = cache.dirty) (data : new.buffer = cache.buffer) :
    Buffered contents (pool.set place new) device := by
  refine buffered.replace here low ?_ ?_ ?_ (fun _ _ _ => rfl) ?_
  · rw [block, dirty]
    exact buffered.clean place cache here
  · rw [block, data]
    exact buffered.buffer place cache here
  · rw [block]
    intro used index other apart old same
    exact apart (buffered.single index place other cache old here same (same ▸ used))
  · intro number used undirty own
    exact buffered.device_eq here used undirty fun same => dirty ▸ own (block.trans same)

theorem touch : Buffered contents (pool.set place cache.touch) device := by
  refine buffered.refresh here ?_ rfl rfl rfl
  have low := buffered.priority place cache here
  unfold BufferCache.touch bufferPriorityUpperbound at *
  dsimp only
  split
  · omega
  · exact low

/-- A buffer that nobody holds is written to its block before it is given up. -/
theorem evict (zero : cache.priority = 0) :
    Buffered contents (pool.set place { cache with dirty := false, blockId := unusedBlock })
      (cache.flush false device) := by
  refine buffered.replace here (buffered.priority place cache here) (fun _ => rfl) (fun used => absurd rfl used)
    (fun used => absurd rfl used) (fun _ _ _ => rfl) ?_
  intro block used undirty _
  unfold flush
  by_cases dirty : cache.dirty = true
  · rw [if_pos ⟨rfl, zero, dirty⟩]
    have numbered : cache.blockId ≠ unusedBlock := by
      intro unused
      rw [buffered.clean place cache here unused] at dirty
      cases dirty
    by_cases own : block = cache.blockId
    · subst own
      rw [update_self]
      exact buffered.buffer place cache here numbered
    · rw [update_of_ne own]
      exact buffered.device_eq here used undirty fun same => absurd same.symm own
  · rw [if_neg (fun all => dirty all.2.2)]
    exact buffered.device_eq here used undirty fun _ => Bool.eq_false_iff.mpr dirty

theorem relax (held : Bool) :
    Buffered contents (pool.set place (cache.relax held)) (cache.flush held device) := by
  have low := buffered.priority place cache here
  cases held with
  | true => exact buffered.refresh here low rfl rfl rfl
  | false =>
    by_cases zero : cache.priority = 0
    · have given : cache.relax false = { cache with dirty := false, blockId := unusedBlock } := by
        unfold BufferCache.relax
        rw [if_neg Bool.false_ne_true, if_neg (by omega)]
      rw [given]
      exact buffered.evict here zero
    · have lower : cache.relax false = { cache with priority := cache.priority - 1 } := by
        unfold BufferCache.relax
        rw [if_neg Bool.false_ne_true, if_pos (by omega)]
      have kept : cache.flush false device = device := if_neg (fun all => zero all.2.1)
      rw [lower, kept]
      exact buffered.refresh here (le_trans (Nat.sub_le _ _) low) rfl rfl rfl

omit here

omit buffered

/-- The loop keeps the blocks, whatever has been gone over in front of it. -/
theorem oomLoop (held : Nat -> Bool) (buffered : Buffered contents (front ++ rest) device) :
    Buffered contents (front ++ (BlockCacheManager.oomLoop held front.length rest device).1)
      (BlockCacheManager.oomLoop held front.length rest device).2 := by
  induction rest generalizing front device with
  | nil => exact buffered
  | cons cache rest ih =>
    have here : (front ++ cache :: rest)[front.length]? = some cache := by
      rw [getElem?_append_right le_rfl, Nat.sub_self, getElem?_cons_zero]
    have one := buffered.relax here (held front.length)
    have placed : (front ++ cache :: rest).set front.length (cache.relax (held front.length)) =
        (front ++ [cache.relax (held front.length)]) ++ rest := by
      rw [set_append_right _ _ le_rfl, Nat.sub_self, append_assoc]
      rfl
    rw [placed] at one
    have following := ih one
    rw [length_append, length_singleton, append_assoc] at following
    exact following

theorem oom (held : Nat -> Bool) (buffered : Buffered contents pool device) :
    Buffered contents (BlockCacheManager.oom held pool device).1 (BlockCacheManager.oom held pool device).2 :=
  @Buffered.oomLoop contents [] pool device held buffered

end Buffered

/-- What `oom` makes of each buffer. -/
theorem BlockCacheManager.getElem?_oomLoop (held : Nat -> Bool) (start : Nat) (pool : List BufferCache)
    (device : Nat -> Memory) (place : Nat) :
    (oomLoop held start pool device).1[place]? = pool[place]?.map (fun cache => cache.relax (held (start + place))) := by
  induction pool generalizing start device place with
  | nil => rfl
  | cons cache rest ih =>
    cases place with
    | zero => rfl
    | succ place =>
      have following := ih (start + 1) (cache.flush (held start) device) place
      rw [Nat.add_assoc, Nat.add_comm 1 place] at following
      exact following

theorem BlockCacheManager.getElem?_oom (held : Nat -> Bool) (pool : List BufferCache) (device : Nat -> Memory) (place : Nat) :
    (oom held pool device).1[place]? = pool[place]?.map (fun cache => cache.relax (held place)) := by
  have pointwise := getElem?_oomLoop held 0 pool device place
  rw [Nat.zero_add] at pointwise
  exact pointwise

/-! ## The search for a buffer -/

namespace BlockCacheManager

variable {contents : Nat -> Memory} {held : Nat -> Bool} {rounds : Nat} {pool after : List BufferCache}
  {device device' : Nat -> Memory} {place blockId : Nat} {cache : BufferCache}

theorem modify_eq_set (here : pool[place]? = some cache) (change : BufferCache -> BufferCache) :
    pool.modify place change = pool.set place (change cache) := by
  rw [modify_eq_set_getElem?, here]
  rfl

theorem findIdx?_block (found : pool.findIdx? (fun cache => cache.blockId = blockId) = some place) :
    ∃ cache, pool[place]? = some cache /\ cache.blockId = blockId := by
  rcases findIdx?_eq_some_iff_getElem.mp found with ⟨inside, same, _⟩
  exact ⟨pool[place], getElem?_eq_getElem inside, of_decide_eq_true same⟩

theorem findIdx?_none (nothing : pool.findIdx? (fun cache => cache.blockId = blockId) = none)
    (here : pool[index]? = some cache) : cache.blockId ≠ blockId := by
  have all := findIdx?_eq_none_iff.mp nothing cache (mem_of_getElem? here)
  exact of_decide_eq_false all

/-- Nothing but the blocks of buffers that nobody holds is given up. -/
theorem relax_blockId (cache : BufferCache) (held : Bool) :
    (cache.relax held).blockId = cache.blockId \/ held = false /\ (cache.relax held).blockId = unusedBlock := by
  unfold relax
  cases held with
  | true => exact .inl rfl
  | false =>
    rw [if_neg Bool.false_ne_true]
    split
    · exact .inl rfl
    · exact .inr ⟨rfl, rfl⟩

/-- What the search leaves: the blocks of held buffers, and no block that was not there. -/
structure Searched (held : Nat -> Bool) (pool after : List BufferCache) : Prop where
  kept : ∀ (index : Nat) (cache : BufferCache), held index = true -> pool[index]? = some cache ->
    after[index]? = some cache
  fewer : ∀ (index : Nat) (cache : BufferCache), after[index]? = some cache -> cache.blockId ≠ unusedBlock ->
    ∃ old : BufferCache, pool[index]? = some old /\ old.blockId = cache.blockId

theorem Searched.refl (held : Nat -> Bool) (pool : List BufferCache) : Searched held pool pool :=
  ⟨fun _ _ _ here => here, fun _ cache here _ => ⟨cache, here, rfl⟩⟩

theorem Searched.trans {middle : List BufferCache} (first : Searched held pool middle) (second : Searched held middle after) :
    Searched held pool after where
  kept := fun index cache own here => second.kept index cache own (first.kept index cache own here)
  fewer := by
    intro index cache here used
    rcases second.fewer index cache here used with ⟨old, there, same⟩
    rcases first.fewer index old there (same ▸ used) with ⟨oldest, origin, again⟩
    exact ⟨oldest, origin, again.trans same⟩

theorem searched_oom (held : Nat -> Bool) (pool : List BufferCache) (device : Nat -> Memory) :
    Searched held pool (oom held pool device).1 where
  kept := by
    intro index cache own here
    rw [getElem?_oom, here, map_some, own]
    rfl
  fewer := by
    intro index cache here used
    rw [getElem?_oom] at here
    rcases map_eq_some_iff.mp here with ⟨old, there, rfl⟩
    rcases relax_blockId old (held index) with same | ⟨_, unused⟩
    · exact ⟨old, there, same.symm⟩
    · exact absurd unused used

theorem allocBufferCache_spec (buffered : Buffered contents pool device)
    (done : allocBufferCache held rounds pool device = some (place, after, device')) :
    Buffered contents after device' /\ Searched held pool after /\
      ∃ cache, after[place]? = some cache /\ cache.blockId = unusedBlock := by
  induction rounds generalizing pool device with
  | zero => cases done
  | succ rounds ih =>
    rw [allocBufferCache] at done
    cases found : pool.findIdx? (fun cache => cache.blockId = unusedBlock) with
    | some unused =>
      rw [found] at done
      cases done
      exact ⟨buffered, Searched.refl held _, findIdx?_block found⟩
    | none =>
      rw [found] at done
      rcases ih (buffered.oom held) done with ⟨final, searched, unused⟩
      exact ⟨final, (searched_oom held pool device).trans searched, unused⟩

theorem getBlockCache_spec (buffered : Buffered contents pool device) (used : blockId ≠ unusedBlock)
    (done : getBlockCache held rounds pool device blockId = some (place, after, device')) :
    Buffered contents after device' /\ (∃ cache, after[place]? = some cache /\ cache.blockId = blockId) /\
      ∀ (index : Nat) (cache : BufferCache), held index = true -> pool[index]? = some cache ->
        cache.blockId ≠ unusedBlock ->
        ∃ later : BufferCache, after[index]? = some later /\ later.blockId = cache.blockId := by
  unfold getBlockCache tryGetBlockCache at done
  cases found : pool.findIdx? (fun cache => cache.blockId = blockId) with
  | some present =>
    rw [found] at done
    cases done
    rcases findIdx?_block found with ⟨cache, here, own⟩
    rcases List.getElem?_eq_some_iff.mp here with ⟨inside, _⟩
    rw [modify_eq_set here]
    refine ⟨buffered.touch here, ⟨cache.touch, getElem?_set_self inside, own⟩, ?_⟩
    intro index other _ there _
    by_cases same : index = place
    · subst same
      rw [here] at there
      cases there
      exact ⟨cache.touch, getElem?_set_self inside, rfl⟩
    · exact ⟨other, (getElem?_set_ne (Ne.symm same)).trans there, rfl⟩
  | none =>
    rw [found] at done
    rcases map_eq_some_iff.mp done with ⟨⟨_, searchedPool, _⟩, allocated, same⟩
    cases same
    rcases allocBufferCache_spec buffered allocated with ⟨between, searched, cache, here, unused⟩
    rcases List.getElem?_eq_some_iff.mp here with ⟨inside, _⟩
    have absent : ∀ (index : Nat) (other : BufferCache), searchedPool[index]? = some other -> other.blockId ≠ blockId := by
      intro index other there same
      rcases searched.fewer index other there (same ▸ used) with ⟨_, origin, again⟩
      exact findIdx?_none found origin (again.trans same)
    have read : Buffered contents (searchedPool.set place (cache.readBlock blockId device')) device' := by
      refine between.replace here (between.priority place cache here) (fun unusedNow => absurd unusedNow used) ?_ ?_
        (fun _ _ _ => rfl) ?_
      · intro _
        exact between.device blockId used (fun index other there same => absurd same (absent index other there))
      · intro _ index other _ there
        exact absent index other there
      · intro block usedBlock undirty _
        exact between.device_eq here usedBlock undirty fun _ => between.clean place cache here unused
    have touched := read.touch (getElem?_set_self inside)
    rw [set_set] at touched
    rw [modify_eq_set here]
    refine ⟨touched, ⟨_, getElem?_set_self inside, rfl⟩, ?_⟩
    intro index other own there numbered
    have still := searched.kept index other own there
    by_cases same : index = place
    · subst same
      rw [here] at still
      cases still
      exact absurd unused numbered
    · exact ⟨other, (getElem?_set_ne (Ne.symm same)).trans still, rfl⟩

/-! ## Termination -/

/-- A buffer that nobody holds is unused after two rounds. -/
theorem unused_after_rounds (low : cache.priority <= bufferPriorityUpperbound) :
    ((cache.relax false).relax false).blockId = unusedBlock \/ (cache.relax false).blockId = unusedBlock := by
  unfold bufferPriorityUpperbound at low
  unfold relax
  by_cases positive : 0 < cache.priority
  · left
    simp [positive, show cache.priority - 1 = 0 by omega]
  · right
    simp [positive]

theorem isSome_alloc_of_unused (here : pool[index]? = some cache) (unused : cache.blockId = unusedBlock) :
    (allocBufferCache held (rounds + 1) pool device).isSome = true := by
  rw [allocBufferCache]
  cases found : pool.findIdx? (fun cache => cache.blockId = unusedBlock) with
  | some place => rfl
  | none => exact absurd unused (findIdx?_none found here)

theorem isSome_alloc_of_oom
    (later : (allocBufferCache held rounds (oom held pool device).1 (oom held pool device).2).isSome = true) :
    (allocBufferCache held (rounds + 1) pool device).isSome = true := by
  rw [allocBufferCache]
  cases found : pool.findIdx? (fun cache => cache.blockId = unusedBlock) with
  | some place => rfl
  | none => exact later

/-- Three rounds are enough if there is a buffer that nobody holds. -/
theorem isSome_alloc (buffered : Buffered contents pool device) (here : pool[index]? = some cache)
    (free : held index = false) : (allocBufferCache held 3 pool device).isSome = true := by
  have first : (oom held pool device).1[index]? = some (cache.relax false) := by
    rw [getElem?_oom, here, free]
    rfl
  have second : (oom held (oom held pool device).1 (oom held pool device).2).1[index]? =
      some ((cache.relax false).relax false) := by
    rw [getElem?_oom, first, free]
    rfl
  refine isSome_alloc_of_oom ?_
  rcases unused_after_rounds (buffered.priority index cache here) with late | early
  · exact isSome_alloc_of_oom (isSome_alloc_of_unused second late)
  · exact isSome_alloc_of_unused first early

end BlockCacheManager

/-! ## Runs -/

namespace BlockCacheWorld

open BlockCacheManager

variable {world after : BlockCacheWorld} {rounds : Nat}

/-- The pool is in order, and each handle is on a buffer with its block. -/
structure Sound (world : BlockCacheWorld) : Prop where
  buffered : Buffered world.contents world.pool world.device
  handles : ∀ handle ∈ world.handles, handle.2 ≠ unusedBlock /\
    ∃ cache : BufferCache, world.pool[handle.1]? = some cache /\ cache.blockId = handle.2

variable {handle : Nat × Nat}

theorem held_of_mem (member : handle ∈ world.handles) : world.held handle.1 = true :=
  any_eq_true.mpr ⟨handle, member, decide_eq_true rfl⟩

theorem Sound.start (buffers : List Memory) (device : Nat -> Memory) : Sound (start buffers device) where
  buffered := by
    have fresh : ∀ (place : Nat) (cache : BufferCache), (BlockCacheWorld.start buffers device).pool[place]? = some cache ->
        cache.blockId = unusedBlock /\ cache.dirty = false /\ cache.priority = 0 := by
      intro place cache here
      change (buffers.map BufferCache.new)[place]? = some cache at here
      rw [getElem?_map] at here
      rcases map_eq_some_iff.mp here with ⟨_, _, rfl⟩
      exact ⟨rfl, rfl, rfl⟩
    refine ⟨?_, ?_, ?_, ?_, fun _ _ _ => rfl⟩
    · intro first second own other atFirst _ _ used
      exact absurd (fresh first own atFirst).1 used
    · intro place cache here used
      exact absurd (fresh place cache here).1 used
    · intro place cache here _
      exact (fresh place cache here).2.1
    · intro place cache here
      rw [(fresh place cache here).2.2]
      exact Nat.zero_le _
  handles := nofun

variable (sound : Sound world)

include sound

theorem Sound.get {blockId : Nat} (used : blockId ≠ unusedBlock)
    (done : world.exec rounds (.get blockId) = some after) : Sound after := by
  rcases map_eq_some_iff.mp done with ⟨⟨_, _⟩, got, same⟩
  cases same
  rcases getBlockCache_spec sound.buffered used got with ⟨buffered, own, others⟩
  refine ⟨buffered, ?_⟩
  intro handle member
  rcases mem_cons.mp member with rfl | old
  · exact ⟨used, own⟩
  · rcases sound.handles handle old with ⟨numbered, cache, here, same⟩
    rcases others handle.1 cache (held_of_mem old) here (same ▸ numbered) with ⟨later, there, again⟩
    exact ⟨numbered, later, there, again.trans same⟩

theorem Sound.modify (member : handle ∈ world.handles)
    (change : Memory -> Memory) (done : world.exec rounds (.modify handle change) = some after) : Sound after := by
  cases done
  rcases sound.handles handle member with ⟨numbered, cache, here, own⟩
  rcases List.getElem?_eq_some_iff.mp here with ⟨inside, _⟩
  have pool := modify_eq_set here (fun cache => cache.modify change)
  constructor
  · dsimp only
    rw [pool]
    refine sound.buffered.replace here (sound.buffered.priority _ cache here) ?_ ?_ ?_ ?_ ?_
    · intro unused
      exact absurd (own.symm.trans unused) numbered
    · intro _
      have data := sound.buffered.buffer _ cache here (own ▸ numbered)
      have put : update world.contents handle.2 (change (world.contents handle.2)) cache.blockId =
          change (world.contents handle.2) := by rw [own, update_self]
      refine Eq.trans ?_ put.symm
      change change cache.buffer = _
      rw [data, own]
    · intro used index other apart there same
      exact apart (sound.buffered.single index handle.1 other cache there here same (same ▸ used))
    · intro block _ different
      exact update_of_ne (fun equal => different (equal.trans own.symm)) _ _
    · intro block used undirty clean
      have different : block ≠ handle.2 := by
        rintro rfl
        exact Bool.noConfusion (clean own)
      rw [update_of_ne different]
      exact sound.buffered.device_eq here used undirty fun same => absurd (same.symm.trans own) different
  · intro other otherMember
    rcases sound.handles other otherMember with ⟨otherNumbered, otherCache, otherHere, otherOwn⟩
    refine ⟨otherNumbered, ?_⟩
    rw [pool]
    by_cases same : other.1 = handle.1
    · rw [same] at otherHere ⊢
      rw [here] at otherHere
      cases otherHere
      exact ⟨_, getElem?_set_self inside, otherOwn⟩
    · exact ⟨otherCache, (getElem?_set_ne (Ne.symm same)).trans otherHere, otherOwn⟩

theorem Sound.step {op : BlockCacheOp} (taken : Step world op after) : Sound after := by
  rcases taken with ⟨admitted, _, done⟩
  cases op with
  | get blockId => exact sound.get admitted done
  | modify handle change => exact sound.modify admitted change done
  | drop handle =>
    cases done
    exact ⟨sound.buffered, fun other member => sound.handles other (mem_of_mem_erase member)⟩
  | oom =>
    cases done
    refine ⟨sound.buffered.oom world.held, ?_⟩
    intro handle member
    rcases sound.handles handle member with ⟨numbered, cache, here, own⟩
    exact ⟨numbered, cache, (searched_oom world.held world.pool world.device).kept _ cache (held_of_mem member) here, own⟩

/-- What the cache owes to its callers. -/
structure Serves (world : BlockCacheWorld) : Prop where
  single : ∀ (first second : Nat) (own other : BufferCache), world.pool[first]? = some own ->
    world.pool[second]? = some other -> own.blockId = other.blockId -> own.blockId ≠ unusedBlock -> first = second
  read : ∀ handle ∈ world.handles, ∃ cache : BufferCache,
    world.pool[handle.1]? = some cache /\ cache.blockId = handle.2 /\ cache.buffer = world.contents handle.2
  flushed : ∀ block ≠ unusedBlock, (∀ cache ∈ world.pool, cache.blockId ≠ block) ->
    world.device block = world.contents block
  terminates : (∃ place, place < world.pool.length /\ world.held place = false) ->
    ∀ blockId, ∃ rounds, (world.exec rounds (.get blockId)).isSome = true

theorem Sound.terminates {place : Nat} (inside : place < world.pool.length)
    (free : world.held place = false) (blockId : Nat) : (world.exec 3 (.get blockId)).isSome = true := by
  change (Option.map _ (getBlockCache world.held 3 world.pool world.device blockId)).isSome = true
  rw [isSome_map]
  unfold getBlockCache
  cases tryGetBlockCache world.pool blockId with
  | some found => rfl
  | none =>
    rw [isSome_map]
    exact isSome_alloc sound.buffered (getElem?_eq_getElem inside) free

omit sound

/-- In every run over blocks with numbers of their own, a block is in one buffer at most, a handle
reads the last value of its block, what is in no buffer is on the device, and the search for a
buffer ends if there is one that nobody holds. -/
theorem cache_serves_in_every_run {buffers : List Memory} {device : Nat -> Memory} {world : BlockCacheWorld}
    (run : Reached Step (start buffers device) world) : Serves world := by
  have sound : Sound world := run.invariant (Sound.start buffers device) (fun _ _ _ sound taken => sound.step taken)
  constructor
  · exact sound.buffered.single
  · intro handle member
    rcases sound.handles handle member with ⟨numbered, cache, here, own⟩
    refine ⟨cache, here, own, ?_⟩
    rw [<- own]
    exact sound.buffered.buffer _ cache here (own ▸ numbered)
  · intro block used absent
    refine sound.buffered.device block used ?_
    intro place cache here same
    exact absurd same (absent cache (mem_of_getElem? here))
  · rintro ⟨place, inside, free⟩ blockId
    exact ⟨3, sound.terminates inside free blockId⟩

/-- Block 5 is changed and has to leave the only buffer for block 6. -/
theorem sixth_block_is_served :
    ∃ world, Reached Step (start [fun _ => 1] (fun _ _ => 0)) world /\ world.handles = [(0, 6)] /\
      world.device 5 = (fun _ => 9) /\ Serves world := by
  let nines : Memory := fun _ => 9
  let zeros : Nat -> Memory := fun _ _ => 0
  let changed : Nat -> Memory := Function.update zeros 5 nines
  let first : BlockCacheWorld := ⟨[⟨1, 5, false, zeros 5⟩], zeros, [(0, 5)], zeros⟩
  let second : BlockCacheWorld := ⟨[⟨1, 5, true, nines⟩], zeros, [(0, 5)], changed⟩
  let third : BlockCacheWorld := { second with handles := [] }
  let last : BlockCacheWorld := ⟨[⟨1, 6, false, zeros 6⟩], changed, [(0, 6)], changed⟩
  have got : Step (start [fun _ => 1] zeros) (.get 5) first := ⟨(by decide : 5 ≠ unusedBlock), 3, rfl⟩
  have modified : Step first (.modify (0, 5) (fun _ => nines)) second := ⟨mem_cons_self, 0, rfl⟩
  have dropped : Step second (.drop (0, 5)) third := ⟨mem_cons_self, 0, rfl⟩
  have evicted : Step third (.get 6) last := ⟨(by decide : 6 ≠ unusedBlock), 3, rfl⟩
  have run := (((Reached.refl.next got).next modified).next dropped).next evicted
  exact ⟨last, run, rfl, Function.update_self 5 nines zeros, cache_serves_in_every_run run⟩

/-- The number of unused buffers is not a block: what is read for it is an old buffer. -/
theorem unused_number_reads_old_buffer :
    ∃ world, (start [fun _ => 1] (fun _ _ => 0)).exec 3 (.get unusedBlock) = some world /\
      (0, unusedBlock) ∈ world.handles /\
      ∃ cache : BufferCache, world.pool[0]? = some cache /\ cache.buffer ≠ world.contents unusedBlock := by
  refine ⟨⟨[⟨1, unusedBlock, false, fun _ => 1⟩], fun _ _ => 0, [(0, unusedBlock)], fun _ _ => 0⟩, rfl,
    mem_cons_self, ⟨1, unusedBlock, false, fun _ => 1⟩, rfl, ?_⟩
  intro same
  have byte := congrFun same 0
  exact absurd byte (by decide)

end BlockCacheWorld

end GCore.Fs
