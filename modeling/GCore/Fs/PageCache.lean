import GCore.Library.WriteBack

namespace GCore.Fs

open Library List Function Option WriteBack

/-!
# The page cache of a file

`PageCacheManager` holds the pages of one file that are in memory.  A page is as large as a
block of the device, so that there is at most one block behind it, and `read_in` and
`write_back` move that block.  All frames are mapped with the dirty bit, which is never
cleared here, so `sync` always writes.

A new page is given a frame as it is.  If there is no block behind the page, then the frame
keeps what it had.  Between the calls nobody else holds a page.
-/

def cacheSz : Nat := 4096

/-- The value of a word as `isize`. -/
def toIsize (word : Nat) : Int := if word < 2 ^ 63 then word else (word : Int) - 2 ^ 64

def priorityUpperbound : Nat := 1

structure PageCache where
  priority : Nat
  pagePtr : Memory

namespace PageCache

def new (frame : Memory) : PageCache := ⟨0, frame⟩

/-- With more than one block it is a panic. -/
def readIn (page : PageCache) (blockDevice : Nat -> Memory) : List Nat -> Option PageCache
  | [] => some page
  | [block] => some { page with pagePtr := blockDevice block }
  | _ => none

def writeBack (page : PageCache) (blockDevice : Nat -> Memory) : List Nat -> Option (Nat -> Memory)
  | [] => some blockDevice
  | [block] => some (Function.update blockDevice block page.pagePtr)
  | _ => none

/-- The page has been asked for. -/
def touch (page : PageCache) : PageCache :=
  { page with priority := if page.priority < priorityUpperbound then page.priority + 1 else page.priority }

end PageCache

open PageCache

structure PageCacheManager where
  cachePool : List (Option PageCache)
  allocatedCache : List Nat

namespace PageCacheManager

def new : PageCacheManager := ⟨[], []⟩

section Operations

variable (manager : PageCacheManager)

def page (innerCacheId : Nat) : Option PageCache := manager.cachePool[innerCacheId]?.join

def setPage (innerCacheId : Nat) (page : Option PageCache) : PageCacheManager :=
  { manager with cachePool := manager.cachePool.set innerCacheId page }

/-- Make the pool long enough. -/
def extend (innerCacheId : Nat) : PageCacheManager :=
  { manager with
    cachePool := manager.cachePool ++ List.replicate (innerCacheId + 1 - manager.cachePool.length) none }

def getCache (innerCacheId : Nat) (neighbor : List Nat) (blockDevice : Nat -> Memory) (frame : Memory) :
    Option PageCacheManager :=
  let manager := manager.extend innerCacheId
  match manager.page innerCacheId with
  | some page => some (manager.setPage innerCacheId (some page.touch))
  | none =>
    ((PageCache.new frame).readIn blockDevice neighbor).map (fun page =>
      { manager.setPage innerCacheId (some page.touch) with
        allocatedCache := manager.allocatedCache ++ [innerCacheId] })

/-- One round of `oom`, with the pages that stay. -/
def oomOne (neighbor : Nat -> List Nat) (state : PageCacheManager × (Nat -> Memory) × List Nat) (innerCacheId : Nat) :
    Option (PageCacheManager × (Nat -> Memory) × List Nat) :=
  (state.1.page innerCacheId).bind (fun page =>
    if 0 < page.priority then
      some (state.1.setPage innerCacheId (some { page with priority := page.priority - 1 }), state.2.1,
        state.2.2 ++ [innerCacheId])
    else
      (page.writeBack state.2.1 (neighbor innerCacheId)).map (fun blockDevice =>
        (state.1.setPage innerCacheId none, blockDevice, state.2.2)))

def oom (neighbor : Nat -> List Nat) (blockDevice : Nat -> Memory) : Option (PageCacheManager × (Nat -> Memory)) :=
  (manager.allocatedCache.foldlM (oomOne neighbor) (manager, blockDevice, [])).map (fun state =>
    ({ state.1 with allocatedCache := state.2.2 }, state.2.1))

def notifyNewSize (newSize : Nat) : PageCacheManager :=
  let newPages := (newSize + cacheSz - 1) / cacheSz
  { cachePool := manager.cachePool.take newPages
    allocatedCache := manager.allocatedCache.filter (· < newPages) }

/-! ## The cache as pages in front of blocks -/

def store (block : Nat -> Option Nat) (blockDevice : Nat -> Memory) : WriteBack where
  cached := fun innerCacheId => (manager.page innerCacheId).map pagePtr
  block := block
  device := blockDevice

/-- The pages that are listed as allocated are there, and listed once. -/
structure Listed : Prop where
  nodup : manager.allocatedCache.Nodup
  present : ∀ innerCacheId ∈ manager.allocatedCache, (manager.page innerCacheId).isSome

end Operations

variable {manager : PageCacheManager} {block : Nat -> Option Nat} {blockDevice : Nat -> Memory} {innerCacheId : Nat}

theorem page_extend (manager : PageCacheManager) (innerCacheId other : Nat) :
    (manager.extend innerCacheId).page other = manager.page other := by
  unfold page extend
  rcases lt_or_ge other manager.cachePool.length with inside | outside
  · rw [getElem?_append_left inside]
  · rw [getElem?_append_right outside, getElem?_eq_none outside, getElem?_replicate]
    split <;> rfl

theorem page_setPage {page : Option PageCache} (inside : innerCacheId < manager.cachePool.length) (other : Nat) :
    (manager.setPage innerCacheId page).page other = if other = innerCacheId then page else manager.page other := by
  unfold PageCacheManager.page setPage
  by_cases same : other = innerCacheId
  · subst same
    rw [if_pos rfl, getElem?_set_self inside, join_some]
  · rw [if_neg same, getElem?_set_ne (fun equal => same equal.symm)]

variable {state : PageCacheManager × (Nat -> Memory) × List Nat} {before : WriteBack} {page : PageCache}
  {rest : List Nat}

theorem length_of_page (here : manager.page innerCacheId = some page) :
    innerCacheId < manager.cachePool.length := by
  rcases lt_or_ge innerCacheId manager.cachePool.length with inside | outside
  · exact inside
  · unfold PageCacheManager.page at here
    rw [getElem?_eq_none outside] at here
    cases here

theorem length_extend (manager : PageCacheManager) (innerCacheId : Nat) :
    innerCacheId < (manager.extend innerCacheId).cachePool.length := by
  unfold extend
  rw [length_append, length_replicate]
  omega

/-- A page that is written leaves the others in the cache. -/
theorem store_setPage (inside : innerCacheId < manager.cachePool.length) :
    (manager.setPage innerCacheId (some page)).store block blockDevice =
      (manager.store block blockDevice).put innerCacheId page.pagePtr := by
  unfold store put
  congr 1
  funext other
  rw [page_setPage inside]
  by_cases same : other = innerCacheId
  · subst same
    rw [if_pos rfl, update_self]
    rfl
  · rw [if_neg same, update_of_ne same]

theorem store_extend (manager : PageCacheManager) (innerCacheId : Nat) :
    (manager.extend innerCacheId).store block blockDevice = manager.store block blockDevice := by
  unfold store
  congr 1
  funext other
  rw [page_extend]

/-- Nothing changes where a page is stored over itself. -/
theorem store_setPage_same (page : PageCache) {old : PageCache} (here : manager.page innerCacheId = some old)
    (same : page.pagePtr = old.pagePtr) :
    (manager.setPage innerCacheId (some page)).store block blockDevice = manager.store block blockDevice := by
  rw [store_setPage (length_of_page here)]
  unfold put
  have cached : (manager.store block blockDevice).cached innerCacheId = some page.pagePtr := by
    change (manager.page innerCacheId).map pagePtr = _
    rw [here, same, map_some]
  rw [<- cached, update_eq_self]

theorem getCache_spec (listed : manager.Listed) (frame : Memory) :
    ∃ after, manager.getCache innerCacheId (block innerCacheId).toList blockDevice frame = some after /\
      after.store block blockDevice = (manager.store block blockDevice).load innerCacheId frame /\
      (after.page innerCacheId).isSome /\ after.Listed := by
  have inside := length_extend manager innerCacheId
  unfold getCache
  dsimp only
  cases here : (manager.extend innerCacheId).page innerCacheId with
  | some page =>
    have own := here
    rw [page_extend] at own
    refine ⟨_, rfl, ?_, ?_, listed.nodup, ?_⟩
    · rw [store_setPage_same page.touch here rfl, store_extend]
      unfold load
      have cached : (manager.store block blockDevice).cached innerCacheId = some page.pagePtr := by
        change (manager.page innerCacheId).map pagePtr = _
        rw [own, map_some]
      rw [cached]
    · rw [page_setPage inside, if_pos rfl]
      rfl
    · intro other member
      rw [page_setPage inside]
      split
      · rfl
      · rw [page_extend]
        exact listed.present other member
  | none =>
    have own := here
    rw [page_extend] at own
    have missing : (manager.store block blockDevice).cached innerCacheId = none := by
      change (manager.page innerCacheId).map pagePtr = _
      rw [own, map_none]
    have fresh : innerCacheId ∉ manager.allocatedCache := by
      intro member
      have there := listed.present innerCacheId member
      rw [own] at there
      cases there
    have loaded : ∃ page, (PageCache.new frame).readIn blockDevice (block innerCacheId).toList = some page /\
        page.pagePtr = (block innerCacheId).elim frame blockDevice := by
      cases block innerCacheId with
      | none | some number => exact ⟨_, rfl, rfl⟩
    rcases loaded with ⟨page, read, bytes⟩
    have placed (other : Nat) : ((manager.extend innerCacheId).setPage innerCacheId (some page.touch)).page other =
        if other = innerCacheId then some page.touch else manager.page other := by
      rw [page_setPage inside, page_extend]
    refine ⟨_, by rw [read, map_some], ?_, ?_, ?_, ?_⟩
    · have stored := @store_setPage _ block blockDevice _ page.touch inside
      rw [store_extend] at stored
      unfold load
      rw [missing]
      refine stored.trans ?_
      rw [show page.touch.pagePtr = page.pagePtr from rfl, bytes,
        show (manager.store block blockDevice).block = block from rfl]
      cases block innerCacheId with
      | none | some number => rfl
    · exact (congrArg isSome (placed innerCacheId)).trans (by rw [if_pos rfl]; rfl)
    · exact nodup_append.mpr ⟨listed.nodup, nodup_singleton _, fun first member second own same => fresh (by
        rw [<- mem_singleton.mp own, <- same]
        exact member)⟩
    · intro other member
      refine (congrArg isSome (placed other)).trans ?_
      split
      · rfl
      · rcases mem_append.mp member with old | new
        · exact listed.present other old
        · exact absurd (mem_singleton.mp new) (by assumption)

/-- What the rounds of `oom` keep, for the pages that are still to come and those that stay. -/
structure Sweeping (block : Nat -> Option Nat) (before : WriteBack) (rest : List Nat)
    (state : PageCacheManager × (Nat -> Memory) × List Nat) : Prop where
  nodup : (state.2.2 ++ rest).Nodup
  present : ∀ innerCacheId ∈ state.2.2 ++ rest, (state.1.page innerCacheId).isSome
  keeps : WriteBack.Keeps before (state.1.store block state.2.1)

theorem Sweeping.step (apart : before.Apart) (sweeping : Sweeping block before (innerCacheId :: rest) state) :
    ∃ after, oomOne (fun id => (block id).toList) state innerCacheId = some after /\
      Sweeping block before rest after := by
  have here := sweeping.present innerCacheId (by simp)
  rcases isSome_iff_exists.mp here with ⟨page, found⟩
  have inside := length_of_page found
  unfold oomOne
  rw [found, bind_some]
  by_cases used : 0 < page.priority
  · rw [if_pos used]
    refine ⟨_, rfl, ?_, ?_, ?_⟩
    · simpa using sweeping.nodup
    · intro other member
      rw [page_setPage inside]
      split
      · rfl
      · exact sweeping.present other (by simpa using member)
    · refine sweeping.keeps.trans ?_
      rw [store_setPage_same { page with priority := page.priority - 1 } found rfl]
      exact WriteBack.Keeps.refl _
  · rw [if_neg used]
    have absent : innerCacheId ∉ state.2.2 ++ rest := (nodup_middle.mp sweeping.nodup).notMem
    have written : ∃ device, page.writeBack state.2.1 (block innerCacheId).toList = some device /\
        (state.1.setPage innerCacheId none).store block device =
          (state.1.store block state.2.1).evict innerCacheId page.pagePtr := by
      have dropped : (fun id => ((state.1.setPage innerCacheId none).page id).map pagePtr) =
          update (fun id => (state.1.page id).map pagePtr) innerCacheId none := by
        funext other
        rw [page_setPage inside]
        by_cases same : other = innerCacheId
        · subst same
          rw [if_pos rfl, update_self, map_none]
        · rw [if_neg same, update_of_ne same]
      unfold store evict
      rw [dropped]
      dsimp only
      cases block innerCacheId with
      | none | some number => exact ⟨_, rfl, rfl⟩
    rcases written with ⟨device, wrote, evicted⟩
    rw [wrote, map_some]
    refine ⟨_, rfl, (nodup_middle.mp sweeping.nodup).of_cons, ?_, ?_⟩
    · intro other member
      have different : other ≠ innerCacheId := by
        rintro rfl
        exact absent member
      rw [page_setPage inside, if_neg different]
      refine sweeping.present other ?_
      rw [mem_append, mem_cons]
      rcases mem_append.mp member with stays | later
      · exact .inl stays
      · exact .inr (.inr later)
    · refine sweeping.keeps.trans ?_
      rw [evicted]
      refine keeps_evict (sweeping.keeps.apart apart) ?_
      change (state.1.page innerCacheId).map pagePtr = _
      rw [found, map_some]

theorem Sweeping.run (apart : before.Apart) (sweeping : Sweeping block before rest state) :
    ∃ after, rest.foldlM (oomOne (fun id => (block id).toList)) state = some after /\
      Sweeping block before [] after := by
  induction rest generalizing state with
  | nil => exact ⟨state, rfl, sweeping⟩
  | cons innerCacheId rest ih =>
    rcases sweeping.step apart with ⟨_, one, held⟩
    rw [foldlM_cons, one]
    exact ih held

theorem oom_spec (listed : manager.Listed) (apart : (manager.store block blockDevice).Apart) :
    ∃ after device,
      manager.oom (fun id => (block id).toList) blockDevice = some (after, device) /\
        WriteBack.Keeps (manager.store block blockDevice) (after.store block device) /\ after.Listed := by
  have initial : Sweeping block (manager.store block blockDevice) manager.allocatedCache (manager, blockDevice, []) :=
    ⟨listed.nodup, listed.present, WriteBack.Keeps.refl _⟩
  rcases initial.run apart with ⟨after, swept, held⟩
  refine ⟨{ after.1 with allocatedCache := after.2.2 }, after.2.1, ?_, held.keeps, ?_, ?_⟩
  · unfold oom
    rw [swept, map_some]
  · simpa using held.nodup
  · intro innerCacheId member
    exact held.present innerCacheId (by simpa using member)

theorem page_notifyNewSize (manager : PageCacheManager) (newSize : Nat)
    (innerCacheId : Nat) : (manager.notifyNewSize newSize).page innerCacheId =
      if innerCacheId < (newSize + cacheSz - 1) / cacheSz then manager.page innerCacheId else none := by
  unfold PageCacheManager.page notifyNewSize
  rw [getElem?_take]
  split <;> rfl

theorem Listed.notifyNewSize (listed : manager.Listed) (newSize : Nat) : (manager.notifyNewSize newSize).Listed where
  nodup := listed.nodup.filter _
  present := by
    intro innerCacheId member
    rcases mem_filter.mp member with ⟨old, small⟩
    rw [page_notifyNewSize, if_pos (of_decide_eq_true small)]
    exact listed.present innerCacheId old

end PageCacheManager

end GCore.Fs
