import GCore.Fs.PageCache
import GCore.Library.Run

namespace GCore.Fs

open Library List Option

/-!
# The bookkeeping of a page cache

`PageCache` has the operations of a page cache as one file uses them, when nobody else holds
a page.  Here pages may be held by callers, and the frame of a page may be shared with address
spaces.  Both are given with each operation, since they change between the operations in
ways that the cache does not see.

A held page is not dropped by `oom`, and `notify_new_size` panics if it would drop one.  With
`oom` comes a list of its writes to the device, in order.
-/

namespace PageCacheManager

/-- What others do with the pages at the time of an operation. -/
structure Sharing where
  held : Nat -> Bool
  tracked : Nat -> Bool

/-- The writes of a page to its blocks. -/
def writesOf (page : PageCache) (blocks : List Nat) : List (Nat × Memory) := blocks.map (fun block => (block, page.pagePtr))

structure Sweep where
  manager : PageCacheManager
  blockDevice : Nat -> Memory
  newAllocatedCache : List Nat
  writes : List (Nat × Memory)

/-- One round of `oom`.  A page that is listed but not there is a panic. -/
def sweepOne (sharing : Sharing) (neighbor : Nat -> List Nat) (sweep : Sweep) (innerCacheId : Nat) : Option Sweep :=
  (sweep.manager.page innerCacheId).bind (fun page =>
    if sharing.held innerCacheId || sharing.tracked innerCacheId then
      some { sweep with newAllocatedCache := sweep.newAllocatedCache ++ [innerCacheId] }
    else if 0 < page.priority then
      some { sweep with
        manager := sweep.manager.setPage innerCacheId (some { page with priority := page.priority - 1 })
        newAllocatedCache := sweep.newAllocatedCache ++ [innerCacheId] }
    else
      (page.writeBack sweep.blockDevice (neighbor innerCacheId)).map (fun blockDevice =>
        { sweep with
          manager := sweep.manager.setPage innerCacheId none
          blockDevice := blockDevice
          writes := sweep.writes ++ writesOf page (neighbor innerCacheId) }))

/-- The loop of `oom`. -/
def sweepAll (manager : PageCacheManager) (sharing : Sharing) (neighbor : Nat -> List Nat) (blockDevice : Nat -> Memory) :
    Option Sweep :=
  manager.allocatedCache.foldlM (sweepOne sharing neighbor) ⟨manager, blockDevice, [], []⟩

/-- The new list is installed at the end. -/
def Sweep.finish (sweep : Sweep) : PageCacheManager := { sweep.manager with allocatedCache := sweep.newAllocatedCache }

/-- The number of pages has the width of a machine word. -/
def pagesOf (newSize : Nat) : Nat := (newSize + cacheSz - 1) % 2 ^ 64 / cacheSz

/-- It is a panic if a page that is popped is held by others. -/
def notifyShared (manager : PageCacheManager) (sharing : Sharing) (newSize : Nat) : Option PageCacheManager :=
  if (List.range' (pagesOf newSize) (manager.cachePool.length - pagesOf newSize)).any (fun innerCacheId =>
      (manager.page innerCacheId).isSome && sharing.held innerCacheId) then none
  else
    some { cachePool := manager.cachePool.take (pagesOf newSize)
           allocatedCache := manager.allocatedCache.filter (· < pagesOf newSize) }

/-- The list has the pages that are there, each once. -/
structure Exact (manager : PageCacheManager) : Prop where
  nodup : manager.allocatedCache.Nodup
  listed : ∀ innerCacheId, innerCacheId ∈ manager.allocatedCache ↔ (manager.page innerCacheId).isSome = true

/-- The blocks behind a page fit into it. -/
def Fits (neighbor : Nat -> List Nat) : Prop := ∀ innerCacheId, (neighbor innerCacheId).length <= 1

variable {manager after : PageCacheManager} {sharing : Sharing} {neighbor : Nat -> List Nat} {blockDevice : Nat -> Memory}
  {innerCacheId : Nat} {before : PageCacheManager} {blocks rest : List Nat} {sweep : Sweep}

theorem exists_writeBack (page : PageCache) (blockDevice : Nat -> Memory) (fits : blocks.length <= 1) :
    page.writeBack blockDevice blocks =
      some ((writesOf page blocks).foldl (fun device write => Function.update device write.1 write.2) blockDevice) := by
  match blocks, fits with
  | [], _ => rfl
  | [block], _ => rfl

theorem exists_readIn (page : PageCache) (blockDevice : Nat -> Memory) (fits : blocks.length <= 1) :
    ∃ loaded, page.readIn blockDevice blocks = some loaded := by
  match blocks, fits with
  | [], _ => exact ⟨_, rfl⟩
  | [block], _ => exact ⟨_, rfl⟩

/-! ## One operation -/

theorem Exact.new : Exact PageCacheManager.new := ⟨nodup_nil, fun _ => ⟨nofun, nofun⟩⟩

variable (exact : Exact manager)

include exact

/-- Put a page where one is. -/
theorem Exact.setPage {page : PageCache} (present : innerCacheId ∈ manager.allocatedCache) :
    Exact (manager.setPage innerCacheId (some page)) where
  nodup := exact.nodup
  listed := by
    intro other
    have here := (exact.listed innerCacheId).mp present
    rcases isSome_iff_exists.mp here with ⟨_, found⟩
    rw [page_setPage (length_of_page found)]
    by_cases same : other = innerCacheId
    · rw [if_pos same, same]
      exact ⟨fun _ => rfl, fun _ => present⟩
    · rw [if_neg same]
      exact exact.listed other

theorem Exact.extend (innerCacheId : Nat) : Exact (manager.extend innerCacheId) where
  nodup := exact.nodup
  listed := by
    intro other
    rw [page_extend]
    exact exact.listed other

theorem Exact.getCache (innerCacheId : Nat) (fits : blocks.length <= 1)
    (blockDevice : Nat -> Memory) (frame : Memory) :
    ∃ after, manager.getCache innerCacheId blocks blockDevice frame = some after /\ Exact after := by
  have extended := exact.extend innerCacheId
  unfold PageCacheManager.getCache
  dsimp only
  cases here : (manager.extend innerCacheId).page innerCacheId with
  | some page =>
    have present := (extended.listed innerCacheId).mpr (by rw [here]; rfl)
    exact ⟨_, rfl, extended.setPage present⟩
  | none =>
    rcases exists_readIn (PageCache.new frame) blockDevice fits with ⟨page, read⟩
    have fresh : innerCacheId ∉ manager.allocatedCache := by
      intro member
      have there := (extended.listed innerCacheId).mp member
      rw [here] at there
      cases there
    refine ⟨_, congrArg (Option.map _) read, ?_, ?_⟩
    · refine nodup_append.mpr ⟨exact.nodup, nodup_singleton _, ?_⟩
      intro first member second own same
      rw [mem_singleton.mp own] at same
      exact fresh (same ▸ member)
    · intro other
      change other ∈ manager.allocatedCache ++ [innerCacheId] ↔
        (((manager.extend innerCacheId).setPage innerCacheId (some page.touch)).page other).isSome = true
      rw [page_setPage (length_extend manager innerCacheId), page_extend, mem_append, mem_singleton]
      by_cases same : other = innerCacheId
      · rw [if_pos same]
        exact ⟨fun _ => rfl, fun _ => .inr same⟩
      · rw [if_neg same, exact.listed other]
        exact ⟨fun either => either.resolve_right same, .inl⟩

theorem Exact.notifyShared {newSize : Nat} (done : manager.notifyShared sharing newSize = some after) :
    Exact after := by
  unfold PageCacheManager.notifyShared at done
  split at done
  · cases done
  · cases done
    refine ⟨exact.nodup.filter _, ?_⟩
    intro other
    have taken : page ⟨manager.cachePool.take (pagesOf newSize), manager.allocatedCache.filter (· < pagesOf newSize)⟩ other =
        if other < pagesOf newSize then manager.page other else none := by
      unfold PageCacheManager.page
      rw [getElem?_take]
      split <;> rfl
    rw [taken, mem_filter, decide_eq_true_eq, exact.listed other]
    by_cases small : other < pagesOf newSize
    · rw [if_pos small]
      exact ⟨And.left, fun present => ⟨present, small⟩⟩
    · rw [if_neg small]
      exact ⟨fun both => absurd both.2 small, nofun⟩

omit exact

/-! ## The rounds of `oom` -/

/-- What the rounds keep: the pages that stay and those still to come are there, and what is not
there any more has been written. -/
structure Sweeps (before : PageCacheManager) (neighbor : Nat -> List Nat) (blockDevice : Nat -> Memory) (rest : List Nat)
    (sweep : Sweep) : Prop where
  nodup : (sweep.newAllocatedCache ++ rest).Nodup
  listed : ∀ innerCacheId, innerCacheId ∈ sweep.newAllocatedCache ++ rest ↔
    (sweep.manager.page innerCacheId).isSome = true
  same : ∀ innerCacheId page, sweep.manager.page innerCacheId = some page ->
    ∃ old, before.page innerCacheId = some old /\ page.pagePtr = old.pagePtr
  written : ∀ innerCacheId page, before.page innerCacheId = some page -> sweep.manager.page innerCacheId = none ->
    ∀ block ∈ neighbor innerCacheId, (block, page.pagePtr) ∈ sweep.writes
  device : sweep.blockDevice = sweep.writes.foldl (fun device write => Function.update device write.1 write.2) blockDevice

theorem Sweeps.step (fits : Fits neighbor)
    (sharing : Sharing) (sweeps : Sweeps before neighbor blockDevice (innerCacheId :: rest) sweep) :
    ∃ after, sweepOne sharing neighbor sweep innerCacheId = some after /\
      Sweeps before neighbor blockDevice rest after := by
  have here := (sweeps.listed innerCacheId).mp (by simp)
  rcases isSome_iff_exists.mp here with ⟨page, found⟩
  have inside := length_of_page found
  have moved : ∀ other, other ∈ (sweep.newAllocatedCache ++ [innerCacheId]) ++ rest ↔
      (sweep.manager.page other).isSome = true := by
    intro other
    rw [<- sweeps.listed other, append_assoc]
    rfl
  have nodup : ((sweep.newAllocatedCache ++ [innerCacheId]) ++ rest).Nodup := by
    rw [append_assoc]
    exact sweeps.nodup
  unfold sweepOne
  rw [found, bind_some]
  split
  · exact ⟨_, rfl, nodup, moved, sweeps.same, sweeps.written, sweeps.device⟩
  · split
    · refine ⟨_, rfl, nodup, ?_, ?_, ?_, sweeps.device⟩
      · intro other
        rw [moved other, page_setPage inside]
        by_cases equal : other = innerCacheId
        · rw [if_pos equal, equal, found]
          exact ⟨fun _ => rfl, fun _ => rfl⟩
        · rw [if_neg equal]
      · intro other otherPage there
        rw [page_setPage inside] at there
        split at there
        · next equal =>
            cases there
            subst equal
            exact sweeps.same _ page found
        · exact sweeps.same other otherPage there
      · intro other old was dropped
        rw [page_setPage inside] at dropped
        split at dropped
        · cases dropped
        · exact sweeps.written other old was dropped
    · rw [exists_writeBack page sweep.blockDevice (fits innerCacheId), map_some]
      have absent : innerCacheId ∉ sweep.newAllocatedCache ++ rest := (nodup_middle.mp sweeps.nodup).notMem
      refine ⟨_, rfl, (nodup_middle.mp sweeps.nodup).of_cons, ?_, ?_, ?_, ?_⟩
      · intro other
        rw [page_setPage inside]
        by_cases equal : other = innerCacheId
        · rw [if_pos equal, equal]
          exact ⟨fun member => absurd member absent, nofun⟩
        · rw [if_neg equal, <- sweeps.listed other, mem_append, mem_append, mem_cons]
          exact ⟨fun either => either.imp_right .inr, fun either => either.imp_right (Or.resolve_left · equal)⟩
      · intro other otherPage there
        rw [page_setPage inside] at there
        split at there
        · cases there
        · exact sweeps.same other otherPage there
      · intro other old was dropped block member
        rw [page_setPage inside] at dropped
        rw [mem_append]
        split at dropped
        · next equal =>
            subst equal
            rcases sweeps.same other page found with ⟨_, wasKnown, bytes⟩
            rw [was] at wasKnown
            cases wasKnown
            rw [<- bytes]
            exact .inr (mem_map.mpr ⟨block, member, rfl⟩)
        · exact .inl (sweeps.written other old was dropped block member)
      · rw [foldl_append, <- sweeps.device]

theorem Sweeps.run (fits : Fits neighbor)
    (sharing : Sharing) (sweeps : Sweeps before neighbor blockDevice rest sweep) :
    ∃ after, rest.foldlM (sweepOne sharing neighbor) sweep = some after /\
      Sweeps before neighbor blockDevice [] after := by
  induction rest generalizing sweep with
  | nil => exact ⟨sweep, rfl, sweeps⟩
  | cons innerCacheId rest ih =>
    rcases sweeps.step fits sharing with ⟨_, one, held⟩
    rw [foldlM_cons, one]
    exact ih held

theorem Exact.sweepAll (exact : Exact manager) (fits : Fits neighbor) (sharing : Sharing) (blockDevice : Nat -> Memory) :
    ∃ sweep, manager.sweepAll sharing neighbor blockDevice = some sweep /\
      Sweeps manager neighbor blockDevice [] sweep := by
  refine Sweeps.run fits sharing ⟨exact.nodup, exact.listed, ?_, ?_, rfl⟩
  · intro innerCacheId page here
    exact ⟨page, here, rfl⟩
  · intro innerCacheId page here dropped
    rw [here] at dropped
    cases dropped

theorem Sweeps.finish (sweeps : Sweeps before neighbor blockDevice [] sweep) : Exact sweep.finish := by
  refine ⟨?_, ?_⟩
  · have nodup := sweeps.nodup
    rw [append_nil] at nodup
    exact nodup
  · intro innerCacheId
    have listed := sweeps.listed innerCacheId
    rw [append_nil] at listed
    exact listed

/-! ## Without others -/

/-- Nobody holds a page, and no frame is shared. -/
def Sharing.nobody : Sharing := ⟨fun _ => false, fun _ => false⟩

/-- A sweep without its writes. -/
def Sweep.forget (sweep : Sweep) : PageCacheManager × (Nat -> Memory) × List Nat :=
  (sweep.manager, sweep.blockDevice, sweep.newAllocatedCache)

theorem oomOne_forget (neighbor : Nat -> List Nat) (sweep : Sweep) (innerCacheId : Nat) :
    oomOne neighbor sweep.forget innerCacheId =
      (sweepOne .nobody neighbor sweep innerCacheId).map Sweep.forget := by
  unfold oomOne sweepOne
  change (sweep.manager.page innerCacheId).bind _ = _
  cases sweep.manager.page innerCacheId with
  | none => rfl
  | some page =>
    have unshared : ¬ (Sharing.nobody.held innerCacheId || Sharing.nobody.tracked innerCacheId) = true := Bool.false_ne_true
    rw [bind_some, bind_some, if_neg unshared]
    split
    · rfl
    · rw [Option.map_map]
      rfl

/-- For a file that is alone with its pages this is the `oom` of the page cache. -/
theorem oom_eq_sweepAll (manager : PageCacheManager) (neighbor : Nat -> List Nat) (blockDevice : Nat -> Memory) :
    manager.oom neighbor blockDevice =
      (manager.sweepAll .nobody neighbor blockDevice).map (fun sweep => (sweep.finish, sweep.blockDevice)) := by
  have loop : ∀ (rest : List Nat) (sweep : Sweep), rest.foldlM (oomOne neighbor) sweep.forget =
      (rest.foldlM (sweepOne .nobody neighbor) sweep).map Sweep.forget := by
    intro rest
    induction rest with
    | nil => exact fun _ => rfl
    | cons innerCacheId rest ih =>
      intro sweep
      rw [foldlM_cons, foldlM_cons, oomOne_forget]
      cases sweepOne .nobody neighbor sweep innerCacheId with
      | none => rfl
      | some middle => exact ih middle
  have whole := loop manager.allocatedCache ⟨manager, blockDevice, [], []⟩
  change Option.map _ (manager.allocatedCache.foldlM (oomOne neighbor) (Sweep.forget ⟨manager, blockDevice, [], []⟩)) = _
  rw [whole, Option.map_map]
  rfl

end PageCacheManager

/-! ## Runs -/

structure PageCacheWorld where
  manager : PageCacheManager
  blockDevice : Nat -> Memory

/-- Requests with what others do at the time.  A holder of a page may store into it. -/
inductive PageCacheOp where
  | getCache (innerCacheId : Nat) (neighbor : List Nat) (frame : Memory)
  | store (innerCacheId : Nat) (change : Memory -> Memory)
  | oom (sharing : PageCacheManager.Sharing) (neighbor : Nat -> List Nat)
  | notifyNewSize (sharing : PageCacheManager.Sharing) (newSize : Nat)

namespace PageCacheWorld

open PageCacheManager

def exec (world : PageCacheWorld) : PageCacheOp -> Option PageCacheWorld
  | .getCache innerCacheId neighbor frame =>
    (world.manager.getCache innerCacheId neighbor world.blockDevice frame).map (fun manager =>
      { world with manager := manager })
  | .store innerCacheId change =>
    (world.manager.page innerCacheId).map (fun page =>
      { world with manager := world.manager.setPage innerCacheId (some { page with pagePtr := change page.pagePtr }) })
  | .oom sharing neighbor =>
    (world.manager.sweepAll sharing neighbor world.blockDevice).map (fun sweep => ⟨sweep.finish, sweep.blockDevice⟩)
  | .notifyNewSize sharing newSize =>
    (world.manager.notifyShared sharing newSize).map (fun manager => { world with manager := manager })

/-- The blocks that are given for a page fit into it. -/
def Admits : PageCacheOp -> Prop
  | .getCache _ neighbor _ => neighbor.length <= 1
  | .oom _ neighbor => Fits neighbor
  | _ => True

def Step (before : PageCacheWorld) (op : PageCacheOp) (after : PageCacheWorld) : Prop :=
  Admits op /\ before.exec op = some after

variable {world after : PageCacheWorld}

theorem exact_step {op : PageCacheOp} (exact : world.manager.Exact) (taken : Step world op after) : after.manager.Exact := by
  rcases taken with ⟨admitted, done⟩
  cases op with
  | getCache innerCacheId neighbor frame =>
    rcases exact.getCache innerCacheId admitted world.blockDevice frame with ⟨manager, got, still⟩
    rcases map_eq_some_iff.mp done with ⟨same, again, rfl⟩
    rw [got] at again
    cases again
    exact still
  | store innerCacheId change =>
    rcases map_eq_some_iff.mp done with ⟨_, here, rfl⟩
    exact exact.setPage ((exact.listed innerCacheId).mpr (by rw [here]; rfl))
  | oom sharing neighbor =>
    rcases exact.sweepAll admitted sharing world.blockDevice with ⟨_, swept, sweeps⟩
    rcases map_eq_some_iff.mp done with ⟨same, again, rfl⟩
    rw [swept] at again
    cases again
    exact sweeps.finish
  | notifyNewSize sharing newSize =>
    rcases map_eq_some_iff.mp done with ⟨manager, notified, rfl⟩
    exact exact.notifyShared notified

/-- In every run the list has exactly the pages that are there, and whatever is held or shared,
`oom` goes through and has written each page that it drops to the blocks behind it. -/
theorem bookkeeping_in_every_run {blockDevice : Nat -> Memory} {world : PageCacheWorld}
    (run : Reached Step ⟨PageCacheManager.new, blockDevice⟩ world) :
    world.manager.Exact /\ ∀ sharing neighbor, Fits neighbor -> ∃ sweep,
      world.manager.sweepAll sharing neighbor world.blockDevice = some sweep /\
      (∀ innerCacheId page, world.manager.page innerCacheId = some page -> sweep.finish.page innerCacheId = none ->
        ∀ block ∈ neighbor innerCacheId, (block, page.pagePtr) ∈ sweep.writes) /\
      sweep.blockDevice =
        sweep.writes.foldl (fun device write => Function.update device write.1 write.2) world.blockDevice := by
  have exact : world.manager.Exact :=
    @Reached.invariant _ _ _ _ _ (fun world => world.manager.Exact) run PageCacheManager.Exact.new
      (fun _ _ _ exact taken => exact_step exact taken)
  refine ⟨exact, ?_⟩
  intro sharing neighbor fits
  rcases exact.sweepAll fits sharing world.blockDevice with ⟨sweep, swept, sweeps⟩
  exact ⟨sweep, swept, sweeps.written, sweeps.device⟩

/-- Two pages are read and the second one is changed.  The first one is held, so that the second
`oom` drops the other. -/
theorem bookkeeping_of_two_pages :
    ∃ world, Reached Step ⟨PageCacheManager.new, fun _ _ => 0⟩ world /\ world.manager.allocatedCache = [0] /\
      world.blockDevice 8 = (fun _ => 9) /\ world.manager.Exact := by
  let nines : Memory := fun _ => 9
  let zeros : Nat -> Memory := fun _ _ => 0
  let held : Sharing := ⟨fun innerCacheId => innerCacheId == 0, fun _ => false⟩
  let neighbor : Nat -> List Nat := fun innerCacheId => [innerCacheId + 7]
  have fits : Fits neighbor := fun _ => Nat.le_refl 1
  have first : Step ⟨PageCacheManager.new, zeros⟩ (.getCache 0 [7] (fun _ => 1))
      ⟨⟨[some ⟨1, fun _ => 0⟩], [0]⟩, zeros⟩ := ⟨Nat.le_refl 1, rfl⟩
  have second : Step ⟨⟨[some ⟨1, fun _ => 0⟩], [0]⟩, zeros⟩ (.getCache 1 [8] (fun _ => 1))
      ⟨⟨[some ⟨1, fun _ => 0⟩, some ⟨1, fun _ => 0⟩], [0, 1]⟩, zeros⟩ := ⟨Nat.le_refl 1, rfl⟩
  have stored : Step ⟨⟨[some ⟨1, fun _ => 0⟩, some ⟨1, fun _ => 0⟩], [0, 1]⟩, zeros⟩ (.store 1 (fun _ => nines))
      ⟨⟨[some ⟨1, fun _ => 0⟩, some ⟨1, nines⟩], [0, 1]⟩, zeros⟩ := ⟨trivial, rfl⟩
  have aged : Step ⟨⟨[some ⟨1, fun _ => 0⟩, some ⟨1, nines⟩], [0, 1]⟩, zeros⟩ (.oom held neighbor)
      ⟨⟨[some ⟨1, fun _ => 0⟩, some ⟨0, nines⟩], [0, 1]⟩, zeros⟩ := ⟨fits, rfl⟩
  have dropped : Step ⟨⟨[some ⟨1, fun _ => 0⟩, some ⟨0, nines⟩], [0, 1]⟩, zeros⟩ (.oom held neighbor)
      ⟨⟨[some ⟨1, fun _ => 0⟩, none], [0]⟩, Function.update zeros 8 nines⟩ := ⟨fits, rfl⟩
  have run := ((((Reached.refl.next first).next second).next stored).next aged).next dropped
  exact ⟨_, run, rfl, Function.update_self 8 nines zeros, (bookkeeping_in_every_run run).1⟩

end PageCacheWorld

end GCore.Fs
