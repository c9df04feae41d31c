import GCore.Library.Paged

namespace GCore.Library

open Function

/-!
# Pages in front of blocks

A row of bytes is kept in blocks of a device, one for each page, and some of its pages are
cached.  A cached page is what counts; it is written to its block when it is dropped.
Loading and dropping pages leaves the row as it is, as far as there are blocks behind it
and no two pages have the same block.

A page without a block holds whatever was in the memory that it has been given.
-/

/-- The pages that are cached, the block behind each page, and the device. -/
structure WriteBack where
  cached : Nat -> Option Memory
  block : Nat -> Option Nat
  device : Nat -> Memory

namespace WriteBack

section Operations

variable (store : WriteBack)

def page (index : Nat) : Memory :=
  match store.cached index with
  | some data => data
  | none =>
    match store.block index with
    | some block => store.device block
    | none => fun _ => 0

/-- Change a page in the cache. -/
def put (index : Nat) (data : Memory) : WriteBack :=
  { store with cached := Function.update store.cached index (some data) }

/-- Bring a page into the cache; `fresh` is what the memory for it holds. -/
def load (index : Nat) (fresh : Memory) : WriteBack :=
  match store.cached index with
  | some _ => store
  | none =>
    store.put index
      (match store.block index with
      | some block => store.device block
      | none => fresh)

/-- Write a page to its block and drop it. -/
def evict (index : Nat) (data : Memory) : WriteBack :=
  { store with
    cached := Function.update store.cached index none
    device :=
      match store.block index with
      | some block => Function.update store.device block data
      | none => store.device }

/-- Distinct pages have distinct blocks. -/
def Apart : Prop :=
  ∀ first second block, store.block first = some block -> store.block second = some block -> first = second

/-- The row of bytes. -/
def row (pageSize : Nat) : Memory := Paged.flat pageSize store.page

end Operations

/-- The bytes with a block behind them are the same, and so are the blocks of others. -/
structure Keeps (before after : WriteBack) : Prop where
  block : after.block = before.block
  page : ∀ index, (before.block index).isSome -> after.page index = before.page index
  device : ∀ block, (∀ index, before.block index ≠ some block) -> after.device block = before.device block

variable {store before middle after : WriteBack} {index : Nat} {data : Memory}

variable (store) in
theorem Keeps.refl : Keeps store store := ⟨rfl, fun _ _ => rfl, fun _ _ => rfl⟩

theorem Keeps.trans (first : Keeps before middle) (second : Keeps middle after) : Keeps before after where
  block := second.block.trans first.block
  page := by
    intro index backed
    rw [second.page index (by rw [first.block]; exact backed), first.page index backed]
  device := by
    intro block foreign
    rw [second.device block (by rw [first.block]; exact foreign), first.device block foreign]

theorem Keeps.apart (keeps : Keeps before after) (apart : before.Apart) : after.Apart := by
  unfold Apart
  rw [keeps.block]
  exact apart

theorem Keeps.row {pageSize place : Nat} (keeps : Keeps before after)
    (backed : (before.block (place / pageSize)).isSome) :
    after.row pageSize place = before.row pageSize place :=
  congrFun (keeps.page _ backed) _

theorem page_of_cached (cached : store.cached index = some data) : store.page index = data := by
  rw [page, cached]

theorem page_of_block {block : Nat} (dropped : store.cached index = none) (backed : store.block index = some block) :
    store.page index = store.device block := by
  rw [page, dropped, backed]

variable (store index)

theorem put_page (data : Memory) (other : Nat) :
    (store.put index data).page other = if other = index then data else store.page other := by
  by_cases same : other = index
  · subst same
    rw [if_pos rfl]
    exact page_of_cached (update_self ..)
  · have still : (store.put index data).cached other = store.cached other := update_of_ne same _ _
    rw [if_neg same, page, page, still]
    rfl

theorem keeps_load (fresh : Memory) : Keeps store (store.load index fresh) := by
  unfold load
  cases cached : store.cached index with
  | some data => exact Keeps.refl store
  | none =>
    refine ⟨rfl, ?_, fun _ _ => rfl⟩
    intro other backed
    change (store.put index _).page other = _
    rw [put_page]
    by_cases same : other = index
    · subst same
      rcases Option.isSome_iff_exists.mp backed with ⟨_, behind⟩
      rw [if_pos rfl, page_of_block cached behind, behind]
    · rw [if_neg same]

theorem evict_device (data : Memory) (block : Nat) :
    (store.evict index data).device block = if store.block index = some block then data else store.device block := by
  unfold evict
  cases target : store.block index with
  | none => rfl
  | some own =>
    by_cases same : own = block
    · subst same
      rw [if_pos rfl]
      exact update_self ..
    · rw [if_neg (fun equal => same (Option.some.inj equal))]
      exact update_of_ne (fun equal => same equal.symm) _ _

variable {store index}

theorem keeps_evict (apart : store.Apart) (cached : store.cached index = some data) :
    Keeps store (store.evict index data) := by
  refine ⟨rfl, ?_, ?_⟩
  · intro other backed
    rcases Option.isSome_iff_exists.mp backed with ⟨block, behind⟩
    by_cases same : other = index
    · subst same
      have dropped : (store.evict other data).cached other = none := update_self ..
      rw [page_of_cached cached, page_of_block dropped behind, evict_device, if_pos behind]
    · have still : (store.evict index data).cached other = store.cached other := update_of_ne same _ _
      cases held : store.cached other with
      | some own => rw [page_of_cached held, page_of_cached (still.trans held)]
      | none =>
        have different : store.block index ≠ some block := fun target => same (apart other index block behind target)
        rw [page_of_block held behind, page_of_block (still.trans held) behind, evict_device, if_neg different]
  · intro block foreign
    rw [evict_device, if_neg (foreign index)]

/-- A piece stored in a cached page is stored in the row. -/
theorem row_put {pageSize start : Nat} {piece : List Byte} (positive : 0 < pageSize)
    (cached : store.cached (start / pageSize) = some data)
    (inside : start + piece.length <= (start / pageSize + 1) * pageSize) :
    (store.put (start / pageSize) (data.store (start % pageSize) piece)).row pageSize =
      (store.row pageSize).store start piece := by
  funext place
  have split := Nat.div_add_mod start pageSize
  have parts := Nat.div_add_mod place pageSize
  have small := Nat.mod_lt place positive
  rw [Nat.add_mul, Nat.one_mul, Nat.mul_comm] at inside
  change (store.put _ _).page (place / pageSize) (place % pageSize) = _
  rw [put_page]
  by_cases same : place / pageSize = start / pageSize
  · rw [if_pos same]
    rw [same] at parts
    have base : (store.row pageSize) place = data (place % pageSize) := by
      change store.page (place / pageSize) (place % pageSize) = _
      rw [same, page_of_cached cached]
    unfold Memory.store
    rw [base]
    have shift : place - start = place % pageSize - start % pageSize := by omega
    rw [shift]
    exact if_congr (by omega) rfl rfl
  · rw [if_neg same, Memory.store_outside]
    · rfl
    · rintro ⟨low, _⟩
      apply same
      apply le_antisymm
      · have bound : place < pageSize * (start / pageSize + 1) := by
          rw [Nat.mul_add, Nat.mul_one]
          omega
        exact Nat.le_of_lt_succ (Nat.div_lt_of_lt_mul bound)
      · exact Nat.div_le_div_right low

end WriteBack

end GCore.Library
