import Mathlib.Data.List.Nodup
import Mathlib.Data.List.Range
import GCore.Errno
import GCore.Library.Run

namespace GCore.Fs

open Library List

/-!
# The file descriptor table of a process

`FdTable` keeps its free slots twice: as `None` entries of `inner` and as the
byte-sized numbers of `recycled`.  `insert` and `try_insert_at` choose a slot
from the second list, so they are right exactly while the two agree.

Three operations let them drift apart.  `take` empties a slot without recycling
its number.  `try_insert_at` fills a recycled slot and leaves its number in the
list, so the next `insert` hands the same descriptor out again.  And numbers are
cast to `u8`, so a slot above 255 is recycled under another slot's number.  The
module embeds the table as it is, proves that the agreement survives every
operation that takes none of these three ways, and derives the allocation law
for every run made of such operations.
-/

/-- `FdTable` of `fs/file_descriptor.rs`.  The descriptor type is a parameter:
no operation looks inside a descriptor. -/
structure FdTable (File : Type) where
  inner : List (Option File)
  recycled : List UInt8
  softLimit : Nat
  hardLimit : Nat

namespace FdTable

variable {File : Type}

def defaultFdLimit : Nat := 128
def systemFdLimit : Nat := 256

def new (inner : List (Option File)) : FdTable File where
  inner := inner
  recycled := []
  softLimit := defaultFdLimit
  hardLimit := systemFdLimit

section Calls

variable (table : FdTable File)

/-- The descriptor at `fd`, if that slot exists and is in use. -/
def get (fd : Nat) : Option File :=
  (table.inner[fd]?).join

/-- The slot is in use. -/
def Live (fd : Nat) : Prop :=
  (table.get fd).isSome = true

instance (fd : Nat) : Decidable (table.Live fd) :=
  inferInstanceAs (Decidable (_ = true))

/-- Both limit setters cut the table off when the limit lies below its length. -/
def truncate (limit : Nat) : FdTable File :=
  if limit < table.inner.length then
    { table with
      inner := table.inner.take limit
      recycled := table.recycled.filter (fun fd => decide (fd.toNat < limit)) }
  else table

def setSoftLimit (limit : Nat) : FdTable File :=
  { table.truncate limit with softLimit := limit }

def setHardLimit (limit : Nat) : FdTable File :=
  { table.truncate limit with hardLimit := limit }

/-- The descriptors that `exec` closes; their slots stay empty without being recycled. -/
def closeOnExec (cloexec : File -> Bool) : FdTable File :=
  { table with inner := table.inner.map (fun slot => slot.filter (fun file => !cloexec file)) }

def remove (fd : Nat) : Except Int File × FdTable File :=
  if fd >= table.inner.length then (.error EBADF, table)
  else
    match table.get fd with
    | some file =>
      (.ok file,
        { table with
          inner := table.inner.set fd none
          recycled := table.recycled ++ [UInt8.ofNat fd] })
    | none => (.error EBADF, table)

/-- Take the descriptor out of its slot.  The number is not recycled. -/
def take (fd : Nat) : Option File × FdTable File :=
  if fd >= table.inner.length then (none, table)
  else (table.get fd, { table with inner := table.inner.set fd none })

def findMin : Option UInt8 × FdTable File :=
  match table.recycled.min? with
  | some minValue =>
    match table.recycled.findIdx? (fun fd => fd == minValue) with
    | some index => (some minValue, { table with recycled := table.recycled.eraseIdx index })
    | none => (none, table)
  | none => (none, table)

/-- `self.inner[fd] = Some(file)`: an index past the end panics. -/
def store (fd : Nat) (file : File) : Option (FdTable File) :=
  if fd < table.inner.length then some { table with inner := table.inner.set fd (some file) }
  else none

/-- `self.inner.push(Some(file))`, unless the table has reached the soft limit. -/
def append (file : File) : Except Int Nat × FdTable File :=
  if table.inner.length = table.softLimit then (.error EMFILE, table)
  else (.ok table.inner.length, { table with inner := table.inner ++ [some file] })

/-- The outcome of an allocation: `none` is an index panic. -/
abbrev Outcome (File : Type) := Option (Except Int Nat × FdTable File)

def insert (file : File) : Outcome File :=
  match table.findMin with
  | (some fd, table) => (table.store fd.toNat file).map (fun table => (.ok fd.toNat, table))
  | (none, table) => some (table.append file)

/-- Extend the table to hold `file` at `pos`, recycling the skipped numbers in
the given order. -/
def extend (file : File) (pos : Nat) (skipped : List Nat) : FdTable File :=
  { table with
    inner := table.inner ++ List.replicate (pos - table.inner.length) none ++ [some file]
    recycled := table.recycled ++ skipped.map UInt8.ofNat }

def insertAt (file : File) (pos : Nat) : Except Int Nat × FdTable File :=
  let current := table.inner.length
  if pos < current then
    let recycled :=
      if (table.get pos).isNone then table.recycled.filter (fun fd => decide (fd.toNat ≠ pos))
      else table.recycled
    (.ok pos, { table with inner := table.inner.set pos (some file), recycled := recycled })
  else if pos >= table.softLimit then (.error EMFILE, table)
  else (.ok pos, table.extend file pos (List.range' current (pos - current)).reverse)

/-- The first recycled number above `hint` is used but stays in the list. -/
def tryInsertAt (file : File) (hint : Nat) : Outcome File :=
  if hint >= table.softLimit then some (.error EMFILE, table)
  else
    let current := table.inner.length
    if hint < current then
      match table.get hint with
      | some _ =>
        match table.recycled.find? (fun fd => decide (fd.toNat > hint)) with
        | some fd => (table.store fd.toNat file).map (fun table => (.ok fd.toNat, table))
        | none => some (table.append file)
      | none =>
        some (.ok hint,
          { table with
            recycled := table.recycled.filter (fun fd => decide (fd.toNat ≠ hint))
            inner := table.inner.set hint (some file) })
    else if hint >= table.softLimit then some (.error EMFILE, table)
    else some (.ok hint, table.extend file hint (List.range' current (hint - current)))

end Calls

/-! ## The table as a transition system -/

/-- One call on the table. -/
inductive Op (File : Type) where
  | insert (file : File)
  | insertAt (file : File) (pos : Nat)
  | tryInsertAt (file : File) (hint : Nat)
  | remove (fd : Nat)
  | take (fd : Nat)
  | setSoftLimit (limit : Nat)
  | setHardLimit (limit : Nat)

/-- The table after a call; a panicking call has no successor. -/
def exec (table : FdTable File) : Op File -> Option (FdTable File)
  | .insert file => (table.insert file).map Prod.snd
  | .insertAt file pos => some (table.insertAt file pos).2
  | .tryInsertAt file hint => (table.tryInsertAt file hint).map Prod.snd
  | .remove fd => some (table.remove fd).2
  | .take fd => some (table.take fd).2
  | .setSoftLimit limit => some (table.setSoftLimit limit)
  | .setHardLimit limit => some (table.setHardLimit limit)

def Step (before : FdTable File) (op : Op File) (after : FdTable File) : Prop :=
  before.exec op = some after

/-- The calls that keep the two records of free slots in agreement: no live
descriptor is taken, no number above 255 is recycled, and `try_insert_at` does
not have to fall back on a recycled number above its hint. -/
def Admits (table : FdTable File) : Op File -> Prop
  | .insert _ => True
  | .insertAt _ pos => table.inner.length <= pos -> pos < table.softLimit -> pos <= 256
  | .tryInsertAt _ hint =>
    (table.Live hint -> ∀ fd ∈ table.recycled, ¬ fd.toNat > hint) /\
    (table.inner.length <= hint -> hint < table.softLimit -> hint <= 256)
  | .remove fd => table.Live fd -> fd < 256
  | .take fd => ¬ table.Live fd
  | .setSoftLimit _ => True
  | .setHardLimit _ => True

/-- What an allocation of the least number from `hint` on has to do: a success
uses the least number that was free and changes no other slot, and a failure is
`EMFILE` with every number of the range in use. -/
def Allocates (table : FdTable File) (file : File) (hint : Nat) : Outcome File -> Prop
  | none => False
  | some (.ok fd, after) =>
    (¬ table.Live fd /\ hint <= fd /\ fd < table.softLimit /\
      ∀ lower, hint <= lower -> lower < fd -> table.Live lower) /\
    after.get fd = some file /\ ∀ other ≠ fd, after.get other = table.get other
  | some (.error errno, _) =>
    errno = EMFILE /\ ∀ fd, hint <= fd -> fd < table.softLimit -> table.Live fd

/-! ## Agreement of the two records of free slots -/

/-- `recycled` lists exactly the empty slots, each once, and the table never
outgrows its soft limit. -/
structure Synced (table : FdTable File) : Prop where
  bounded : table.inner.length <= table.softLimit
  nodup : table.recycled.Nodup
  free : ∀ fd, fd ∈ table.recycled.map UInt8.toNat ↔ table.inner[fd]? = some none

theorem live_iff (table : FdTable File) (fd : Nat) :
    table.Live fd ↔ ∃ file, table.inner[fd]? = some (some file) := by
  unfold Live get
  rcases table.inner[fd]? with _ | _ | file <;> simp

variable {table after : FdTable File} {file : File} {fd : Nat}

theorem Live.of_get (entry : table.get fd = some file) : table.Live fd := by
  rw [Live, entry]
  rfl

theorem Live.lt_length (live : table.Live fd) : fd < table.inner.length := by
  rcases (table.live_iff fd).mp live with ⟨_, entry⟩
  exact (List.getElem?_eq_some_iff.mp entry).1

theorem empty_slot_iff (table : FdTable File) (fd : Nat) :
    table.inner[fd]? = some none ↔ fd < table.inner.length /\ ¬ table.Live fd := by
  rw [live_iff]
  constructor
  · intro entry
    refine ⟨(List.getElem?_eq_some_iff.mp entry).1, ?_⟩
    rintro ⟨file, used⟩
    rw [entry] at used
    cases used
  · rintro ⟨inside, unused⟩
    rw [getElem?_eq_getElem inside]
    cases entry : table.inner[fd] with
    | none => rfl
    | some file => cases unused ⟨file, by rw [getElem?_eq_getElem inside, entry]⟩

variable (synced : table.Synced)

include synced

theorem Synced.not_live_of_recycled {fd : UInt8}
    (member : fd ∈ table.recycled) : fd.toNat < table.inner.length /\ ¬ table.Live fd.toNat :=
  (table.empty_slot_iff _).mp ((synced.free _).mp (mem_map_of_mem member))

theorem Synced.recycled_of_not_live (inside : fd < table.inner.length) (unused : ¬ table.Live fd) :
    ∃ number, number ∈ table.recycled /\ number.toNat = fd :=
  mem_map.mp ((synced.free fd).mpr ((table.empty_slot_iff fd).mpr ⟨inside, unused⟩))

variable {inner : List (Option File)}

omit synced

/-- A table that starts with every slot in use is in agreement. -/
theorem Synced.new (full : ∀ slot ∈ inner, slot.isSome = true)
    (short : inner.length <= defaultFdLimit) : (FdTable.new inner).Synced where
  bounded := short
  nodup := nodup_nil
  free := by
    intro fd
    constructor
    · intro member
      cases member
    · intro entry
      have used := full none (mem_of_getElem? entry)
      cases used

/-! ### Reading a slot after an update -/

/-- One descriptor has been stored, and all others are as before. -/
def Writes (table : FdTable File) (file : File) (fd : Nat) (after : FdTable File) : Prop :=
  ∀ other, after.get other = if other = fd then some file else table.get other

theorem Writes.stored (writes : Writes table file fd after) :
    after.get fd = some file /\ ∀ other ≠ fd, after.get other = table.get other :=
  ⟨(writes fd).trans (if_pos rfl), fun other different => (writes other).trans (if_neg different)⟩

theorem get_closeOnExec (table : FdTable File) (cloexec : File -> Bool) (fd : Nat) :
    (table.closeOnExec cloexec).get fd = (table.get fd).filter (fun file => !cloexec file) := by
  unfold closeOnExec get
  rw [getElem?_map]
  cases table.inner[fd]? with
  | none | some slot => rfl

theorem get_set (table : FdTable File) (fd other : Nat) (slot : Option File)
    (recycled : List UInt8) (inside : fd < table.inner.length) :
    ({ table with inner := table.inner.set fd slot, recycled := recycled } : FdTable File).get other =
      if other = fd then slot else table.get other := by
  unfold get
  by_cases same : fd = other
  · subst same
    simp [inside]
  · simp [same, Ne.symm same]

theorem getElem?_extend (table : FdTable File) (file : File) {pos : Nat} (skipped : List Nat)
    (above : table.inner.length <= pos) (other : Nat) :
    (table.extend file pos skipped).inner[other]? =
      if other < table.inner.length then table.inner[other]?
      else if other < pos then some none else if other = pos then some (some file) else none := by
  have total : table.inner.length + (pos - table.inner.length) = pos := Nat.add_sub_cancel' above
  simp only [extend, getElem?_append, length_append, length_replicate, total]
  by_cases inside : other < table.inner.length
  · simp [inside, inside.trans_le above]
  · rcases lt_trichotomy other pos with below | same | beyond
    · simp [inside, below, show other - table.inner.length < pos - table.inner.length by omega]
    · subst same
      simp [inside]
    · simp [inside, beyond.not_gt, beyond.ne', show other - pos ≠ 0 by omega]

theorem get_extend (table : FdTable File) (file : File) (pos other : Nat) (skipped : List Nat)
    (above : table.inner.length <= pos) :
    (table.extend file pos skipped).get other = if other = pos then some file else table.get other := by
  rw [get, get, getElem?_extend table file skipped above]
  by_cases inside : other < table.inner.length
  · rw [if_pos inside, if_neg (inside.trans_le above).ne]
  · rw [if_neg inside, getElem?_eq_none (not_lt.mp inside)]
    rcases lt_trichotomy other pos with below | same | beyond
    · simp [below, below.ne]
    · simp [same]
    · simp [beyond.not_gt, beyond.ne']

/-- The table with one more descriptor behind its last slot. -/
theorem append_eq (table : FdTable File) (file : File) :
    table.append file = if table.inner.length = table.softLimit then (.error EMFILE, table)
      else (.ok table.inner.length, table.extend file table.inner.length []) := by
  simp [append, extend]

/-! ### The least recycled number -/

theorem findMin_of_recycled_empty (empty : table.recycled = []) : table.findMin = (none, table) := by
  simp [findMin, empty]

/-- Otherwise `find_min` removes one occurrence of the least recycled number. -/
theorem findMin_of_recycled_ne_nil (nonempty : table.recycled ≠ []) :
    ∃ least, least ∈ table.recycled /\
      (∀ number ∈ table.recycled, least.toNat <= number.toNat) /\
      table.findMin = (some least, { table with recycled := table.recycled.erase least }) := by
  cases minimum : table.recycled.min? with
  | none => cases nonempty (min?_eq_none_iff.mp minimum)
  | some least =>
    have bounds := min?_eq_some_iff.mp minimum
    have erased : table.recycled.erase least = table.recycled.eraseP (fun fd => fd == least) := by
      rw [erase_eq_eraseP]
      exact congrArg (fun test => table.recycled.eraseP test) (funext fun fd => Bool.beq_comm)
    refine ⟨least, bounds.1, fun number member => UInt8.le_iff_toNat_le.mp (bounds.2 number member), ?_⟩
    simp only [findMin, minimum]
    rw [erased, eraseP_eq_eraseIdx]
    cases found : table.recycled.findIdx? (fun fd => fd == least) with
    | none =>
      have missing := findIdx?_eq_none_iff.mp found least bounds.1
      simp at missing
    | some index => rfl

/-! ### Every admitted operation keeps the agreement -/

variable (synced : table.Synced)

include synced

/-- Filling an empty slot and dropping its number from the list. -/
theorem Synced.fill (file : File) {recycled : List UInt8} (nodup : recycled.Nodup)
    (dropped : ∀ number, number ∈ recycled ↔ number ∈ table.recycled /\ number.toNat ≠ fd) :
    ({ table with inner := table.inner.set fd (some file), recycled := recycled } :
      FdTable File).Synced where
  bounded := by simpa using synced.bounded
  nodup := nodup
  free := by
    intro other
    have before := synced.free other
    simp only [mem_map] at before ⊢
    simp only [dropped, getElem?_set]
    by_cases same : fd = other
    · subst same
      constructor
      · rintro ⟨number, ⟨_, different⟩, equal⟩
        cases different equal
      · intro entry
        by_cases inside : fd < table.inner.length <;> simp [inside] at entry
    · rw [if_neg same, <- before]
      constructor
      · rintro ⟨number, ⟨member, _⟩, equal⟩
        exact ⟨number, member, equal⟩
      · rintro ⟨number, member, equal⟩
        exact ⟨number, ⟨member, fun clash => same (clash.symm.trans equal)⟩, equal⟩

theorem Synced.fill_filter (fd : Nat) (file : File) :
    ({ table with
        inner := table.inner.set fd (some file)
        recycled := table.recycled.filter (fun number => decide (number.toNat ≠ fd)) } :
      FdTable File).Synced := by
  refine synced.fill file (synced.nodup.filter _) ?_
  intro number
  simp only [mem_filter, decide_eq_true_eq]

/-- Replacing a live descriptor frees and uses no slot. -/
theorem Synced.replace (live : table.Live fd) (file : File) :
    ({ table with inner := table.inner.set fd (some file) } : FdTable File).Synced := by
  refine synced.fill file synced.nodup ?_
  intro number
  refine ⟨fun member => ⟨member, ?_⟩, And.left⟩
  intro same
  exact (synced.not_live_of_recycled member).2 (same ▸ live)

omit synced

variable {pos hint : Nat}

include synced

/-- Extending the table recycles the skipped numbers, if there are any.  Below 257 the cast
to a byte keeps them apart. -/
theorem Synced.extend (file : File)
    (above : table.inner.length <= pos) (below : pos < table.softLimit) (byte : table.inner.length < pos -> pos <= 256)
    {skipped : List Nat} (perm : skipped.Perm (range' table.inner.length (pos - table.inner.length))) :
    (table.extend file pos skipped).Synced where
  bounded := by
    simp only [FdTable.extend, length_append, length_replicate, length_singleton]
    omega
  nodup := by
    have value : ∀ fd ∈ skipped, (UInt8.ofNat fd).toNat = fd /\ table.inner.length <= fd := by
      intro fd member
      have range := mem_range'_1.mp (perm.mem_iff.mp member)
      exact ⟨UInt8.toNat_ofNat_of_lt' (show fd < 256 by omega), range.1⟩
    refine synced.nodup.append ?_ ?_
    · refine Nodup.map_on ?_ (perm.nodup_iff.mpr nodup_range')
      intro left leftMember right rightMember equal
      rw [<- (value left leftMember).1, <- (value right rightMember).1, equal]
    · intro number old fresh
      rcases mem_map.mp fresh with ⟨fd, member, rfl⟩
      have inside := (synced.not_live_of_recycled old).1
      rw [(value fd member).1] at inside
      exact not_lt.mpr (value fd member).2 inside
  free := by
    intro fd
    have fresh : fd ∈ (skipped.map UInt8.ofNat).map UInt8.toNat ↔ table.inner.length <= fd /\ fd < pos := by
      simp only [map_map, mem_map, Function.comp]
      constructor
      · rintro ⟨number, member, rfl⟩
        have range := mem_range'_1.mp (perm.mem_iff.mp member)
        rw [UInt8.toNat_ofNat_of_lt' (show number < 256 by omega)]
        omega
      · rintro ⟨_, _⟩
        refine ⟨fd, perm.mem_iff.mpr (mem_range'_1.mpr (by omega)), ?_⟩
        exact UInt8.toNat_ofNat_of_lt' (show fd < 256 by omega)
    rw [FdTable.extend, map_append, mem_append, synced.free fd, fresh]
    rw [<- FdTable.extend, getElem?_extend table file skipped above]
    rcases lt_or_ge fd table.inner.length with inside | outside
    · simp [inside, not_le.mpr inside]
    · rw [if_neg (not_lt.mpr outside), getElem?_eq_none outside]
      by_cases lower : fd < pos
      · simp [lower, outside]
      · rw [if_neg lower]
        split <;> simp [lower]

theorem Synced.append (file : File) : (table.append file).2.Synced := by
  have bounded := synced.bounded
  rw [append_eq]
  split
  · exact synced
  · exact synced.extend file le_rfl (by omega) (fun wider => absurd wider (lt_irrefl _)) (by simp)

theorem Synced.remove (byte : table.Live fd -> fd < 256) : (table.remove fd).2.Synced := by
  unfold FdTable.remove
  by_cases outside : fd >= table.inner.length
  · rw [if_pos outside]
    exact synced
  · rw [if_neg outside]
    cases entry : table.get fd with
    | none => exact synced
    | some file =>
      have live := Live.of_get entry
      have value : (UInt8.ofNat fd).toNat = fd := UInt8.toNat_ofNat_of_lt' (byte live)
      refine ⟨by simpa using synced.bounded, ?_, ?_⟩
      · rw [nodup_append_comm, singleton_append, nodup_cons]
        refine ⟨fun member => ?_, synced.nodup⟩
        exact (synced.not_live_of_recycled member).2 (value.symm ▸ live)
      · intro other
        simp only [map_append, map_cons, map_nil, mem_append, mem_singleton, value, getElem?_set]
        by_cases same : fd = other
        · subst same
          simp [live.lt_length]
        · rw [if_neg same, <- synced.free other]
          simp [Ne.symm same]

theorem Synced.truncate (limit soft hard : Nat)
    (bounded : table.inner.length <= limit -> table.inner.length <= soft) (below : limit <= soft \/
      table.softLimit <= soft) :
    ({ table.truncate limit with softLimit := soft, hardLimit := hard } : FdTable File).Synced := by
  unfold FdTable.truncate
  by_cases cut : limit < table.inner.length
  · rw [if_pos cut]
    have fits := synced.bounded
    refine ⟨?_, synced.nodup.filter _, ?_⟩
    · simp only [length_take]
      omega
    · intro fd
      rw [getElem?_take]
      by_cases inside : fd < limit
      · rw [if_pos inside, <- synced.free fd]
        simp only [mem_map, mem_filter, decide_eq_true_eq]
        constructor
        · rintro ⟨number, ⟨member, _⟩, equal⟩
          exact ⟨number, member, equal⟩
        · rintro ⟨number, member, equal⟩
          exact ⟨number, ⟨member, equal ▸ inside⟩, equal⟩
      · rw [if_neg inside]
        simp only [mem_map, mem_filter, decide_eq_true_eq]
        constructor
        · rintro ⟨number, ⟨_, lower⟩, equal⟩
          cases inside (equal ▸ lower)
        · intro impossible
          cases impossible
  · rw [if_neg cut]
    exact ⟨bounded (not_lt.mp cut), synced.nodup, synced.free⟩

/-! ## The allocation law -/

omit synced in
theorem store_eq (table : FdTable File) (inside : fd < table.inner.length) (file : File) :
    table.store fd file = some { table with inner := table.inner.set fd (some file) } :=
  if_pos inside

/-- Appending is right once no slot from `hint` on is empty. -/
theorem Synced.append_allocates (file : File) (inside : hint <= table.inner.length)
    (full : ∀ fd, hint <= fd -> fd < table.inner.length -> table.Live fd) :
    table.Allocates file hint (some (table.append file)) := by
  rw [append_eq]
  by_cases reached : table.inner.length = table.softLimit
  · rw [if_pos reached]
    exact ⟨rfl, fun fd least below => full fd least (reached ▸ below)⟩
  · rw [if_neg reached]
    have bounded := synced.bounded
    refine ⟨⟨fun live => lt_irrefl _ live.lt_length, inside, by omega, full⟩, Writes.stored ?_⟩
    intro other
    exact get_extend table file _ other [] le_rfl

/-- `insert` uses the least free number: the least recycled one if there is any,
and otherwise the first number past the table. -/
theorem Synced.insert_allocates (file : File) : table.Allocates file 0 (table.insert file) := by
  unfold FdTable.insert
  by_cases empty : table.recycled = []
  · rw [findMin_of_recycled_empty empty]
    refine synced.append_allocates file (Nat.zero_le _) ?_
    intro fd _ inside
    by_contra unused
    rcases synced.recycled_of_not_live inside unused with ⟨number, member, _⟩
    rw [empty] at member
    cases member
  · rcases findMin_of_recycled_ne_nil empty with ⟨least, member, minimal, found⟩
    have free := synced.not_live_of_recycled member
    have stored := store_eq { table with recycled := table.recycled.erase least } free.1 file
    rw [found]
    simp only [stored, Option.map_some]
    refine ⟨⟨free.2, Nat.zero_le _, free.1.trans_le synced.bounded, ?_⟩, Writes.stored ?_⟩
    · intro lower _ below
      by_contra unused
      rcases synced.recycled_of_not_live (below.trans free.1) unused with ⟨number, recycled, rfl⟩
      exact not_le.mpr below (minimal number recycled)
    · intro other
      exact get_set table least.toNat other (some file) (table.recycled.erase least) free.1

omit synced

theorem Admits.find?_eq_none (admitted : table.Admits (.tryInsertAt file hint))
    (live : table.Live hint) : table.recycled.find? (fun fd => decide (fd.toNat > hint)) = none := by
  apply List.find?_eq_none.mpr
  intro fd member
  simpa using admitted.1 live fd member

include synced

/-- `try_insert_at` is right when it does not reach for a recycled number. -/
theorem Synced.tryInsertAt_allocates (file : File) (admitted : table.Admits (.tryInsertAt file hint)) :
    table.Allocates file hint (table.tryInsertAt file hint) := by
  unfold FdTable.tryInsertAt
  by_cases limit : hint >= table.softLimit
  · rw [if_pos limit]
    refine ⟨rfl, fun fd least below => ?_⟩
    cases not_lt.mpr (limit.trans least) below
  rw [if_neg limit]
  by_cases inside : hint < table.inner.length
  · simp only [if_pos inside]
    cases entry : table.get hint with
    | none =>
      have unused : ¬ table.Live hint := by
        intro live
        rw [Live, entry] at live
        cases live
      refine ⟨⟨unused, le_rfl, not_le.mp limit, ?_⟩, Writes.stored ?_⟩
      · intro lower least below
        cases not_lt.mpr least below
      · intro other
        exact get_set table hint other _ _ inside
    | some used =>
      have live := Live.of_get entry
      have nothing := admitted.find?_eq_none live
      simp only [nothing]
      refine synced.append_allocates file inside.le ?_
      intro fd least below
      by_contra unused
      rcases synced.recycled_of_not_live below unused with ⟨number, member, rfl⟩
      have lower := not_lt.mp (admitted.1 live number member)
      exact unused (le_antisymm lower least ▸ live)
  · simp only [if_neg inside, if_neg limit]
    have outside := not_lt.mp inside
    refine ⟨⟨fun live => inside live.lt_length, le_rfl, not_le.mp limit, ?_⟩, Writes.stored ?_⟩
    · intro lower least below
      cases not_lt.mpr least below
    · intro other
      exact get_extend table file hint other _ outside

/-! ## Whole runs -/

theorem Synced.insertAt (file : File)
    (admitted : table.Admits (.insertAt file pos)) : (table.insertAt file pos).2.Synced := by
  unfold FdTable.insertAt
  by_cases inside : pos < table.inner.length
  · simp only [if_pos inside]
    cases entry : table.get pos with
    | none => exact synced.fill_filter pos file
    | some used => exact synced.replace (.of_get entry) file
  · simp only [if_neg inside]
    by_cases limit : pos >= table.softLimit
    · rw [if_pos limit]
      exact synced
    · rw [if_neg limit]
      have outside := not_lt.mp inside
      exact synced.extend file outside (not_le.mp limit) (fun _ => admitted outside (not_le.mp limit))
        (reverse_perm _)

theorem Synced.insert (file : File) (taken : table.exec (.insert file) = some after) : after.Synced := by
  simp only [exec, FdTable.insert] at taken
  by_cases empty : table.recycled = []
  · rw [findMin_of_recycled_empty empty] at taken
    cases taken
    exact synced.append file
  · rcases findMin_of_recycled_ne_nil empty with ⟨least, member, _, found⟩
    have inside := (synced.not_live_of_recycled member).1
    have stored := store_eq { table with recycled := table.recycled.erase least } inside file
    rw [found] at taken
    simp only [stored, Option.map_some] at taken
    cases taken
    refine synced.fill file (synced.nodup.erase least) fun number => ?_
    rw [synced.nodup.mem_erase_iff, and_comm, Ne, Ne, UInt8.toNat_inj]

theorem Synced.tryInsertAt (admitted : table.Admits (.tryInsertAt file hint))
    (taken : table.exec (.tryInsertAt file hint) = some after) : after.Synced := by
  simp only [exec, FdTable.tryInsertAt] at taken
  by_cases limit : hint >= table.softLimit
  · rw [if_pos limit] at taken
    cases taken
    exact synced
  rw [if_neg limit] at taken
  by_cases inside : hint < table.inner.length
  · rw [if_pos inside] at taken
    cases entry : table.get hint with
    | none =>
      rw [entry] at taken
      cases taken
      exact synced.fill_filter hint file
    | some used =>
      have live := Live.of_get entry
      have nothing := admitted.find?_eq_none live
      rw [entry] at taken
      simp only [nothing] at taken
      cases taken
      exact synced.append file
  · rw [if_neg inside, if_neg limit] at taken
    cases taken
    have outside := not_lt.mp inside
    exact synced.extend file outside (not_le.mp limit) (fun _ => admitted.2 outside (not_le.mp limit))
      (Perm.refl _)

theorem Synced.take (unused : ¬ table.Live fd) : (table.take fd).2.Synced := by
  unfold FdTable.take
  by_cases outside : fd >= table.inner.length
  · rw [if_pos outside]
    exact synced
  · rw [if_neg outside]
    have entry := (table.empty_slot_iff fd).mpr ⟨not_le.mp outside, unused⟩
    rcases List.getElem?_eq_some_iff.mp entry with ⟨inside, value⟩
    have same : table.inner.set fd none = table.inner := by
      have self := set_getElem_self inside
      rwa [value] at self
    simpa only [same] using synced

omit synced

/-- The step lemma: an admitted call keeps the two records in agreement. -/
theorem Synced.step {before after : FdTable File} {op : Op File} (synced : before.Synced)
    (taken : Guarded Admits Step before op after) : after.Synced := by
  rcases taken with ⟨admitted, taken⟩
  cases op with
  | insert file => exact synced.insert file taken
  | tryInsertAt file hint => exact synced.tryInsertAt admitted taken
  | insertAt file pos =>
    cases taken
    exact synced.insertAt file admitted
  | remove fd =>
    cases taken
    exact synced.remove admitted
  | take fd =>
    cases taken
    exact synced.take admitted
  | setSoftLimit limit =>
    cases taken
    exact synced.truncate limit limit (before.truncate limit).hardLimit id (.inl le_rfl)
  | setHardLimit limit =>
    cases taken
    have kept : (before.truncate limit).softLimit = before.softLimit := by
      unfold FdTable.truncate
      split <;> rfl
    have truncated := synced.truncate limit before.softLimit limit (fun _ => synced.bounded)
      (.inr le_rfl)
    rw [<- kept] at truncated
    exact truncated

/-- In every run of admitted calls on a table that starts full, `insert` and an
admitted `try_insert_at` use the least free number below the soft limit, leave
every other slot alone, and fail only when the whole range is in use. -/
theorem allocates_smallest_in_admitted_run
    (full : ∀ slot ∈ inner, slot.isSome = true) (short : inner.length <= defaultFdLimit)
    (run : Reached (Guarded Admits Step) (FdTable.new inner) table) (file : File) :
    table.Allocates file 0 (table.insert file) /\
      ∀ hint, table.Admits (.tryInsertAt file hint) ->
        table.Allocates file hint (table.tryInsertAt file hint) := by
  have synced : table.Synced := run.invariant (Synced.new full short) (fun _ _ _ => Synced.step)
  exact ⟨synced.insert_allocates file, fun _ => synced.tryInsertAt_allocates file⟩

/-- Opening descriptor 5 in a table of three is admitted, and the law then says
which of the two skipped numbers the next `insert` uses. -/
theorem allocates_smallest_after_opening_five :
    ((FdTable.new [some 0, some 1, some 2]).insertAt 7 5).2.Allocates 8 0
      (((FdTable.new [some 0, some 1, some 2]).insertAt 7 5).2.insert 8) := by
  have taken : Guarded Admits Step (FdTable.new [some 0, some 1, some 2]) (Op.insertAt 7 5) _ :=
    ⟨fun _ _ => by decide, rfl⟩
  exact (allocates_smallest_in_admitted_run (by decide) (by decide) (Reached.refl.next taken) 8).1

/-- Without the guard the law fails.  Opening descriptor 5 recycles 4 and 3;
`try_insert_at(0)` then uses 4 and leaves it recycled, so after one more `insert`
the next one hands the live descriptor 4 out again. -/
theorem insert_overwrites_live_descriptor :
    ¬ ∀ inner : List (Option Nat), (∀ slot ∈ inner, slot.isSome = true) ->
      inner.length <= defaultFdLimit -> ∀ table, Reached Step (FdTable.new inner) table ->
      ∀ file, table.Allocates file 0 (table.insert file) /\
        ∀ hint, table.Allocates file hint (table.tryInsertAt file hint) := by
  intro claim
  have opened : Step (FdTable.new [some 0, some 1, some 2]) (Op.insertAt 10 5)
      ⟨[some 0, some 1, some 2, none, none, some 10], [4, 3], 128, 256⟩ := rfl
  have hinted : Step ⟨[some 0, some 1, some 2, none, none, some 10], [4, 3], 128, 256⟩
      (Op.tryInsertAt 11 0) ⟨[some 0, some 1, some 2, none, some 11, some 10], [4, 3], 128, 256⟩ := rfl
  have inserted : Step ⟨[some 0, some 1, some 2, none, some 11, some 10], [4, 3], 128, 256⟩
      (Op.insert 12) ⟨[some 0, some 1, some 2, some 12, some 11, some 10], [4], 128, 256⟩ := rfl
  have run := ((Reached.refl.next opened).next hinted).next inserted
  have law := (claim [some 0, some 1, some 2] (by decide) (by decide) _ run 13).1
  exact law.1.1 rfl

/-! ## What a call stores -/

section Stores

/-- The number that `insert` uses. -/
def nextFd (table : FdTable File) : Nat := (table.recycled.min?.map UInt8.toNat).getD table.inner.length

/-- The number that `try_insert_at` uses, if it is not refused. -/
def hintedFd (table : FdTable File) (hint : Nat) : Nat :=
  if hint < table.inner.length /\ (table.get hint).isSome then
    ((table.recycled.find? (fun number => decide (number.toNat > hint))).map UInt8.toNat).getD table.inner.length
  else hint

theorem writes_append (room : table.append file = (.ok fd, after)) :
    fd = table.inner.length /\ fd ≠ table.softLimit /\ Writes table file fd after := by
  rw [append_eq] at room
  split at room
  · cases room
  · rename_i below
    cases room
    exact ⟨rfl, below, fun other => get_extend table file _ other [] le_rfl⟩

theorem writes_store (recycled : List UInt8) (stored : store { table with recycled := recycled } fd file = some after) :
    fd < table.inner.length /\ Writes table file fd after := by
  unfold store at stored
  split at stored
  · rename_i inside
    cases stored
    refine ⟨inside, ?_⟩
    intro other
    exact get_set table fd other (some file) recycled inside
  · cases stored

theorem writes_insert (inserted : table.insert file = some (.ok fd, after)) :
    fd = table.nextFd /\ Writes table file fd after := by
  unfold insert at inserted
  by_cases empty : table.recycled = []
  · rw [findMin_of_recycled_empty empty] at inserted
    rcases writes_append (Option.some.inj inserted) with ⟨last, _, writes⟩
    refine ⟨?_, writes⟩
    rw [last, nextFd, empty]
    rfl
  · cases minimum : table.recycled.min? with
    | none => cases empty (min?_eq_none_iff.mp minimum)
    | some least =>
      rcases findMin_of_recycled_ne_nil empty with ⟨number, member, minimal, found⟩
      have bounds := min?_eq_some_iff.mp minimum
      have same : number = least := by
        apply UInt8.toNat_inj.mp
        exact le_antisymm (minimal least bounds.1) (UInt8.le_iff_toNat_le.mp (bounds.2 number member))
      rw [found] at inserted
      rcases Option.map_eq_some_iff.mp inserted with ⟨_, done, pair⟩
      cases pair
      refine ⟨?_, (writes_store _ done).2⟩
      rw [nextFd, minimum, same]
      rfl

theorem writes_insertAt (inserted : table.insertAt file pos = (.ok fd, after)) :
    (pos < table.inner.length \/ pos < table.softLimit) /\ Writes table file pos after := by
  unfold insertAt at inserted
  by_cases inside : pos < table.inner.length
  · rw [if_pos inside] at inserted
    refine ⟨.inl inside, ?_⟩
    intro other
    rw [<- (Prod.mk.inj inserted).2]
    exact get_set table pos other (some file) _ inside
  · rw [if_neg inside] at inserted
    split at inserted
    · cases inserted
    · rename_i low
      refine ⟨.inr (not_le.mp low), ?_⟩
      intro other
      rw [<- (Prod.mk.inj inserted).2]
      exact get_extend table file pos other _ (not_lt.mp inside)

theorem insertAt_inside (inside : pos < table.inner.length) :
    table.insertAt file pos = (.ok pos, (table.insertAt file pos).2) := by
  unfold insertAt
  rw [if_pos inside]

theorem writes_tryInsertAt (inserted : table.tryInsertAt file hint = some (.ok fd, after)) :
    fd = table.hintedFd hint /\ hint < table.softLimit /\ ¬ (fd = table.inner.length /\ fd = table.softLimit) /\
      Writes table file fd after := by
  unfold tryInsertAt at inserted
  unfold hintedFd
  split at inserted
  · cases inserted
  · rename_i low
    have below := not_le.mp low
    by_cases inside : hint < table.inner.length
    · rw [if_pos inside] at inserted
      cases entry : table.get hint with
      | none =>
        rw [entry] at inserted
        rcases Prod.mk.inj (Option.some.inj inserted) with ⟨place, stored⟩
        rw [if_neg (fun both => by cases both.2), <- Except.ok.inj place]
        refine ⟨rfl, below, by omega, ?_⟩
        intro other
        rw [<- stored]
        exact get_set table hint other (some file) _ inside
      | some used =>
        rw [entry] at inserted
        rw [if_pos ⟨inside, rfl⟩]
        cases found : table.recycled.find? (fun number => decide (number.toNat > hint)) with
        | none =>
          rw [found] at inserted
          rcases writes_append (Option.some.inj inserted) with ⟨last, limit, writes⟩
          exact ⟨last, below, fun both => limit both.2, writes⟩
        | some number =>
          rw [found] at inserted
          rcases Option.map_eq_some_iff.mp inserted with ⟨stored, done, pair⟩
          cases pair
          rcases writes_store table.recycled done with ⟨_, writes⟩
          exact ⟨rfl, below, by omega, writes⟩
    · rw [if_neg inside] at inserted
      rcases Prod.mk.inj (Option.some.inj inserted) with ⟨place, stored⟩
      rw [if_neg (fun both => inside both.1), <- Except.ok.inj place]
      refine ⟨rfl, below, by omega, ?_⟩
      intro other
      rw [<- stored]
      exact get_extend table file hint other _ (not_lt.mp inside)

theorem get_of_absent (absent : table.get fd = none) (other : Nat) :
    table.get other = if other = fd then none else table.get other := by
  by_cases same : other = fd
  · rw [if_pos same, same, absent]
  · rw [if_neg same]

theorem get_eq_none_of_le (outside : fd >= table.inner.length) : table.get fd = none := by
  rw [get, getElem?_eq_none outside]
  rfl

theorem get_remove (fd other : Nat) : (table.remove fd).2.get other = if other = fd then none else table.get other := by
  unfold remove
  by_cases outside : fd >= table.inner.length
  · rw [if_pos outside]
    exact get_of_absent (get_eq_none_of_le outside) other
  · rw [if_neg outside]
    cases entry : table.get fd with
    | some used => exact get_set table fd other none _ (not_le.mp outside)
    | none => exact get_of_absent entry other

theorem get_take (fd other : Nat) : (table.take fd).2.get other = if other = fd then none else table.get other := by
  unfold take
  by_cases outside : fd >= table.inner.length
  · rw [if_pos outside]
    exact get_of_absent (get_eq_none_of_le outside) other
  · rw [if_neg outside]
    exact get_set table fd other none _ (not_le.mp outside)

theorem length_take (fd : Nat) : (table.take fd).2.inner.length = table.inner.length := by
  unfold take
  split
  · rfl
  · exact length_set

/-- There is no number left for `insert`. -/
def Full (table : FdTable File) : Prop := table.recycled = [] /\ table.inner.length = table.softLimit

theorem Full.insert_eq (full : table.Full) : table.insert file = some (.error EMFILE, table) := by
  unfold insert append
  rw [findMin_of_recycled_empty full.1]
  dsimp only
  rw [if_pos full.2]

end Stores

/-! ## Pipes -/

section Pipes

/-- `FileDescriptor`, with what its file answers to `readable` and `writable`. -/
structure OpenFile where
  cloexec : Bool
  nonblock : Bool
  readable : Bool
  writable : Bool

def O_CLOEXEC : BitVec 32 := 0o2000000
def O_DIRECT : BitVec 32 := 0o40000
def O_NONBLOCK : BitVec 32 := 0o4000

/-- The two ends of `make_pipe`. -/
def pipeRead (flags : BitVec 32) : OpenFile := ⟨flags &&& O_CLOEXEC == O_CLOEXEC, false, true, false⟩
def pipeWrite (flags : BitVec 32) : OpenFile := ⟨flags &&& O_CLOEXEC == O_CLOEXEC, false, false, true⟩

section Functions

variable (table : FdTable OpenFile) (flags : BitVec 32)

/-- `sys_pipe2`, which keeps what it has entered when a later step fails.  `copies` says
whether `copy_to_user_array` can write the two numbers. -/
def sysPipe2 (copies : Nat -> Nat -> Bool) (flags : BitVec 32) :
    Option (Int × FdTable OpenFile) :=
  if flags &&& ~~~(O_CLOEXEC ||| O_DIRECT ||| O_NONBLOCK) ≠ 0 then some (EINVAL, table)
  else (table.insert (pipeRead flags)).bind fun
    | (.error errno, table) => some (errno, table)
    | (.ok readFd, table) => (table.insert (pipeWrite flags)).map fun
      | (.error errno, table) => (errno, table)
      | (.ok writeFd, table) => if copies readFd writeFd then (SUCCESS, table) else (EFAULT, table)

/-- An error changes nothing, and a success adds the two ends under unused numbers. -/
def Atomic : Option (Int × FdTable OpenFile) -> Prop
  | none => False
  | some (code, after) => (code ≠ SUCCESS /\ after = table) \/ code = SUCCESS /\ ∃ readFd writeFd,
    ¬ table.Live readFd /\ ¬ table.Live writeFd /\ readFd ≠ writeFd /\ ∀ fd, after.get fd =
      if fd = writeFd then some (pipeWrite flags) else if fd = readFd then some (pipeRead flags) else table.get fd

/-- The numbers under which the two ends are entered. -/
def pipeFds : Option (Nat × Nat) :=
  match table.insert (pipeRead flags) with
  | some (.ok readFd, table) =>
    match table.insert (pipeWrite flags) with
    | some (.ok writeFd, _) => some (readFd, writeFd)
    | _ => none
  | _ => none

/-- They are different numbers that are not in use. -/
def HandsOut (readFd writeFd : Nat) : Prop :=
  table.pipeFds flags = some (readFd, writeFd) /\ ¬ table.Live readFd /\ ¬ table.Live writeFd /\ readFd ≠ writeFd

end Functions

/-- An `insert` that is refused leaves a full table as it is, and one that is not changes it. -/
theorem insert_outcome {answer : Except Int Nat} (inserted : table.insert file = some (answer, after)) :
    (∀ errno, answer = .error errno -> errno = EMFILE /\ table.Full /\ after = table) /\
      ∀ fd, answer = .ok fd ->
        table.inner.length + after.recycled.length < after.inner.length + table.recycled.length := by
  unfold FdTable.insert at inserted
  by_cases empty : table.recycled = []
  · rw [findMin_of_recycled_empty empty] at inserted
    unfold append at inserted
    dsimp only at inserted
    split at inserted
    · next full =>
      cases inserted
      exact ⟨fun _ same => ⟨(Except.error.inj same).symm, ⟨empty, full⟩, rfl⟩, nofun⟩
    · cases inserted
      refine ⟨nofun, fun _ _ => ?_⟩
      simp only [length_append, length_singleton]
      omega
  · rcases findMin_of_recycled_ne_nil empty with ⟨least, member, _, found⟩
    rw [found] at inserted
    unfold store at inserted
    dsimp only at inserted
    split at inserted
    · cases inserted
      refine ⟨nofun, fun _ _ => ?_⟩
      have shorter := length_erase_of_mem member
      have positive := length_pos_of_mem member
      simp only [length_set, shorter]
      omega
    · cases inserted

section TwoEnds

variable {table middle last : FdTable OpenFile} {flags : BitVec 32} {readFd writeFd : Nat}
  (first : table.insert (pipeRead flags) = some (.ok readFd, middle))
  (second : middle.insert (pipeWrite flags) = some (.ok writeFd, last))

include first second

theorem get_pipe (fd : Nat) : last.get fd =
    if fd = writeFd then some (pipeWrite flags) else if fd = readFd then some (pipeRead flags) else table.get fd := by
  rw [(writes_insert second).2 fd, (writes_insert first).2 fd]

/-- If the table has got two ends under unused numbers, then those are the numbers of the ends. -/
theorem unused_of_added {ownRead ownWrite : Nat} (unusedRead : ¬ table.Live ownRead)
    (unusedWrite : ¬ table.Live ownWrite) (different : ownRead ≠ ownWrite)
    (added : ∀ fd, last.get fd = if fd = ownWrite then some (pipeWrite flags)
      else if fd = ownRead then some (pipeRead flags) else table.get fd) :
    readFd = ownRead /\ writeFd = ownWrite := by
  have kinds : some (pipeRead flags) ≠ some (pipeWrite flags) := by
    intro same
    have readable := congrArg OpenFile.readable (Option.some.inj same)
    cases readable
  have entered := get_pipe first second
  have write_eq : ownWrite = writeFd := by
    by_contra other
    have own := (entered ownWrite).symm.trans ((added ownWrite).trans (if_pos rfl))
    rw [if_neg other] at own
    split at own
    · exact kinds own
    · exact unusedWrite (.of_get own)
  subst write_eq
  have own := (entered ownRead).symm.trans ((added ownRead).trans ((if_neg different).trans (if_pos rfl)))
  rw [if_neg different] at own
  split at own
  · next same => exact ⟨same.symm, rfl⟩
  · exact absurd (.of_get own) unusedRead

end TwoEnds

/-- If the two records of free numbers agree, then the numbers are not in use. -/
theorem Synced.handsOut {table : FdTable OpenFile} (synced : table.Synced) {flags : BitVec 32} {readFd writeFd : Nat}
    (entered : table.pipeFds flags = some (readFd, writeFd)) : table.HandsOut flags readFd writeFd := by
  have given := entered
  unfold pipeFds at entered
  split at entered
  · next firstFd middle first =>
    split at entered
    · next secondFd last second =>
      cases entered
      have later : middle.Synced := synced.insert (pipeRead flags) (by rw [exec, first]; rfl)
      have free := synced.insert_allocates (pipeRead flags)
      have next := later.insert_allocates (pipeWrite flags)
      rw [first] at free
      rw [second] at next
      have different : readFd ≠ writeFd := by
        rintro rfl
        exact next.1.1 (.of_get free.2.1)
      refine ⟨given, free.1.1, ?_, different⟩
      have unused := next.1.1
      rwa [Live, free.2.2 writeFd different.symm] at unused
    · cases entered
  · cases entered

end Pipes

end FdTable

end GCore.Fs
