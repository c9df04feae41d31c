import GCore.Mm.LinearMap
import GCore.Mm.PageTable

namespace GCore.Mm

open List

/-!
# Map areas

An area is a stretch of pages with one permission, backed by nothing or by a file.
Its operations change the area and the page table together.  Areas of user spaces are
framed; identical mappings occur in the kernel's own space only and are left out.

What the operations ask of their surroundings comes in as an answer: the frame that
the allocator hands out, the strong count of a tracker, the identifiers that the
compressed store and the swap device give, and the state of the backing file.
Contents are not recorded here.  An operation that moves a page's content says so by
a `Fill` or a `Store`, for the memory itself to carry out.
-/

inductive MemoryError where
  | badAddress
  | areaNotFound
  | alreadyMapped
  | notMapped
  | noPermission
  | notInMemory
  | notCompressed
  | notSwappedOut
  | alreadyAllocated
  | sharedPage
  | zramIsFull
  | swapIsFull
  | beyondEOF
  deriving DecidableEq, Repr

/-- The ways in which the modelled code panics. -/
inductive Panic where
  /-- the `unreachable!()` of `do_page_fault` -/
  | unreachableInMemory
  /-- the `unwrap` of `insert_in_memory` -/
  | alreadyAllocated
  /-- the assertion of `PageTable::map` -/
  | mappedBeforeMapping
  /-- the `unwrap` of a frame allocation -/
  | outOfFrames
  /-- the `unwrap`s of the page cache lookup -/
  | noCachePage
  /-- any other failed `unwrap`, assertion or index -/
  | failed
  deriving DecidableEq, Repr

/-- A content that has to be put into a frame. -/
inductive Fill where
  | none
  | zero (ppn : Nat)
  | copy (source target : Nat)
  | unzip (id ppn : Nat)
  | swapIn (id ppn : Nat)
  | file (ino offset ppn : Nat)
  deriving DecidableEq, Repr

/-- A content that has to be put aside. -/
inductive Store where
  | zram (ppn id : Nat)
  | swap (ppn id : Nat)
  deriving DecidableEq, Repr

/-- The surroundings of a page fault. -/
structure FaultEnv where
  frame : Option Nat
  strongCount : Nat
  fileSize : Nat
  cachePage : Option Nat

/-- The surroundings of one round of reclaim. -/
structure ReclaimEnv where
  strongCount : Nat
  zram : Option Nat
  swap : Option Nat

/-- The backing file: which one, and the position that page zero is read from.  Every
read puts the position back, so it is fixed once the area is made. -/
structure MapFile where
  ino : Nat
  offset : Nat
  deriving DecidableEq, Repr

structure MapArea where
  inner : LinearMap
  mapPerm : MapPermission
  writableStripped : Bool
  mapFile : Option MapFile
  deriving DecidableEq, Repr

namespace MapArea

def start (area : MapArea) : Nat := area.inner.start

def stop (area : MapArea) : Nat := area.inner.stop

def frame? (area : MapArea) (vpn : Nat) : Option Frame := area.inner.frame? vpn

/-- The page lies in the area. -/
def Holds (area : MapArea) (vpn : Nat) : Prop := area.start <= vpn /\ vpn < area.stop

instance (area : MapArea) (vpn : Nat) : Decidable (area.Holds vpn) :=
  inferInstanceAs (Decidable (_ /\ _))

/-- The pages from `first` up to `last`. -/
def pages (first last : Nat) : List Nat := List.range' first (last - first)

/-- `MapArea::new`; a range that ends before it starts fails an assertion. -/
def new (startVa endVa : Nat) (mapPerm : MapPermission) (mapFile : Option MapFile) : Option MapArea :=
  if floor startVa <= ceil endVa then
    some
      { inner := LinearMap.new (floor startVa) (ceil endVa - floor startVa)
        mapPerm := mapPerm
        writableStripped := false
        mapFile := mapFile }
  else none

def fromAnother (another : MapArea) : MapArea :=
  { another with inner := LinearMap.new another.start (another.stop - another.start) }

section Operations

variable (area : MapArea) (table : PageTable)

/-- Record a frame for a page and map it. -/
def mapFrame (vpn ppn : Nat) : Except Panic (MapArea × PageTable) :=
  match area.inner.allocInMemory vpn ppn with
  | none => .error .alreadyAllocated
  | some inner =>
    match table.map vpn ppn area.mapPerm with
    | none => .error .mappedBeforeMapping
    | some table => .ok ({ area with inner := inner }, table)

/-- An unmapped page is reported to the caller, who only logs it. -/
def unmapOne (vpn : Nat) : MapArea × PageTable :=
  if table.isMapped vpn then
    ({ area with inner := (area.inner.removeInMemory vpn).2 }, table.unmap vpn)
  else (area, table)

def unmapPages (vpns : List Nat) : MapArea × PageTable :=
  vpns.foldl (fun state vpn => unmapOne state.1 state.2 vpn) (area, table)

def unmap : MapArea × PageTable :=
  area.unmapPages table (pages area.start area.stop)

/-- `map_from_existing_page_table`, the part of a fork that shares an area.  A page
that the new table maps already makes it fail. -/
def mapFromExistingPageTable (dst src : PageTable) : Option (PageTable × PageTable) :=
  (pages area.start area.stop).foldlM
    (fun tables vpn =>
      match tables.2.blockAndRetMut vpn with
      | (none, src) => some (tables.1, src)
      | (some ppn, src) => (tables.1.map vpn ppn area.mapPerm.withoutW).map (fun dst => (dst, src)))
    (dst, src)

def copyOnWrite (vpn : Nat) (env : FaultEnv) :
    Except Panic (Except MemoryError Nat × MapArea × PageTable × Fill) :=
  match area.inner.removeInMemory vpn with
  | (none, inner) => .ok (.error .notMapped, { area with inner := inner }, table, .none)
  | (some oldPpn, inner) =>
    if env.strongCount = 1 then
      match inner.allocInMemory vpn oldPpn with
      | none => .error .alreadyAllocated
      | some inner =>
        match table.setPteFlags vpn area.mapPerm with
        | none => .error .failed
        | some table => .ok (.ok oldPpn, { area with inner := inner }, table, .none)
    else
      match env.frame with
      | none => .error .outOfFrames
      | some newPpn =>
        match mapFrame { area with inner := inner } (table.unmap vpn) vpn newPpn with
        | .error panic => .error panic
        | .ok (area, table) => .ok (.ok newPpn, area, table, .copy oldPpn newPpn)

/-- `expand_to`; a lower end is refused. -/
def expandTo (newEnd : Nat) : Option MapArea :=
  if ceil newEnd < area.stop then none else some { area with inner := area.inner.setEnd (ceil newEnd) }

/-- `shrink_to` for an end page inside the area. -/
def shrinkTo (newEnd : Nat) : MapArea × PageTable :=
  let (area, table) := area.unmapPages table (pages newEnd area.stop)
  ({ area with inner := area.inner.setEnd newEnd }, table)

/-- `rshrink_to` for a start page inside the area.  The position in the backing file
stays as it was. -/
def rshrinkTo (newStart : Nat) : MapArea × PageTable :=
  let (area, table) := area.unmapPages table (pages area.start newStart)
  ({ area with inner := area.inner.setStart newStart }, table)

def checkOverlapping (startVpn endVpn : Nat) : Option (Nat × Nat) :=
  if endVpn < area.start \/ startVpn >= area.stop then none
  else
    some (if startVpn > area.start then startVpn else area.start,
      if endVpn < area.stop then endVpn else area.stop)

/-- The upper part of a file-backed area is read from a later position.  The source unwraps
the result of its `lseek`, which fails for a position of 2^63 or more; here it does not. -/
def intoTwo (cut : Nat) : Option (MapArea × MapArea) :=
  match area.inner.intoTwo cut with
  | none => none
  | some (first, second) =>
    some
      ({ area with inner := first },
       { area with
         inner := second
         mapFile := area.mapFile.map
           (fun file => { file with offset := file.offset + (cut - area.start) * pageSize }) })

/-- File-backed areas are not split in three.  As in the linear map, a failed second
cut has trimmed the area already. -/
def intoThree (firstCut secondCut : Nat) : MapArea × Option (MapArea × MapArea) :=
  if area.mapFile.isSome then (area, none)
  else
    match area.inner.intoThree firstCut secondCut with
    | (first, none) => ({ area with inner := first }, none)
    | (first, some (second, third)) =>
      ({ area with inner := first },
        some ({ area with inner := second, mapFile := none }, { area with inner := third, mapFile := none }))

end Operations

/-! ## Reclaim -/

end MapArea

namespace Frame

section Functions

variable (frame : Frame) (env : ReclaimEnv)

def zip : Except MemoryError (Frame × Store) :=
  match frame with
  | .inMemory ppn =>
    if env.strongCount = 1 then
      match env.zram with
      | some id => .ok (.compressed id, .zram ppn id)
      | none => .error .zramIsFull
    else .error .sharedPage
  | _ => .error .notInMemory

/-- `force_swap_out` does not look at the strong count. -/
def forceSwapOut : Except MemoryError (Frame × Store) :=
  match frame with
  | .inMemory ppn =>
    match env.swap with
    | some id => .ok (.swappedOut id, .swap ppn id)
    | none => .error .swapIsFull
  | _ => .error .notInMemory

def swapOut : Except MemoryError (Frame × Store) :=
  match frame with
  | .inMemory _ => if env.strongCount = 1 then frame.forceSwapOut env else .error .sharedPage
  | _ => .error .notInMemory

/-- What `do_oom` tries on a victim: compress it, and swap it out if the store is full. -/
def oomVictim : Option (Frame × Store) :=
  match frame.zip env with
  | .ok moved => some moved
  | .error .zramIsFull => (frame.swapOut env).toOption
  | .error _ => none

/-- What `force_swap` tries on a victim. -/
def forceVictim : Option (Frame × Store) :=
  (frame.forceSwapOut env).toOption

end Functions

end Frame

namespace MapArea

/-- Count a page that was put aside. -/
def countStore (map : LinearMap) : Store -> LinearMap
  | .zram _ _ => { map with compressed := (map.compressed + 1) % usizeRange }
  | .swap _ _ => { map with swapped := (map.swapped + 1) % usizeRange }

/-- One round of a reclaim loop on the victim `index`. -/
def reclaimOne (victim : Frame -> ReclaimEnv -> Option (Frame × Store)) (area : MapArea)
    (table : PageTable) (index : Nat) (env : ReclaimEnv) : MapArea × PageTable × List Store :=
  match area.inner.frames[index]? with
  | none => (area, table, [])
  | some frame =>
    match victim frame env with
    | none => (area, table, [])
    | some (moved, store) =>
      ({ area with
          inner := countStore { area.inner with frames := area.inner.frames.set index moved } store },
        table.unmap (area.start + index), [store])

/-- The loop of `do_oom` and `force_swap`: it empties the queue of active pages.  The
surroundings may be different in every round. -/
def reclaimLoop (victim : Frame -> ReclaimEnv -> Option (Frame × Store)) :
    List Nat -> (Nat -> ReclaimEnv) -> MapArea -> PageTable -> MapArea × PageTable × List Store
  | [], _, area, table => (area, table, [])
  | index :: queue, envs, area, table =>
    let (area, table, store) := reclaimOne victim
      { area with inner := { area.inner with active := queue } } table index (envs 0)
    let (area, table, stores) := reclaimLoop victim queue (fun round => envs (round + 1)) area table
    (area, table, store ++ stores)

/-- How many pages the counters say were put aside. -/
def reclaimed (before after : LinearMap) : Nat :=
  (after.compressed + after.swapped + 2 * usizeRange - before.compressed % usizeRange -
    before.swapped % usizeRange) % usizeRange

def doOom (area : MapArea) (table : PageTable) (envs : Nat -> ReclaimEnv) :
    MapArea × PageTable × List Store × Nat :=
  let (after, table, stores) := reclaimLoop Frame.oomVictim area.inner.active envs area table
  (after, table, stores, reclaimed area.inner after.inner)

/-- `force_swap` returns the change of the counter of swapped pages; it changes no
other one. -/
def forceSwap (area : MapArea) (table : PageTable) (envs : Nat -> ReclaimEnv) :
    MapArea × PageTable × List Store × Nat :=
  let (after, table, stores) := reclaimLoop Frame.forceVictim area.inner.active envs area table
  (after, table, stores, (after.inner.swapped + usizeRange - area.inner.swapped % usizeRange) % usizeRange)

/-! ## Pieces of an area

Trimming and splitting leave stretches of an area whose pages keep their records. -/

variable {first last vpn : Nat} {area piece : MapArea} {frame : Frame}

theorem mem_pages : vpn ∈ pages first last ↔ first <= vpn /\ vpn < last := by
  unfold pages
  rw [mem_range'_1]
  omega

theorem pages_of_le (empty : last <= first) : pages first last = [] := by
  rw [pages, Nat.sub_eq_zero_of_le empty]
  rfl

theorem holds_iff_frame? (area : MapArea) (vpn : Nat) : area.Holds vpn ↔ (area.frame? vpn).isSome = true :=
  (area.inner.frame?_isSome_iff vpn).symm

theorem Holds.exists_frame (held : area.Holds vpn) : ∃ frame, area.frame? vpn = some frame :=
  Option.isSome_iff_exists.mp ((area.holds_iff_frame? vpn).mp held)

theorem holds_of_frame? (record : area.frame? vpn = some frame) : area.Holds vpn := by
  rw [holds_iff_frame?, record]
  rfl

theorem frame?_eq_none_iff (area : MapArea) (vpn : Nat) : area.frame? vpn = none ↔ ¬ area.Holds vpn := by
  rw [holds_iff_frame?]
  cases area.frame? vpn <;> simp

/-- The file and the position in it that a page is backed by. -/
def backing (area : MapArea) (vpn : Nat) : Option (Nat × Nat) :=
  area.mapFile.map (fun file => (file.ino, file.offset + (vpn - area.start) * pageSize))

/-- The pages from `first` up to `last` of an area, as an area of their own. -/
structure Piece (area : MapArea) (first last : Nat) (piece : MapArea) : Prop where
  start_eq : piece.start = first
  stop_eq : piece.stop = last
  frame_eq : ∀ vpn, piece.frame? vpn = if first <= vpn /\ vpn < last then area.frame? vpn else none
  perm_eq : piece.mapPerm = area.mapPerm
  stripped_eq : piece.writableStripped = area.writableStripped

theorem Piece.holds_iff (part : Piece area first last piece)
    (vpn : Nat) : piece.Holds vpn ↔ first <= vpn /\ vpn < last := by
  rw [Holds, part.start_eq, part.stop_eq]

/-- The records outside of a piece are settled by its bounds. -/
theorem Piece.of_part (part : area.inner.Part first last piece.inner) (perm_eq : piece.mapPerm = area.mapPerm)
    (stripped_eq : piece.writableStripped = area.writableStripped) : Piece area first last piece := by
  refine ⟨part.start_eq, part.stop_eq, fun vpn => ?_, perm_eq, stripped_eq⟩
  by_cases inside : first <= vpn /\ vpn < last
  · exact (part.frame_eq vpn inside.1 inside.2).trans (if_pos inside).symm
  · rw [if_neg inside, frame?_eq_none_iff, Holds, start, stop, part.start_eq, part.stop_eq]
    exact inside

theorem Piece.record (part : Piece area first last piece) (record : piece.frame? vpn = some frame) :
    area.frame? vpn = some frame /\ first <= vpn /\ vpn < last := by
  have inside := (part.holds_iff vpn).mp (holds_of_frame? record)
  rw [part.frame_eq, if_pos inside] at record
  exact ⟨record, inside⟩

theorem pages_append {middle : Nat} (low : first <= middle) (high : middle <= last) :
    pages first middle ++ pages middle last = pages first last := by
  unfold pages
  have next : middle = first + 1 * (middle - first) := by omega
  have total : last - first = (middle - first) + (last - middle) := by omega
  rw [total, <- range'_append, <- next]

theorem Piece.refl (area : MapArea) : Piece area area.start area.stop area :=
  .of_part ⟨rfl, rfl, fun _ _ _ => rfl⟩ rfl rfl

/-- Taking pages away leaves the records of the others. -/
structure Unmaps (area : MapArea) (table : PageTable) (vpns : List Nat) (result : MapArea × PageTable) :
    Prop where
  start_eq : result.1.start = area.start
  stop_eq : result.1.stop = area.stop
  perm_eq : result.1.mapPerm = area.mapPerm
  stripped_eq : result.1.writableStripped = area.writableStripped
  file_eq : result.1.mapFile = area.mapFile
  frame_eq : ∀ vpn ∉ vpns, result.1.frame? vpn = area.frame? vpn
  entry_eq : ∀ vpn, result.2.findPte vpn =
    if slot vpn ∈ vpns.map slot then none else table.findPte vpn

theorem unmapOne_table (area : MapArea) (table : PageTable) (vpn : Nat) :
    (area.unmapOne table vpn).2 = table.unmap vpn := by
  unfold unmapOne
  split
  · rfl
  · rename_i unmapped
    exact (PageTable.unmap_of_unmapped ((table.isMapped_eq_false_iff vpn).mp (by simpa using unmapped))).symm

theorem unmapPages_table (vpns : List Nat) (area : MapArea) (table : PageTable) :
    (area.unmapPages table vpns).2 = vpns.foldl PageTable.unmap table := by
  induction vpns generalizing area table with
  | nil => rfl
  | cons first rest ih =>
    rw [foldl_cons, <- area.unmapOne_table]
    exact ih _ _

theorem findPte_unmapPages (vpns : List Nat) (area : MapArea) (table : PageTable) (vpn : Nat) :
    (area.unmapPages table vpns).2.findPte vpn = if slot vpn ∈ vpns.map slot then none else table.findPte vpn := by
  rw [unmapPages_table]
  exact PageTable.entries_foldl_unmap vpns table (slot vpn)

theorem unmapOne_unmaps (area : MapArea) (table : PageTable) (inside : area.start <= vpn) :
    Unmaps area table [vpn] (area.unmapOne table vpn) := by
  have entry_eq := findPte_unmapPages [vpn] area table
  change ∀ other, (area.unmapOne table vpn).2.findPte other = _ at entry_eq
  unfold unmapOne at entry_eq ⊢
  split at entry_eq
  · rename_i mapped
    have removed := area.inner.removeInMemory_spec inside
    rw [if_pos mapped]
    refine ⟨removed.1, removed.2.1, rfl, rfl, rfl, ?_, entry_eq⟩
    intro other different
    refine (removed.2.2.2 other).trans (if_neg ?_)
    rintro ⟨same, _⟩
    exact different (mem_singleton.mpr same)
  · rename_i unmapped
    rw [if_neg unmapped]
    exact ⟨rfl, rfl, rfl, rfl, rfl, fun _ _ => rfl, entry_eq⟩

theorem unmapPages_unmaps (vpns : List Nat) (area : MapArea) (table : PageTable)
    (inside : ∀ vpn ∈ vpns, area.start <= vpn) :
    Unmaps area table vpns (area.unmapPages table vpns) := by
  induction vpns generalizing area table with
  | nil => exact ⟨rfl, rfl, rfl, rfl, rfl, fun _ _ => rfl, findPte_unmapPages [] area table⟩
  | cons first rest ih =>
    have one := area.unmapOne_unmaps table (inside first mem_cons_self)
    have others := ih (area.unmapOne table first).1 (area.unmapOne table first).2
      (fun vpn member => by rw [one.start_eq]; exact inside vpn (mem_cons_of_mem _ member))
    refine ⟨others.start_eq.trans one.start_eq, others.stop_eq.trans one.stop_eq,
      others.perm_eq.trans one.perm_eq, others.stripped_eq.trans one.stripped_eq,
      others.file_eq.trans one.file_eq, ?_, findPte_unmapPages (first :: rest) area table⟩
    intro vpn outside
    rw [mem_cons, not_or] at outside
    exact (others.frame_eq vpn outside.2).trans (one.frame_eq vpn (by simpa using outside.1))

variable (area : MapArea)

theorem shrinkTo_spec (table : PageTable) {newEnd : Nat} (above : area.start <= newEnd)
    (below : newEnd <= area.stop) :
    Piece area area.start newEnd (area.shrinkTo table newEnd).1 /\
      (area.shrinkTo table newEnd).1.mapFile = area.mapFile /\
      ∀ vpn, (area.shrinkTo table newEnd).2.findPte vpn =
        if slot vpn ∈ (pages newEnd area.stop).map slot then none else table.findPte vpn := by
  have unmaps := unmapPages_unmaps (pages newEnd area.stop) area table
    (fun vpn member => above.trans (mem_pages.mp member).1)
  unfold shrinkTo
  generalize area.unmapPages table (pages newEnd area.stop) = result at unmaps ⊢
  have start_eq : result.1.inner.start = area.start := unmaps.start_eq
  have trimmed := LinearMap.setEnd_spec (start_eq.trans_le above)
  refine ⟨.of_part ⟨start_eq, trimmed.1, ?_⟩ unmaps.perm_eq unmaps.stripped_eq, unmaps.file_eq, unmaps.entry_eq⟩
  intro vpn _ kept
  exact (trimmed.2 vpn kept ((kept.trans_le below).trans_eq unmaps.stop_eq.symm)).trans
    (unmaps.frame_eq vpn (fun member => not_lt.mpr (mem_pages.mp member).1 kept))

theorem rshrinkTo_spec (table : PageTable) {newStart : Nat} (above : area.start <= newStart)
    (below : newStart <= area.stop) :
    Piece area newStart area.stop (area.rshrinkTo table newStart).1 /\
      (area.rshrinkTo table newStart).1.mapFile = area.mapFile /\
      ∀ vpn, (area.rshrinkTo table newStart).2.findPte vpn =
        if slot vpn ∈ (pages area.start newStart).map slot then none else table.findPte vpn := by
  have unmaps := unmapPages_unmaps (pages area.start newStart) area table
    (fun vpn member => (mem_pages.mp member).1)
  unfold rshrinkTo
  generalize area.unmapPages table (pages area.start newStart) = result at unmaps ⊢
  have trimmed : LinearMap.Part _ _ _ (result.1.inner.setStart newStart) :=
    .of_drop (unmaps.start_eq.trans_le above) (below.trans_eq unmaps.stop_eq.symm) rfl rfl
  refine ⟨.of_part ⟨rfl, trimmed.stop_eq.trans unmaps.stop_eq, ?_⟩ unmaps.perm_eq unmaps.stripped_eq,
    unmaps.file_eq, unmaps.entry_eq⟩
  intro vpn kept behind
  exact (trimmed.frame_eq vpn kept (behind.trans_eq unmaps.stop_eq.symm)).trans
    (unmaps.frame_eq vpn (fun member => not_lt.mpr kept (mem_pages.mp member).2))

theorem intoTwo_spec {cut : Nat} (above : area.start < cut) (below : cut < area.stop) :
    ∃ first second, area.intoTwo cut = some (first, second) /\
      Piece area area.start cut first /\ Piece area cut area.stop second /\
      first.mapFile = area.mapFile /\ second.mapFile.isSome = area.mapFile.isSome := by
  unfold intoTwo
  rcases split : area.inner.intoTwo cut with _ | ⟨_, _⟩
  · rcases LinearMap.intoTwo_refused split with low | high
    · cases not_lt.mpr low above
    · cases not_lt.mpr high below
  · have parts := (LinearMap.intoTwo_parts split).2
    refine ⟨_, _, rfl, .of_part parts.1 rfl rfl, .of_part parts.2 rfl rfl, rfl, ?_⟩
    cases area.mapFile <;> rfl

/-- Both cuts inside an anonymous area. -/
theorem intoThree_spec {firstCut secondCut : Nat} (anonymous : area.mapFile = none)
    (above : area.start < firstCut) (between : firstCut < secondCut) (below : secondCut < area.stop) :
    ∃ first second third,
      area.intoThree firstCut secondCut = (first, some (second, third)) /\
      Piece area area.start firstCut first /\ Piece area firstCut secondCut second /\
      Piece area secondCut area.stop third /\
      first.mapFile = none /\ second.mapFile = none /\ third.mapFile = none := by
  rw [intoThree, if_neg (by simp [anonymous])]
  rcases split : area.inner.intoThree firstCut secondCut with ⟨first, _ | ⟨second, third⟩⟩
  · rcases LinearMap.intoThree_refused split with ⟨low | high, _⟩ | ⟨_, low | high, _⟩
    · cases not_lt.mpr low above
    · cases not_lt.mpr high (between.trans below)
    · cases not_lt.mpr low between
    · cases not_lt.mpr high below
  · rcases (LinearMap.intoThree_parts split).2 with ⟨firstPart, secondPart, thirdPart⟩
    exact ⟨_, _, _, rfl, .of_part firstPart rfl rfl,
      .of_part secondPart rfl rfl, .of_part thirdPart rfl rfl, anonymous, rfl, rfl⟩

/-- A second cut that does not lie inside the upper part loses that part. -/
theorem intoThree_of_outside {firstCut secondCut : Nat} (anonymous : area.mapFile = none)
    (above : area.start < firstCut) (below : firstCut < area.stop)
    (outside : secondCut <= firstCut \/ area.stop <= secondCut) :
    ∃ first, area.intoThree firstCut secondCut = (first, none) /\
      Piece area area.start firstCut first /\ first.mapFile = none := by
  rw [intoThree, if_neg (by simp [anonymous])]
  rcases split : area.inner.intoThree firstCut secondCut with ⟨first, _ | ⟨_, _⟩⟩
  · rcases LinearMap.intoThree_refused split with ⟨low | high, _⟩ | ⟨_, _, part⟩
    · cases not_lt.mpr low above
    · cases not_lt.mpr high below
    · exact ⟨_, rfl, .of_part part rfl rfl, anonymous⟩
  · rcases (LinearMap.intoThree_parts split).1.2 with ⟨between, behind⟩
    rcases outside with low | high
    · cases not_lt.mpr low between
    · cases not_lt.mpr high behind

/-- What a split in three can end in, for any cuts. -/
theorem intoThree_cases (firstCut secondCut : Nat) :
    (∃ first, area.intoThree firstCut secondCut = (first, none) /\ first.mapPerm = area.mapPerm /\
      (¬ area.Holds firstCut -> first = area)) \/
    ∃ first second third,
      area.intoThree firstCut secondCut = (first, some (second, third)) /\ first.mapPerm = area.mapPerm /\
      third.mapPerm = area.mapPerm /\ second.start = firstCut /\ second.stop = secondCut /\
      area.Holds firstCut := by
  cases backing : area.mapFile with
  | some file => exact .inl ⟨area, by simp [intoThree, backing], rfl, fun _ => rfl⟩
  | none =>
    rw [intoThree, if_neg (by simp [backing])]
    rcases split : area.inner.intoThree firstCut secondCut with ⟨first, _ | ⟨second, third⟩⟩
    · refine .inl ⟨_, rfl, rfl, fun outside => ?_⟩
      rcases LinearMap.intoThree_refused split with ⟨_, same⟩ | ⟨inside, _⟩
      · rw [same]
      · cases outside ⟨inside.1.le, inside.2⟩
    · rcases LinearMap.intoThree_parts split with ⟨inside, _, part, _⟩
      exact .inr ⟨_, _, _, rfl, rfl, rfl, part.start_eq, part.stop_eq, inside.1.le, inside.2.1.trans inside.2.2⟩

end MapArea

end GCore.Mm
