import GCore.Mm.UserSpace

namespace GCore.Mm

open PageTable List Option

/-!
# Files in the kernel's space

To read a program the kernel maps the page cache of its file into its own space, and
unmaps it when the program is loaded.  Pages of the program that are not written to are
taken over from there into the user's space, with their frames.

The kernel's areas are map areas as well.  The identical mappings of its own sections
have entries but record no frames.
-/

namespace MapArea

def fromExistingFrame (startVa : Nat) (mapPerm : MapPermission) (frames : List Frame) : MapArea where
  inner := { start := floor startVa, frames := frames, active := [], compressed := 0, swapped := 0 }
  mapPerm := mapPerm
  writableStripped := false
  mapFile := none

/-- `get_in_memory`; a page outside the area is a panic, and the callers fail on a page that
is not in memory. -/
def getInMemory (area : MapArea) (vpn : Nat) : Option Nat := (area.frame? vpn).bind Frame.ppn?

/-- The loop of `map_from_kernel_area`, whose failures are all unwrapped. -/
def mapKernelPages (kernelArea : MapArea) :
    List Nat -> Nat -> MapArea -> PageTable -> Option (MapArea × PageTable)
  | [], _, area, table => some (area, table)
  | vpn :: vpns, srcVpn, area, table =>
    match kernelArea.getInMemory srcVpn with
    | none => none
    | some ppn =>
      if table.isMapped vpn then none
      else
        match area.mapFrame table vpn ppn with
        | .error _ => none
        | .ok (area, table) => mapKernelPages kernelArea vpns (srcVpn + 1) area table

/-- The last area that holds the first page has to hold the others as well. -/
def mapFromKernelArea (area : MapArea) (table : PageTable) (kernelAreas : List MapArea) (startVpn : Nat) :
    Option (MapArea × PageTable) :=
  (kernelAreas.reverse.find? (fun kernelArea => decide (kernelArea.Holds startVpn))).bind (fun kernelArea =>
    mapKernelPages kernelArea (pages area.start area.stop) startVpn area table)

end MapArea

namespace MemorySet

open MapArea

def readWrite : MapPermission := ⟨true, true, false, false⟩

/-- Map an area to the frames that it has.  If a page is mapped, then the source reports it,
with the pages before it mapped; all callers unwrap. -/
def pushNoAlloc (set : MemorySet) (area : MapArea) : Option MemorySet :=
  ((pages area.start area.stop).foldlM
    (fun table vpn => (area.getInMemory vpn).bind (fun ppn => table.map vpn ppn area.mapPerm))
    set.pageTable).map (fun table => ⟨table, set.areas ++ [area]⟩)

def insertProgramArea (set : MemorySet) (startVa : Nat) (perm : MapPermission) (frames : List Frame) :
    Option MemorySet :=
  set.pushNoAlloc (fromExistingFrame startVa perm frames)

/-- The pages that were not mapped are only reported in the log. -/
def removeAreaWithStartVpn (set : MemorySet) (startVpn : Nat) : Option MemorySet :=
  (set.areas.findIdx? (fun area => decide (area.start = startVpn))).bind (fun index =>
    set.areas[index]?.map (fun area => ⟨(area.unmap set.pageTable).2, set.areas.eraseIdx index⟩))

/-- The page behind the last area. -/
def highestPage (set : MemorySet) : Option Nat := set.areas.getLast?.map MapArea.stop

/-! ## Mapping to given frames -/

variable {table : PageTable} {area after : MapArea} {result : MapArea × PageTable} {vpns : List Nat} {vpn : Nat}

theorem mapPages_isOk {frames : List Nat} (enough : vpns.length <= frames.length)
    (nodup : (vpns.map slot).Nodup) (unmapped : ∀ vpn ∈ vpns, table.findPte vpn = none)
    (unallocated : ∀ vpn ∈ vpns, area.frame? vpn = some .unallocated) :
    ∃ result, mapPages vpns frames area table = .ok result := by
  induction vpns generalizing frames area table with
  | nil => exact ⟨_, rfl⟩
  | cons first rest ih =>
    cases frames with
    | nil => simp at enough
    | cons ppn frames =>
      have free := unmapped first mem_cons_self
      have record := unallocated first mem_cons_self
      rcases mapFrame_isOk ppn record free with ⟨⟨_, _⟩, one⟩
      rcases mapFrame_eq_ok (holds_of_frame? record).1 one with ⟨_, _, records, rfl⟩
      have others := (unmapped_cons_iff ⟨ppn, area.mapPerm⟩ free).mpr ⟨nodup, unmapped⟩
      have rest_ok := ih (Nat.le_of_succ_le_succ enough) others.1 others.2
        (fun vpn member => by
          have different : vpn ≠ first := fun same => (nodup_cons.mp nodup).1 (same ▸ mem_map_of_mem member)
          rw [records.frame_other different]
          exact unallocated vpn (mem_cons_of_mem _ member))
      rcases rest_ok with ⟨result, rest_ok⟩
      refine ⟨result, ?_⟩
      rw [mapPages, if_neg (by simp [isMapped, free])]
      simp only [one]
      exact rest_ok

/-- Frames are used up one for each page. -/
theorem mapPages_length {frames : List Nat}
    (done : mapPages vpns frames area table = .ok result) : vpns.length <= frames.length := by
  induction vpns generalizing frames area table with
  | nil => exact Nat.zero_le _
  | cons first rest ih =>
    rcases mapPages_cons_eq_ok done with ⟨_, _, _, rfl, _, later⟩
    exact Nat.succ_le_succ (ih later)

/-- Taking pages over from the kernel is mapping them to its frames. -/
theorem mapKernelPages_eq_some_iff {kernelArea : MapArea} {srcVpn : Nat} :
    mapKernelPages kernelArea vpns srcVpn area table = some result ↔
      (∀ vpn ∈ range' srcVpn vpns.length, (kernelArea.getInMemory vpn).isSome = true) /\
        mapPages vpns ((range' srcVpn vpns.length).map fun vpn => (kernelArea.getInMemory vpn).getD 0) area table =
          .ok result := by
  induction vpns generalizing srcVpn area table with
  | nil => simp [mapKernelPages, mapPages]
  | cons first rest ih =>
    rw [length_cons, range'_succ, map_cons, forall_mem_cons, mapKernelPages, mapPages]
    cases kernelArea.getInMemory srcVpn with
    | none => simp
    | some ppn =>
      simp only [isSome_some, true_and, getD_some]
      split
      · simp
      · cases area.mapFrame table first ppn with
        | error panic => simp
        | ok pair => exact ih

/-! ## Mapping a file and unmapping it -/

/-- The pages from `first` on can be mapped. -/
def Unused (set : MemorySet) (first count : Nat) : Prop :=
  ((pages first (first + count)).map slot).Nodup /\
    ∀ vpn ∈ pages first (first + count), set.pageTable.findPte vpn = none

/-- Areas of the kernel's space have pages, all of them are mapped, and no page is in two
areas. -/
structure Orderly (set : MemorySet) : Prop where
  filled : ∀ area ∈ set.areas, area.start < area.stop
  mapped : ∀ area ∈ set.areas, ∀ vpn, area.Holds vpn -> set.pageTable.findPte vpn ≠ none
  apart : set.areas.Pairwise (fun area other => ∀ vpn, area.Holds vpn -> ¬ other.Holds vpn)

/-- The loop of `push_no_alloc` on frames that are all in memory. -/
theorem foldlM_map_eq_some_iff {perm : MapPermission} {look : Nat -> Option Nat} {frame : Nat -> Nat}
    {afterTable : PageTable} (present : ∀ vpn ∈ vpns, look vpn = some (frame vpn)) :
    vpns.foldlM (fun (table : PageTable) vpn => (look vpn).bind (fun ppn => table.map vpn ppn perm)) table =
        some afterTable ↔
      ((vpns.map slot).Nodup /\ ∀ vpn ∈ vpns, table.findPte vpn = none) /\
        afterTable = vpns.foldl (fun (table : PageTable) vpn => table.set vpn (some ⟨frame vpn, perm⟩)) table := by
  induction vpns generalizing table with
  | nil => simp [eq_comm]
  | cons first rest ih =>
    rw [foldlM_cons, present first mem_cons_self, bind_some, bind_eq_bind, bind_eq_some_iff]
    constructor
    · rintro ⟨_, mapped, done⟩
      rcases map_eq_some_iff.mp mapped with ⟨free, rfl⟩
      rcases (ih fun vpn member => present vpn (mem_cons_of_mem _ member)).mp done with ⟨unmapped, rfl⟩
      exact ⟨(unmapped_cons_iff _ free).mp unmapped, rfl⟩
    · rintro ⟨unmapped, rfl⟩
      have free := unmapped.2 first mem_cons_self
      exact ⟨_, map_eq_some_iff.mpr ⟨free, rfl⟩,
        (ih fun vpn member => present vpn (mem_cons_of_mem _ member)).mpr
          ⟨(unmapped_cons_iff _ free).mpr unmapped, rfl⟩⟩

theorem entries_foldl_set (vpns : List Nat) (entry : Nat -> Pte) {table : PageTable} {index : Nat}
    (outside : index ∉ vpns.map slot) :
    (vpns.foldl (fun (table : PageTable) vpn => table.set vpn (some (entry vpn))) table).entries index =
      table.entries index := by
  induction vpns generalizing table with
  | nil => rfl
  | cons first rest ih =>
    rw [map_cons, mem_cons, not_or] at outside
    rw [foldl_cons, ih outside.2]
    exact if_neg outside.1

theorem findPte_foldl_set (vpns : List Nat) (entry : Nat -> Pte) {table : PageTable}
    (inside : vpn ∈ vpns \/ table.findPte vpn ≠ none) :
    (vpns.foldl (fun (table : PageTable) vpn => table.set vpn (some (entry vpn))) table).findPte vpn ≠ none := by
  induction vpns generalizing table with
  | nil => exact inside.resolve_left (not_mem_nil)
  | cons first rest ih =>
    apply ih
    by_cases same : slot vpn = slot first
    · right
      rw [findPte_set_of_slot same]
      nofun
    · rw [findPte_set_of_ne same]
      rcases inside with member | mapped
      · rcases mem_cons.mp member with rfl | later
        · exact absurd rfl same
        · exact .inl later
      · exact .inr mapped

/-- The area of a file that is mapped from a page on, with the frames of its page cache. -/
def programArea (first : Nat) (caches : List Nat) : MapArea :=
  fromExistingFrame (first * pageSize) readWrite (caches.map .inMemory)

/-- The space with a file mapped. -/
def withProgram (set : MemorySet) (first : Nat) (caches : List Nat) : MemorySet where
  pageTable := (pages first (first + caches.length)).foldl
    (fun table vpn => table.set vpn (some ⟨caches.getD (vpn - first) 0, readWrite⟩)) set.pageTable
  areas := set.areas ++ [programArea first caches]

section Program

variable {set next : MemorySet} {first : Nat} {caches : List Nat}

@[simp] theorem start_programArea : (programArea first caches).start = first :=
  Nat.mul_div_cancel first (by decide)

@[simp] theorem stop_programArea : (programArea first caches).stop = first + caches.length := by
  change floor (first * pageSize) + (caches.map Frame.inMemory).length = _
  rw [length_map, floor, Nat.mul_div_cancel first (by decide)]

theorem getInMemory_programArea (low : first <= vpn) :
    (programArea first caches).getInMemory vpn = caches[vpn - first]? := by
  have start_eq : (programArea first caches).inner.start = first := start_programArea
  have frames_eq : (programArea first caches).inner.frames = caches.map Frame.inMemory := rfl
  rw [getInMemory, frame?, LinearMap.frame?, start_eq, if_pos low, frames_eq, getElem?_map]
  cases caches[vpn - first]? <;> rfl

theorem insertProgramArea_eq_some_iff :
    set.insertProgramArea (first * pageSize) readWrite (caches.map .inMemory) = some next ↔
      set.Unused first caches.length /\ next = set.withProgram first caches := by
  have pages_eq : pages (programArea first caches).start (programArea first caches).stop =
      pages first (first + caches.length) := by rw [start_programArea, stop_programArea]
  have inserted : set.insertProgramArea (first * pageSize) readWrite (caches.map .inMemory) =
      set.pushNoAlloc (programArea first caches) := rfl
  have present : ∀ vpn ∈ pages first (first + caches.length),
      (programArea first caches).getInMemory vpn = some (caches.getD (vpn - first) 0) := by
    intro vpn member
    rcases mem_pages.mp member with ⟨low, _⟩
    have inside : vpn - first < caches.length := by omega
    rw [getInMemory_programArea low, getD_eq_getElem?_getD, getElem?_eq_getElem inside]
    rfl
  rw [inserted, pushNoAlloc, pages_eq, Option.map_eq_some_iff]
  constructor
  · rintro ⟨_, folded, rfl⟩
    rcases (foldlM_map_eq_some_iff present).mp folded with ⟨unused, rfl⟩
    exact ⟨unused, rfl⟩
  · rintro ⟨unused, rfl⟩
    exact ⟨_, (foldlM_map_eq_some_iff present).mpr ⟨unused, rfl⟩, rfl⟩

variable (orderly : set.Orderly)

include orderly

/-- An area that is there has pages that are mapped, so it does not hold an unused page. -/
theorem Orderly.not_holds {count : Nat} (unused : set.Unused first count) (low : first <= vpn)
    (high : vpn < first + count) {area : MapArea} (member : area ∈ set.areas) : ¬ area.Holds vpn :=
  fun held => orderly.mapped area member vpn held (unused.2 vpn (mem_pages.mpr ⟨low, high⟩))

theorem Orderly.withProgram (unused : set.Unused first caches.length) (nonempty : caches ≠ []) :
    (set.withProgram first caches).Orderly := by
  have positive : 0 < caches.length := length_pos_iff.mpr nonempty
  refine ⟨?_, ?_, ?_⟩
  · intro area member
    rcases mem_append.mp member with old | new
    · exact orderly.filled area old
    · rw [mem_singleton.mp new, start_programArea, stop_programArea]
      omega
  · intro area member vpn held
    apply findPte_foldl_set
    rcases mem_append.mp member with old | new
    · exact .inr (orderly.mapped area old vpn held)
    · rw [mem_singleton.mp new, MapArea.Holds, start_programArea, stop_programArea] at held
      exact .inl (mem_pages.mpr held)
  · refine pairwise_append.mpr ⟨orderly.apart, pairwise_singleton _ _, ?_⟩
    intro area old other new vpn held again
    rw [mem_singleton.mp new, MapArea.Holds, start_programArea, stop_programArea] at again
    exact orderly.not_holds unused again.1 again.2 old held

/-- Removing the area of a file that was mapped last leaves the space as it was before. -/
theorem Orderly.remove_withProgram (unused : set.Unused first caches.length) (nonempty : caches ≠ []) :
    (set.withProgram first caches).removeAreaWithStartVpn first = some set := by
  have positive : 0 < caches.length := length_pos_iff.mpr nonempty
  have elsewhere : set.areas.findIdx? (fun area => decide (area.start = first)) = none := by
    rw [findIdx?_eq_none_iff]
    intro area member
    have filled := orderly.filled area member
    have free := orderly.not_holds unused (Nat.le_refl first) (by omega) member
    rw [decide_eq_false_iff_not]
    intro same
    exact free ⟨le_of_eq same, same ▸ filled⟩
  have found : (set.withProgram first caches).areas.findIdx? (fun area => decide (area.start = first)) =
      some set.areas.length := by
    change (set.areas ++ [programArea first caches]).findIdx? _ = _
    rw [findIdx?_append, elsewhere]
    simp
  have last : (set.withProgram first caches).areas[set.areas.length]? = some (programArea first caches) := by
    change (set.areas ++ [programArea first caches])[set.areas.length]? = _
    simp
  have erased : (set.withProgram first caches).areas.eraseIdx set.areas.length = set.areas := by
    change (set.areas ++ [programArea first caches]).eraseIdx set.areas.length = _
    rw [eraseIdx_append_of_length_le le_rfl, Nat.sub_self]
    simp
  have restored : ((programArea first caches).unmap (set.withProgram first caches).pageTable).2 = set.pageTable := by
    have entries_eq : ∀ index,
        ((programArea first caches).unmap (set.withProgram first caches).pageTable).2.entries index =
          set.pageTable.entries index := by
      intro index
      rw [MapArea.unmap, start_programArea, stop_programArea, unmapPages_table, entries_foldl_unmap]
      split
      · rename_i member
        rcases mem_map.mp member with ⟨vpn, inside, rfl⟩
        exact (unused.2 vpn inside).symm
      · rename_i outside
        exact entries_foldl_set _ _ outside
    have same := funext entries_eq
    generalize ((programArea first caches).unmap (set.withProgram first caches).pageTable).2 = result at same
    cases result
    cases set
    rename_i other areas
    cases other
    exact congrArg PageTable.mk same
  rw [removeAreaWithStartVpn, found, bind_some, last, map_some, restored, erased]

/-- The last area that holds a page is the only one. -/
theorem Orderly.find_reverse {area : MapArea} (member : area ∈ set.areas) (held : area.Holds vpn) :
    set.areas.reverse.find? (fun other => decide (other.Holds vpn)) = some area := by
  cases found : set.areas.reverse.find? (fun other => decide (other.Holds vpn)) with
  | none =>
    have absent := find?_eq_none.mp found area (mem_reverse.mpr member)
    exact absurd (decide_eq_true held) absent
  | some other =>
    have holds : other.Holds vpn := by simpa using find?_some found
    have present := mem_reverse.mp (mem_of_find?_eq_some found)
    have symmetric : Std.Symm (fun area other : MapArea => ∀ vpn, area.Holds vpn -> ¬ other.Holds vpn) :=
      ⟨fun _ _ apart vpn held again => apart vpn again held⟩
    by_contra different
    exact orderly.apart.forall present member (fun same => different (congrArg some same)) vpn holds held

end Program

end MemorySet

end GCore.Mm
