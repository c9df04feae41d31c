import GCore.Mm.UserSpace

namespace GCore.Mm

open List

/-!
# Where the pages of a space are

The areas of a space say where each page is.  Here their records are collected in one
list, by the entry of the page in the table.  Faults and reclaim passes leave the shape
of the areas alone and change the record and the entry of one page at a time, which is
what `PageUpdate` says of the list.
-/

namespace MapArea

/-- What an area is, apart from the state of its pages. -/
structure Shape where
  start : Nat
  stop : Nat
  perm : MapPermission
  stripped : Bool
  file : Option MapFile
  deriving DecidableEq, Repr

def shape (area : MapArea) : Shape :=
  ⟨area.start, area.stop, area.mapPerm, area.writableStripped, area.mapFile⟩

def Shape.slots (shape : Shape) : List Nat := (pages shape.start shape.stop).map slot

variable {frame : Frame} {area : MapArea} {key : Nat}

theorem Records.shape_eq {after : MapArea} {vpn : Nat}
    (records : Records area vpn frame after) : after.shape = area.shape := by
  unfold shape
  rw [records.start_eq, records.stop_eq, records.perm_eq, records.stripped_eq, records.file_eq]

theorem Alike.shape_eq {after : MapArea} (alike : Alike area after) : after.shape = area.shape := by
  unfold shape
  rw [alike.start_eq, alike.stop_eq, alike.perm_eq, alike.stripped_eq, alike.file_eq]

/-- The records of an area, by the entries of its pages. -/
def records (area : MapArea) : List (Nat × Frame) := area.slots.zip area.inner.frames

theorem mem_records : (key, frame) ∈ area.records ↔ ∃ vpn, slot vpn = key /\ area.frame? vpn = some frame := by
  have length_eq : area.stop - area.start = area.inner.frames.length := Nat.add_sub_cancel_left _ _
  have slots_eq : ∀ index < area.inner.frames.length,
      area.slots[index]? = some (slot (area.start + index)) := by
    intro index below
    unfold slots pages
    rw [getElem?_map, getElem?_range' (length_eq ▸ below), Nat.one_mul]
    rfl
  unfold records
  rw [mem_iff_getElem?]
  constructor
  · rintro ⟨index, here⟩
    rw [getElem?_zip_eq_some] at here
    have below := (List.getElem?_eq_some_iff.mp here.2).1
    rw [slots_eq index below, Option.some.injEq] at here
    refine ⟨area.start + index, here.1, LinearMap.frame?_eq_some_iff.mpr ⟨Nat.le_add_right _ _, ?_⟩⟩
    rw [show area.start + index - area.inner.start = index from Nat.add_sub_cancel_left _ _]
    exact here.2
  · rintro ⟨vpn, rfl, record⟩
    rcases LinearMap.frame?_eq_some_iff.mp record with ⟨ahead, here⟩
    refine ⟨vpn - area.inner.start, getElem?_zip_eq_some.mpr ⟨?_, here⟩⟩
    rw [slots_eq _ (List.getElem?_eq_some_iff.mp here).1]
    rw [show area.start + (vpn - area.inner.start) = vpn from Nat.add_sub_cancel' ahead]

theorem mem_slots_of_mem_records (member : (key, frame) ∈ area.records) : key ∈ area.slots := by
  rcases mem_records.mp member with ⟨_, rfl, record⟩
  exact slot_mem_slots (holds_of_frame? record)

end MapArea

namespace MemorySet

open MapArea

def shapes (set : MemorySet) : List Shape := set.areas.map shape

/-- The entries of the pages of all areas. -/
def slots (set : MemorySet) : List Nat := set.areas.flatMap MapArea.slots

def records (set : MemorySet) : List (Nat × Frame) := set.areas.flatMap MapArea.records

variable {set next : MemorySet} {table : PageTable} {front back : List MapArea} {area after : MapArea}
  {vpn key : Nat} {frame old : Frame} {entry : Option Pte}

theorem slots_eq_of_shapes (shapes_eq : next.shapes = set.shapes) : next.slots = set.slots := by
  have derived : ∀ areas : List MapArea, areas.flatMap MapArea.slots = (areas.map shape).flatMap Shape.slots := by
    intro areas
    rw [flatMap_map]
    rfl
  unfold MemorySet.slots
  rw [derived, derived]
  exact congrArg (flatMap Shape.slots) shapes_eq

theorem mem_records_iff : (key, frame) ∈ set.records ↔ ∃ area, area ∈ set.areas /\ (key, frame) ∈ area.records :=
  mem_flatMap

theorem mem_slots_of_mem_records (member : (key, frame) ∈ set.records) : key ∈ set.slots := by
  rcases mem_records_iff.mp member with ⟨area, present, recorded⟩
  exact mem_flatMap.mpr ⟨area, present, MapArea.mem_slots_of_mem_records recorded⟩

/-- A page has one record. -/
theorem Consistent.record_unique (consistent : Consistent set) {first second : Frame}
    (firstRecord : (key, first) ∈ set.records) (secondRecord : (key, second) ∈ set.records) : first = second := by
  rcases mem_records_iff.mp firstRecord with ⟨_, member, recorded⟩
  rcases mem_records_iff.mp secondRecord with ⟨_, otherMember, otherRecorded⟩
  have same := Library.Ownership.Kept.eq_of_mem_owns consistent member otherMember (MapArea.mem_slots_of_mem_records recorded)
    (MapArea.mem_slots_of_mem_records otherRecorded)
  subst same
  rcases mem_records.mp recorded with ⟨_, rfl, here⟩
  rcases mem_records.mp otherRecorded with ⟨_, shared, there⟩
  have pages_eq := eq_of_slot_eq (consistent.nodup_slots member) (holds_of_frame? there) (holds_of_frame? here) shared
  rw [pages_eq, here] at there
  exact Option.some.inj there

/-- Every page of an area has a record. -/
theorem exists_record (member : key ∈ set.slots) : ∃ frame, (key, frame) ∈ set.records := by
  rcases mem_flatMap.mp member with ⟨area, present, owned⟩
  rcases mem_slots.mp owned with ⟨vpn, held, rfl⟩
  rcases held.exists_frame with ⟨frame, record⟩
  exact ⟨frame, mem_records_iff.mpr ⟨area, present, mem_records.mpr ⟨vpn, rfl, record⟩⟩⟩

/-- The table translates a page of an area as it is recorded. -/
theorem Consistent.translate_eq (consistent : Consistent set) (member : (slot vpn, frame) ∈ set.records) :
    set.pageTable.translate vpn = frame.ppn? := by
  rcases mem_records_iff.mp member with ⟨_, present, recorded⟩
  rcases mem_records.mp recorded with ⟨page, same, record⟩
  rw [<- (consistent.areaSound present).agrees page frame record]
  unfold PageTable.translate
  rw [set.pageTable.findPte_of_slot same]

/-- An entry of a page of an area leads to the recorded frame. -/
theorem Consistent.record_of_entry (consistent : Consistent set) (owned : slot vpn ∈ set.slots) {pte : Pte}
    (mapped : set.pageTable.findPte vpn = some pte) : (slot vpn, .inMemory pte.ppn) ∈ set.records := by
  rcases exists_record owned with ⟨frame, member⟩
  have translated := consistent.translate_eq member
  unfold PageTable.translate at translated
  rw [mapped] at translated
  cases frame with
  | inMemory ppn =>
    cases translated
    exact member
  | compressed id | swappedOut id | unallocated => cases translated

/-! ## Changes of one page -/

/-- The record and the entry of one page are replaced. -/
structure PageUpdate (set : MemorySet) (vpn : Nat) (old frame : Frame) (entry : Option Pte) (next : MemorySet) :
    Prop where
  old_mem : (slot vpn, old) ∈ set.records
  mem_iff : ∀ key other, (key, other) ∈ next.records ↔
    if key = slot vpn then other = frame else (key, other) ∈ set.records
  entry_eq : entry.map Pte.ppn = frame.ppn?
  table_eq : next.pageTable = set.pageTable.set vpn entry
  shapes_eq : next.shapes = set.shapes
  consistent : Consistent next

/-- Nothing is changed but queues and counters. -/
structure Rearranged (set next : MemorySet) : Prop where
  mem_iff : ∀ key other, (key, other) ∈ next.records ↔ (key, other) ∈ set.records
  table_eq : next.pageTable = set.pageTable
  shapes_eq : next.shapes = set.shapes
  consistent : Consistent next

theorem Rearranged.records_subset (rearranged : Rearranged set next) : next.records ⊆ set.records :=
  fun record member => (rearranged.mem_iff record.1 record.2).mp member

variable {result : Except MemoryError Nat} {afterTable : PageTable} {env : FaultEnv} {fill : Fill}

theorem shapes_replace (shape_eq : after.shape = area.shape) :
    shapes ⟨afterTable, front ++ after :: back⟩ = shapes ⟨table, front ++ area :: back⟩ := by
  unfold shapes
  rw [map_append, map_append, map_cons, map_cons, shape_eq]

/-- The records of an area, and those of the areas around it. -/
theorem mem_records_middle {key : Nat} {other : Frame} :
    (key, other) ∈ records ⟨table, front ++ area :: back⟩ ↔ (key, other) ∈ area.records \/
      ∃ holder, (holder ∈ front \/ holder ∈ back) /\ (key, other) ∈ holder.records := by
  simp only [mem_records_iff, mem_append, mem_cons, or_and_right, exists_or, exists_eq_left, or_left_comm]

variable (consistent : Consistent ⟨table, front ++ area :: back⟩)

include consistent

theorem PageUpdate.of_records (record : area.frame? vpn = some old) (replaced : Records area vpn frame after)
    (entry_eq : entry.map Pte.ppn = frame.ppn?)
    (filed : area.mapFile.isSome = true -> frame = .unallocated \/ ∃ ppn, frame = .inMemory ppn) :
    PageUpdate ⟨table, front ++ area :: back⟩ vpn old frame entry ⟨table.set vpn entry, front ++ after :: back⟩ := by
  have held := holds_of_frame? record
  have owned := slot_mem_slots held
  have foreign : ∀ other, other ∈ front \/ other ∈ back -> ∀ kept,
      (slot vpn, kept) ∉ other.records := by
    intro other elsewhere kept member
    exact Library.Ownership.Kept.not_mem_of_mem consistent elsewhere
      (MapArea.mem_slots_of_mem_records member) owned
  refine ⟨?_, ?_, entry_eq, rfl, shapes_replace (Records.shape_eq replaced),
    consistent.record held replaced entry_eq filed⟩
  · exact mem_records_iff.mpr ⟨area, mem_append_cons_self, mem_records.mpr ⟨vpn, rfl, record⟩⟩
  · intro key other
    have middle : (key, other) ∈ after.records ↔ if key = slot vpn then other = frame else (key, other) ∈ area.records := by
      rw [mem_records, mem_records]
      by_cases same : key = slot vpn
      · subst same
        rw [if_pos rfl]
        constructor
        · rintro ⟨page, shared, recorded⟩
          have pageHeld := (replaced.holds_iff page).mp (holds_of_frame? recorded)
          have pages_eq := eq_of_slot_eq (consistent.nodup_slots mem_append_cons_self) pageHeld held shared
          rw [pages_eq, replaced.frame_same] at recorded
          exact (Option.some.inj recorded).symm
        · rintro rfl
          exact ⟨vpn, rfl, replaced.frame_same⟩
      · rw [if_neg same]
        apply exists_congr
        intro page
        apply and_congr_right
        rintro rfl
        rw [replaced.frame_other (fun pages_eq => same (pages_eq ▸ rfl))]
    by_cases same : key = slot vpn
    · subst same
      rw [if_pos rfl] at middle ⊢
      rw [mem_records_middle, middle]
      apply or_iff_left
      rintro ⟨holder, elsewhere, recorded⟩
      exact foreign holder elsewhere other recorded
    · rw [if_neg same] at middle ⊢
      rw [mem_records_middle, mem_records_middle, middle]

theorem Rearranged.of_alike (alike : Alike area after) :
    Rearranged ⟨table, front ++ area :: back⟩ ⟨table, front ++ after :: back⟩ := by
  refine ⟨?_, rfl, shapes_replace alike.shape_eq, consistent.alike alike⟩
  intro key other
  have middle : (key, other) ∈ after.records ↔ (key, other) ∈ area.records := by
    simp only [mem_records, alike.frame_eq]
  rw [mem_records_middle, mem_records_middle, middle]

omit consistent

theorem Rearranged.refl (consistent : Consistent set) : Rearranged set set :=
  ⟨fun _ _ => Iff.rfl, rfl, rfl, consistent⟩

/-- A step of a reclaim pass changes at most one page, from memory to a store. -/
theorem Consistent.cleanStep_cases {stores : List Store} (consistent : Consistent set)
    (step : CleanStep set stores next) :
    (stores = [] /\ Rearranged set next) \/
      ∃ vpn old moved store,
        stores = [store] /\ Evicted old moved store /\ PageUpdate set vpn old moved none next := by
  cases step with
  | idle alike => exact .inl ⟨rfl, Rearranged.of_alike consistent alike⟩
  | evict anonymous record evicted replaced =>
    refine .inr ⟨_, _, _, _, rfl, evicted, PageUpdate.of_records consistent record replaced ?_ ?_⟩
    · cases evicted <;> rfl
    · intro backed
      rw [anonymous] at backed
      cases backed

include consistent in
theorem Consistent.resolved_cases (resolved : Resolved area table vpn env result after afterTable fill) :
    ((∃ error, result = .error error) /\ fill = .none /\
      Rearranged ⟨table, front ++ area :: back⟩ ⟨afterTable, front ++ after :: back⟩) \/
      ∃ old ppn, result = .ok ppn /\
        area.Placed table vpn env old ppn fill /\
        PageUpdate ⟨table, front ++ area :: back⟩ vpn old (.inMemory ppn) (some ⟨ppn, area.mapPerm⟩)
          ⟨afterTable, front ++ after :: back⟩ := by
  cases resolved with
  | refused record replaced =>
    exact .inl ⟨⟨_, rfl⟩, rfl, Rearranged.of_alike consistent (replaced.alike record)⟩
  | placed record placed replaced =>
    exact .inr ⟨_, _, rfl, placed, PageUpdate.of_records consistent record replaced rfl (fun _ => .inr ⟨_, rfl⟩)⟩

/-- A fault changes at most the faulting page, which belongs to an area of the user. -/
theorem Consistent.doPageFault_cases {addr : Nat}
    (consistent : Consistent set) (done : set.doPageFault addr env = .ok (result, next, fill)) :
    ((∃ error, result = .error error) /\ fill = .none /\ Rearranged set next) \/
      ∃ area, area ∈ set.areas /\ area.mapPerm.u = true /\ area.Holds (floor addr) /\
        ∃ old ppn, result = .ok (ppn * pageSize + pageOffset addr) /\
          area.Placed set.pageTable (floor addr) env old ppn fill /\
          PageUpdate set (floor addr) old (.inMemory ppn) (some ⟨ppn, area.mapPerm⟩) next := by
  unfold MemorySet.doPageFault at done
  cases chosen : faultArea set.areas (floor addr) with
  | none =>
    simp only [chosen] at done
    cases done
    exact .inl ⟨⟨_, rfl⟩, rfl, Rearranged.refl consistent⟩
  | some index =>
    rcases faultArea_holds chosen with ⟨area, found, user, held⟩
    have member := mem_of_getElem? found
    cases handled : faultIn area set.pageTable (floor addr) env with
    | error panic => simp [chosen, found, handled] at done
    | ok outcome =>
      rcases outcome with ⟨_, _⟩
      simp only [chosen, found, handled] at done
      cases done
      have resolved := faultIn_resolved held (Sound.backed (consistent.areaSound member) held) handled
      have split := areas_split found
      have whole : set = ⟨set.pageTable, set.areas.take index ++ area :: set.areas.drop (index + 1)⟩ := by
        rw [<- split]
      have cases := Consistent.resolved_cases (whole ▸ consistent) resolved
      rw [<- whole] at cases
      rw [List.set_eq_take_append_cons_drop, if_pos (List.getElem?_eq_some_iff.mp found).1]
      rcases cases with ⟨⟨error, rfl⟩, unchanged⟩ | ⟨old, ppn, rfl, placed, update⟩
      · exact .inl ⟨⟨error, rfl⟩, unchanged⟩
      · exact .inr ⟨area, member, user, held, old, ppn, rfl, placed, update⟩

end MemorySet

end GCore.Mm
