import GCore.Mm.MemorySet

namespace GCore.Mm

open List

/-!
# What `munmap` does with the areas

`munmap` walks over the areas and trims or deletes those that its range reaches.  An
area that the range lies strictly inside of is remembered by its position and split
after the walk.  The cases of one area are listed in `Cuts`.

The position goes stale when the walk deletes an area in front of it.  As long as the
area to be split is the only one that passes the overlap test, nothing is deleted, and
`munmap_of_lone` says what happens; `munmap_of_unbroken` covers the ranges that split
nothing.
-/

namespace MapArea

/-- The entries of the pages from `first` up to `last` are gone, and no others. -/
def Clears (first last : Nat) (table after : PageTable) : Prop :=
  ∀ vpn, after.findPte vpn = if slot vpn ∈ (pages first last).map slot then none else table.findPte vpn

theorem Clears.refl (table : PageTable) {first last : Nat} (empty : last <= first) :
    Clears first last table table := by
  intro vpn
  rw [pages_of_le empty, if_neg (fun member => nomatch member)]

theorem unmap_clears (area : MapArea) (table : PageTable) :
    Clears area.start area.stop table (area.unmap table).2 :=
  (unmapPages_unmaps (pages area.start area.stop) area table (fun _ member => (mem_pages.mp member).1)).entry_eq

end MapArea

namespace MemorySet

open MapArea

/-- The test of `check_overlapping`.  A range that ends where the area starts passes. -/
def Overlaps (startVpn endVpn : Nat) (area : MapArea) : Prop :=
  area.start <= endVpn /\ startVpn < area.stop

/-- The range passes the test and reaches neither end of the area. -/
def Breaks (startVpn endVpn : Nat) (area : MapArea) : Prop :=
  Overlaps startVpn endVpn area /\ area.start < startVpn /\ endVpn < area.stop

instance (startVpn endVpn : Nat) (area : MapArea) : Decidable (Overlaps startVpn endVpn area) :=
  inferInstanceAs (Decidable (_ /\ _))

instance (startVpn endVpn : Nat) (area : MapArea) : Decidable (Breaks startVpn endVpn area) :=
  inferInstanceAs (Decidable (_ /\ _))

variable {startVpn endVpn : Nat}
  {area after : MapArea} {table afterTable : PageTable} {areas front back : List MapArea}
  {start len vpn : Nat}

theorem checkOverlapping_of_not (apart : ¬ Overlaps startVpn endVpn area) :
    area.checkOverlapping startVpn endVpn = none := by
  refine if_pos ?_
  by_cases reached : area.start <= endVpn
  · exact .inr (not_lt.mp (fun inside => apart ⟨reached, inside⟩))
  · exact .inl (not_le.mp reached)

theorem checkOverlapping_of_overlaps (overlaps : Overlaps startVpn endVpn area) :
    area.checkOverlapping startVpn endVpn = some (max area.start startVpn, min endVpn area.stop) := by
  unfold checkOverlapping
  have reached : ¬ (endVpn < area.start \/ startVpn >= area.stop) := by
    rintro (below | above)
    · exact not_lt.mpr overlaps.1 below
    · exact not_lt.mpr above overlaps.2
  rw [if_neg reached]
  congr 2
  · by_cases later : startVpn > area.start
    · rw [if_pos later, Nat.max_eq_right later.le]
    · rw [if_neg later, Nat.max_eq_left (not_lt.mp later)]
  · by_cases earlier : endVpn < area.stop
    · rw [if_pos earlier, Nat.min_eq_left earlier.le]
    · rw [if_neg earlier, Nat.min_eq_right (not_lt.mp earlier)]

/-- What becomes of one area, with its fate, and of the table. -/
inductive Cuts (startVpn endVpn : Nat) (area : MapArea) (table : PageTable) :
    Fate -> MapArea -> PageTable -> Prop
  | untouched (apart : ¬ Overlaps startVpn endVpn area) : Cuts startVpn endVpn area table .untouched area table
  | deleted {after : MapArea} {afterTable : PageTable} (overlaps : Overlaps startVpn endVpn area)
      (low : startVpn <= area.start) (high : area.stop <= endVpn)
      (clears : Clears area.start area.stop table afterTable) :
      Cuts startVpn endVpn area table .deleted after afterTable
  | lower {after : MapArea} {afterTable : PageTable} (overlaps : Overlaps startVpn endVpn area)
      (low : startVpn <= area.start) (high : endVpn < area.stop) (part : Piece area endVpn area.stop after)
      (file_eq : after.mapFile = area.mapFile) (clears : Clears area.start endVpn table afterTable)
      (still : endVpn = area.start -> after = area /\ afterTable = table) :
      Cuts startVpn endVpn area table .trimmed after afterTable
  | upper {after : MapArea} {afterTable : PageTable} (overlaps : Overlaps startVpn endVpn area)
      (low : area.start < startVpn) (high : area.stop <= endVpn) (part : Piece area area.start startVpn after)
      (file_eq : after.mapFile = area.mapFile) (clears : Clears startVpn area.stop table afterTable) :
      Cuts startVpn endVpn area table .trimmed after afterTable
  | broken (breaks : Breaks startVpn endVpn area) : Cuts startVpn endVpn area table .broken area table

theorem rshrinkTo_start (area : MapArea) (table : PageTable) : area.rshrinkTo table area.start = (area, table) := by
  have kept : area.inner.setStart area.start = area.inner := by
    unfold LinearMap.setStart
    rw [show area.start - area.inner.start = 0 from Nat.sub_self _, drop_zero]
    rfl
  simp only [rshrinkTo, pages_of_le (Nat.le_refl area.start), unmapPages, foldl_nil, kept]

theorem munmapArea_cuts (startVpn endVpn : Nat) (area : MapArea) (table : PageTable) :
    Cuts startVpn endVpn area table (munmapArea startVpn endVpn area table).1
      (munmapArea startVpn endVpn area table).2.1 (munmapArea startVpn endVpn area table).2.2 := by
  unfold munmapArea
  by_cases overlaps : Overlaps startVpn endVpn area
  · rw [checkOverlapping_of_overlaps overlaps]
    dsimp only
    by_cases low : startVpn <= area.start
    · rw [Nat.max_eq_left low]
      by_cases high : area.stop <= endVpn
      · rw [Nat.min_eq_right high, if_pos ⟨rfl, rfl⟩]
        exact .deleted overlaps low high (area.unmap_clears table)
      · have inside := not_le.mp high
        rw [Nat.min_eq_left inside.le, if_neg (fun both => ne_of_lt inside both.2), if_pos rfl]
        rcases area.rshrinkTo_spec table overlaps.1 inside.le with ⟨part, file_eq, clears⟩
        refine .lower overlaps low inside part file_eq clears ?_
        rintro rfl
        rw [rshrinkTo_start]
        exact ⟨rfl, rfl⟩
    · have behind := not_le.mp low
      rw [Nat.max_eq_right behind.le, if_neg (fun both => ne_of_gt behind both.1), if_neg (ne_of_gt behind)]
      by_cases high : area.stop <= endVpn
      · rw [Nat.min_eq_right high, if_pos rfl]
        rcases area.shrinkTo_spec table behind.le overlaps.2.le with
          ⟨part, file_eq, clears⟩
        exact .upper overlaps behind high part file_eq clears
      · have inside := not_le.mp high
        rw [Nat.min_eq_left inside.le, if_neg (ne_of_lt inside)]
        exact .broken ⟨overlaps, behind, inside⟩
  · rw [checkOverlapping_of_not overlaps]
    exact .untouched overlaps

variable {set : MemorySet} {fate : Fate}

variable (cuts : Cuts startVpn endVpn area table fate after afterTable)

include cuts in
theorem Cuts.untouched_iff : fate = .untouched ↔ ¬ Overlaps startVpn endVpn area := by
  cases cuts with
  | untouched apart => exact iff_of_true rfl apart
  | deleted overlaps _ _ _ | lower overlaps _ _ _ _ _ _ | upper overlaps _ _ _ _ _ =>
    exact iff_of_false nofun (not_not.mpr overlaps)
  | broken breaks => exact iff_of_false nofun (not_not.mpr breaks.1)

theorem Cuts.breaks_of_broken
    (cuts : Cuts startVpn endVpn area table .broken after afterTable) : Breaks startVpn endVpn area := by
  cases cuts with
  | broken breaks => exact breaks

/-! ## The walk -/

/-- The areas that a walk leaves. -/
def survivors (fates : List (Fate × MapArea)) : List MapArea :=
  (fates.filter (fun entry => decide (entry.1 ≠ .deleted))).map Prod.snd

theorem munmapAreas_all_untouched_iff (areas : List MapArea) (table : PageTable) :
    (munmapAreas startVpn endVpn areas table).1.all (fun entry => decide (entry.1 = .untouched)) = true ↔
      ∀ area ∈ areas, ¬ Overlaps startVpn endVpn area := by
  induction areas generalizing table with
  | nil => exact iff_of_true rfl nofun
  | cons area rest ih =>
    have cuts := munmapArea_cuts startVpn endVpn area table
    simp only [munmapAreas, all_cons, Bool.and_eq_true, decide_eq_true_eq, forall_mem_cons]
    rw [cuts.untouched_iff, ih]

/-- Every entry of the walk comes from an area. -/
theorem munmapAreas_cuts {entry : Fate × MapArea} (member : entry ∈ (munmapAreas startVpn endVpn areas table).1) :
    ∃ area, area ∈ areas /\ ∃ before after,
      Cuts startVpn endVpn area before entry.1 entry.2 after := by
  induction areas generalizing table with
  | nil => cases member
  | cons area rest ih =>
    rcases mem_cons.mp member with rfl | later
    · exact ⟨area, mem_cons_self, table, _, munmapArea_cuts startVpn endVpn area table⟩
    · rcases ih later with ⟨other, present, cuts⟩
      exact ⟨other, mem_cons_of_mem _ present, cuts⟩

/-- The area to split was marked on the way. -/
theorem breakApartIdx_eq_some {fates : List (Fate × MapArea)} {index : Nat}
    (found : breakApartIdx fates = some index) :
    ∃ area, fates[index]? = some (.broken, area) := by
  rcases mem_map.mp (mem_of_getLast? found) with ⟨⟨⟨fate, area⟩, _⟩, member, rfl⟩
  rcases mem_filter.mp member with ⟨numbered, marked⟩
  have broken : fate = .broken := of_decide_eq_true marked
  exact ⟨area, broken ▸ mem_zipIdx_iff_getElem?.mp numbered⟩

variable (whole : ∀ area ∈ areas, ¬ Breaks startVpn endVpn area)

include whole in
theorem breakApartIdx_of_unbroken (table : PageTable) :
    breakApartIdx (munmapAreas startVpn endVpn areas table).1 = none := by
  cases found : breakApartIdx (munmapAreas startVpn endVpn areas table).1 with
  | none => rfl
  | some index =>
    rcases breakApartIdx_eq_some found with ⟨_, here⟩
    rcases munmapAreas_cuts (mem_of_getElem? here) with ⟨area, member, _, _, cuts⟩
    cases whole area member cuts.breaks_of_broken

variable (apart : ∀ area ∈ areas, ¬ Overlaps startVpn endVpn area)

include apart in
/-- Areas that fail the test are passed by. -/
theorem munmapAreas_of_apart (table : PageTable) :
    munmapAreas startVpn endVpn areas table = (areas.map (fun area => (.untouched, area)), table) := by
  induction areas with
  | nil => rfl
  | cons area rest ih =>
    have passed : munmapArea startVpn endVpn area table = (.untouched, area, table) := by
      rw [munmapArea, checkOverlapping_of_not (apart area mem_cons_self)]
    simp only [munmapAreas, passed, ih (fun other member => apart other (mem_cons_of_mem _ member)), map_cons]

theorem munmapAreas_append (front back : List MapArea) (table : PageTable) :
    munmapAreas startVpn endVpn (front ++ back) table =
      let first := munmapAreas startVpn endVpn front table
      let second := munmapAreas startVpn endVpn back first.2
      (first.1 ++ second.1, second.2) := by
  induction front generalizing table with
  | nil => rfl
  | cons area rest ih => simp only [cons_append, munmapAreas, ih]

variable (breaks : Breaks startVpn endVpn area)

include breaks

theorem munmapArea_of_breaks (table : PageTable) :
    munmapArea startVpn endVpn area table = (.broken, area, table) := by
  have low := Nat.max_eq_right breaks.2.1.le
  have high := Nat.min_eq_left breaks.2.2.le
  rw [munmapArea, checkOverlapping_of_overlaps breaks.1, low, high]
  dsimp only
  rw [if_neg (fun both => ne_of_gt breaks.2.1 both.1), if_neg (ne_of_gt breaks.2.1), if_neg (ne_of_lt breaks.2.2)]

/-- The only area that passes the test is marked, and everything stays as it is. -/
theorem munmapAreas_of_lone (lone : ∀ other, other ∈ front \/ other ∈ back -> ¬ Overlaps startVpn endVpn other)
    (table : PageTable) :
    munmapAreas startVpn endVpn (front ++ area :: back) table =
      (front.map (fun area => (.untouched, area)) ++ (.broken, area) ::
        back.map (fun area => (.untouched, area)), table) := by
  rw [munmapAreas_append, munmapAreas_of_apart (fun other member => lone other (.inl member))]
  simp only [munmapAreas, munmapArea_of_breaks breaks,
    munmapAreas_of_apart (fun other member => lone other (.inr member))]

omit breaks

/-- The walk remembers the last area to split. -/
theorem breakApartIdx_of_last (first : List (Fate × MapArea)) {second : List (Fate × MapArea)} (area : MapArea)
    (whole : ∀ entry ∈ second, entry.1 ≠ .broken) :
    breakApartIdx (first ++ (.broken, area) :: second) = some first.length := by
  have none_later : (second.zipIdx (first.length + 1)).filter (fun entry => decide (entry.1.1 = .broken)) = [] := by
    rw [filter_eq_nil_iff]
    intro entry member
    simpa using whole entry.1 (fst_mem_of_mem_zipIdx member)
  unfold breakApartIdx
  rw [zipIdx_append, filter_append, zipIdx_cons, filter_cons_of_pos rfl, Nat.zero_add, none_later]
  simp

theorem survivors_of_lone (front back : List MapArea) (area : MapArea) :
    survivors (front.map (fun area => (Fate.untouched, area)) ++ (.broken, area) ::
      back.map (fun area => (Fate.untouched, area))) = front ++ area :: back := by
  have all : ∀ areas : List MapArea, survivors (areas.map (fun area => (Fate.untouched, area))) = areas := by
    intro areas
    induction areas with
    | nil => rfl
    | cons head tail ih => exact congrArg (head :: ·) ih
  have split : ∀ first second : List (Fate × MapArea),
      survivors (first ++ second) = survivors first ++ survivors second := by
    intro first second
    rw [survivors, filter_append, map_append]
    rfl
  rw [split, all]
  exact congrArg (front ++ area :: ·) (all back)

/-! ## The request -/

theorem findPte_unmapAll (vpns : List Nat) (table : PageTable) (vpn : Nat) :
    (unmapAll table vpns).findPte vpn = if slot vpn ∈ vpns.map slot then none else table.findPte vpn :=
  PageTable.entries_foldl_unmap vpns table (slot vpn)

/-- The page behind the range, as `munmap` computes it. -/
def endPage (start len : Nat) : Nat := ceil ((start + len) % usizeRange)

/-- The answer of `munmap` to an aligned request. -/
def answer (startVpn endVpn : Nat) (areas : List MapArea) : Except Int Unit :=
  if ∀ area ∈ areas, ¬ Overlaps startVpn endVpn area then .error EINVAL else .ok ()

theorem answer_eq_ok_iff (areas : List MapArea) :
    answer startVpn endVpn areas = .ok () ↔
      ∃ area, area ∈ areas /\ Overlaps startVpn endVpn area := by
  unfold answer
  by_cases apart : ∀ area ∈ areas, ¬ Overlaps startVpn endVpn area
  · rw [if_pos apart]
    apply iff_of_false nofun
    rintro ⟨area, member, overlaps⟩
    exact apart area member overlaps
  · rw [if_neg apart]
    apply iff_of_true rfl
    simpa using apart

/-- Split the area `found` at a position, after the walk. -/
def breakApart (startVpn endVpn : Nat) (table : PageTable) (areas : List MapArea) (index : Nat)
    (found : MapArea) : MemorySet :=
  match found.intoThree startVpn endVpn with
  | (first, some (second, third)) => ⟨(second.unmap table).2, replaceAt areas index [first, third]⟩
  | (first, none) => ⟨unmapAll table (pages startVpn endVpn), replaceAt areas index [first]⟩

/-- An aligned request, in terms of the walk and the split. -/
theorem munmap_eq (aligned : pageOffset start = 0) :
    set.munmap start len =
      let walk := munmapAreas (floor start) (endPage start len) set.areas set.pageTable
      match breakApartIdx walk.1 with
      | none => some (answer (floor start) (endPage start len) set.areas, ⟨walk.2, survivors walk.1⟩)
      | some index =>
        match (survivors walk.1)[index]? with
        | none => none
        | some found => some (answer (floor start) (endPage start len) set.areas,
            breakApart (floor start) (endPage start len) walk.2 (survivors walk.1) index found) := by
  have answered : (munmapAreas (floor start) (endPage start len) set.areas set.pageTable).1.all
      (fun entry => decide (entry.1 = .untouched)) = true ↔
        ∀ area ∈ set.areas, ¬ Overlaps (floor start) (endPage start len) area :=
    munmapAreas_all_untouched_iff set.areas set.pageTable
  unfold answer
  simp only [<- answered]
  unfold endPage breakApart
  rw [munmap, if_neg (not_not.mpr aligned)]
  dsimp only
  rw [<- survivors]
  rcases breakApartIdx (munmapAreas (floor start) (ceil ((start + len) % usizeRange)) set.areas set.pageTable).1 with
    _ | index
  · rfl
  · dsimp only
    rcases (survivors (munmapAreas (floor start) (ceil ((start + len) % usizeRange)) set.areas
      set.pageTable).1)[index]? with _ | found
    · rfl
    · dsimp only
      rcases found.intoThree (floor start) (ceil ((start + len) % usizeRange)) with ⟨_, _ | ⟨_, _⟩⟩
      · rfl
      · rfl

/-- A range that splits no area. -/
theorem munmap_of_unbroken (aligned : pageOffset start = 0)
    (whole : ∀ area ∈ set.areas, ¬ Breaks (floor start) (endPage start len) area) :
    set.munmap start len = some (answer (floor start) (endPage start len) set.areas,
      ⟨(munmapAreas (floor start) (endPage start len) set.areas set.pageTable).2,
        survivors (munmapAreas (floor start) (endPage start len) set.areas set.pageTable).1⟩) := by
  rw [munmap_eq aligned]
  simp only [breakApartIdx_of_unbroken whole set.pageTable]

/-- A range that lies strictly inside the only area that passes the test. -/
structure Lone (start len : Nat) (front : List MapArea) (area : MapArea) (back : List MapArea) : Prop where
  aligned : pageOffset start = 0
  breaks : Breaks (floor start) (endPage start len) area
  apart : ∀ other, other ∈ front \/ other ∈ back -> ¬ Overlaps (floor start) (endPage start len) other

variable (lone : Lone start len front area back)

include lone

theorem Lone.munmap_eq :
    munmap ⟨table, front ++ area :: back⟩ start len = some (.ok (),
      match area.intoThree (floor start) (endPage start len) with
      | (first, some (second, third)) => ⟨(second.unmap table).2, front ++ [first, third] ++ back⟩
      | (first, none) =>
        ⟨unmapAll table (pages (floor start) (endPage start len)), front ++ [first] ++ back⟩) := by
  have found : answer (floor start) (endPage start len) (front ++ area :: back) = .ok () :=
    (answer_eq_ok_iff _).mpr ⟨area, mem_append_cons_self, lone.breaks.1⟩
  have here : (front ++ area :: back)[front.length]? = some area := by simp
  have around : ∀ pieces, replaceAt (front ++ area :: back) front.length pieces = front ++ pieces ++ back := by
    intro pieces
    simp [replaceAt]
  have marked := @breakApartIdx_of_last (front.map (fun area => (Fate.untouched, area)))
    (back.map (fun area => (Fate.untouched, area))) area (by simp)
  rw [MemorySet.munmap_eq lone.aligned]
  simp only [munmapAreas_of_lone lone.breaks lone.apart table, marked, length_map, survivors_of_lone, here, found,
    breakApart, around]

/-- An area of a file that is split stays whole. -/
theorem Lone.munmap_file (file : area.mapFile.isSome = true) :
    munmap ⟨table, front ++ area :: back⟩ start len = some (.ok (),
      ⟨unmapAll table (pages (floor start) (endPage start len)), front ++ [area] ++ back⟩) := by
  rw [lone.munmap_eq, intoThree, if_pos file]

/-- A split at a range without pages loses the upper part. -/
theorem Lone.munmap_backward (anonymous : area.mapFile = none) (backward : endPage start len <= floor start) :
    ∃ first,
      munmap ⟨table, front ++ area :: back⟩ start len = some (.ok (), ⟨table, front ++ [first] ++ back⟩) /\
      Piece area area.start (floor start) first /\ first.mapFile = none := by
  rcases area.intoThree_of_outside anonymous lone.breaks.2.1 lone.breaks.1.2 (.inl backward) with
    ⟨first, cut, part, cleared⟩
  refine ⟨first, ?_, part, cleared⟩
  rw [lone.munmap_eq, cut]
  rw [pages_of_le backward]
  rfl

omit lone

/-! ## Exact removal -/

/-- The page lies in an area. -/
def Held (areas : List MapArea) (vpn : Nat) : Prop := ∃ area, area ∈ areas /\ area.Holds vpn

/-- Some area has a page of the range whose entry is the one of `vpn`. -/
def Reaches (startVpn endVpn : Nat) (areas : List MapArea) (vpn : Nat) : Prop :=
  ∃ area, area ∈ areas /\ ∃ page,
    area.Holds page /\ startVpn <= page /\ page < endVpn /\ slot page = slot vpn

/-- The pages of the range are gone from the areas and their entries from the table, and
the other pages stay. -/
structure Removes (startVpn endVpn : Nat) (set after : MemorySet) : Prop where
  held_iff : ∀ vpn, Held after.areas vpn ↔ Held set.areas vpn /\ ¬ (startVpn <= vpn /\ vpn < endVpn)
  gone : ∀ vpn, Reaches startVpn endVpn set.areas vpn -> after.pageTable.findPte vpn = none
  kept : ∀ vpn, ¬ Reaches startVpn endVpn set.areas vpn ->
    after.pageTable.findPte vpn = set.pageTable.findPte vpn

theorem held_append {first second : List MapArea} :
    Held (first ++ second) vpn ↔ Held first vpn \/ Held second vpn := by
  unfold Held
  simp only [mem_append, or_and_right, exists_or]

theorem held_singleton : Held [area] vpn ↔ area.Holds vpn := by
  unfold Held
  simp only [mem_singleton, exists_eq_left]

theorem reaches_append {first second : List MapArea} :
    Reaches startVpn endVpn (first ++ second) vpn ↔
      Reaches startVpn endVpn first vpn \/ Reaches startVpn endVpn second vpn := by
  unfold Reaches
  simp only [mem_append, or_and_right, exists_or]

/-- Work on the areas one after another adds up. -/
theorem Removes.append {middle last : PageTable} {newFront newBack : List MapArea}
    (first : Removes startVpn endVpn ⟨table, front⟩ ⟨middle, newFront⟩)
    (second : Removes startVpn endVpn ⟨middle, back⟩ ⟨last, newBack⟩) :
    Removes startVpn endVpn ⟨table, front ++ back⟩ ⟨last, newFront ++ newBack⟩ := by
  constructor
  · intro vpn
    rw [held_append, held_append, first.held_iff, second.held_iff, or_and_right]
  · intro vpn reached
    by_cases later : Reaches startVpn endVpn back vpn
    · exact second.gone vpn later
    · have earlier := (reaches_append.mp reached).resolve_right later
      exact (second.kept vpn later).trans (first.gone vpn earlier)
  · intro vpn missed
    have apart := not_or.mp (mt reaches_append.mpr missed)
    exact (second.kept vpn apart.2).trans (first.kept vpn apart.1)

theorem not_held_nil (vpn : Nat) : ¬ Held [] vpn := by
  rintro ⟨_, member, _⟩
  cases member

theorem Removes.nil (table : PageTable) : Removes startVpn endVpn ⟨table, []⟩ ⟨table, []⟩ := by
  constructor
  · intro vpn
    exact iff_of_false (not_held_nil vpn) (fun both => not_held_nil vpn both.1)
  · rintro vpn ⟨_, member, _⟩
    cases member
  · intro vpn _
    rfl

/-- One area gives way to pieces that have its pages outside the range. -/
theorem removes_of_pieces {pieces : List MapArea} {after : PageTable} {first last : Nat}
    (inside : ∀ vpn, area.Holds vpn /\ startVpn <= vpn /\ vpn < endVpn ↔ first <= vpn /\ vpn < last)
    (held_iff : ∀ vpn, Held pieces vpn ↔ area.Holds vpn /\ ¬ (first <= vpn /\ vpn < last))
    (clears : Clears first last table after) : Removes startVpn endVpn ⟨table, [area]⟩ ⟨after, pieces⟩ := by
  have reaches_iff : ∀ vpn, Reaches startVpn endVpn [area] vpn ↔ slot vpn ∈ (pages first last).map slot := by
    intro vpn
    rw [mem_map]
    constructor
    · rintro ⟨_, member, page, held, low, high, same⟩
      rw [mem_singleton.mp member] at held
      exact ⟨page, mem_pages.mpr ((inside page).mp ⟨held, low, high⟩), same⟩
    · rintro ⟨page, member, same⟩
      have within := (inside page).mpr (mem_pages.mp member)
      exact ⟨area, mem_singleton_self area, page, within.1, within.2.1, within.2.2, same⟩
  constructor
  · intro vpn
    rw [held_iff, held_singleton, <- inside]
    apply and_congr_right
    intro held
    exact not_congr ⟨And.right, fun between => ⟨held, between⟩⟩
  · intro vpn reached
    rw [clears vpn, if_pos ((reaches_iff vpn).mp reached)]
  · intro vpn missed
    rw [clears vpn, if_neg (mt (reaches_iff vpn).mpr missed)]

include apart in
/-- Areas that fail the test have no page in the range. -/
theorem removes_of_apart (table : PageTable) : Removes startVpn endVpn ⟨table, areas⟩ ⟨table, areas⟩ := by
  have outside : ∀ area ∈ areas, ∀ vpn, area.Holds vpn -> ¬ (startVpn <= vpn /\ vpn < endVpn) := by
    rintro area member vpn held ⟨low, high⟩
    apply apart area member
    exact ⟨held.1.trans high.le, low.trans_lt held.2⟩
  constructor
  · intro vpn
    constructor
    · rintro ⟨area, member, held⟩
      exact ⟨⟨area, member, held⟩, outside area member vpn held⟩
    · exact And.left
  · rintro vpn ⟨area, member, page, held, low, high, _⟩
    cases outside area member page held ⟨low, high⟩
  · intro vpn _
    rfl

include cuts in
theorem Cuts.removes (whole : fate ≠ .broken) :
    Removes startVpn endVpn ⟨table, [area]⟩ ⟨afterTable, survivors [(fate, after)]⟩ := by
  cases cuts with
  | untouched apart =>
    apply removes_of_apart
    intro other member
    rw [mem_singleton.mp member]
    exact apart
  | deleted overlaps low high clears =>
    refine removes_of_pieces (fun vpn => ?_) (fun vpn => ?_) clears
    · exact ⟨And.left, fun held => ⟨held, low.trans held.1, held.2.trans_le high⟩⟩
    · exact iff_of_false (not_held_nil vpn) (fun both => both.2 both.1)
  | lower overlaps low high part file_eq clears still =>
    refine removes_of_pieces (fun vpn => ?_) (fun vpn => held_singleton.trans ((part.holds_iff vpn).trans ?_)) clears
    · unfold Holds
      omega
    · have reached := overlaps.1
      unfold Holds
      omega
  | upper overlaps low high part file_eq clears =>
    refine removes_of_pieces (fun vpn => ?_) (fun vpn => held_singleton.trans ((part.holds_iff vpn).trans ?_)) clears
    · unfold Holds
      omega
    · have reached := overlaps.2
      unfold Holds
      omega
  | broken breaks => cases whole rfl

theorem survivors_cons (entry : Fate × MapArea) (rest : List (Fate × MapArea)) :
    survivors (entry :: rest) = survivors [entry] ++ survivors rest := by
  unfold survivors
  by_cases deleted : entry.1 = .deleted
  · rw [filter_cons_of_neg (by simpa using deleted), filter_cons_of_neg (by simpa using deleted)]
    rfl
  · rw [filter_cons_of_pos (by simpa using deleted), filter_cons_of_pos (by simpa using deleted)]
    rfl

include whole in
/-- The walk removes the range exactly, if nothing is left to be split. -/
theorem munmapAreas_removes (table : PageTable) : Removes startVpn endVpn ⟨table, areas⟩
      ⟨(munmapAreas startVpn endVpn areas table).2, survivors (munmapAreas startVpn endVpn areas table).1⟩ := by
  induction areas generalizing table with
  | nil => exact Removes.nil table
  | cons area rest ih =>
    have cuts := munmapArea_cuts startVpn endVpn area table
    have one := cuts.removes (by
      intro broken
      rw [broken] at cuts
      exact whole area mem_cons_self cuts.breaks_of_broken)
    have others := ih (fun other member => whole other (mem_cons_of_mem _ member))
      (munmapArea startVpn endVpn area table).2.2
    have together := one.append others
    rw [<- survivors_cons] at together
    exact together

/-- A range inside an anonymous area that nothing else comes near. -/
theorem Lone.munmap_anonymous (lone : Lone start len front area back) (anonymous : area.mapFile = none)
    (between : floor start < endPage start len) :
    ∃ first third afterTable,
      munmap ⟨table, front ++ area :: back⟩ start len = some (.ok (), ⟨afterTable, front ++ [first, third] ++ back⟩) /\
      Piece area area.start (floor start) first /\ Piece area (endPage start len) area.stop third /\
      first.mapFile = none /\ third.mapFile = none /\
      Clears (floor start) (endPage start len) table afterTable := by
  rcases area.intoThree_spec anonymous lone.breaks.2.1 between lone.breaks.2.2 with
    ⟨first, second, third, cut, firstPart, secondPart, thirdPart, firstFile, _, thirdFile⟩
  refine ⟨first, third, (second.unmap table).2, ?_, firstPart, thirdPart, firstFile, thirdFile, ?_⟩
  · rw [lone.munmap_eq, cut]
  · have clears := second.unmap_clears table
    rw [secondPart.start_eq, secondPart.stop_eq] at clears
    exact clears

include breaks in
theorem removes_of_lone_anonymous {first third : MapArea}
    (lone : ∀ other, other ∈ front \/ other ∈ back -> ¬ Overlaps startVpn endVpn other)
    (firstPart : Piece area area.start startVpn first) (thirdPart : Piece area endVpn area.stop third)
    (clears : Clears startVpn endVpn table afterTable) :
    Removes startVpn endVpn ⟨table, front ++ area :: back⟩ ⟨afterTable, front ++ [first, third] ++ back⟩ := by
  have here : Removes startVpn endVpn ⟨table, [area]⟩ ⟨afterTable, [first, third]⟩ := by
    have inside := breaks.2
    have overlaps := breaks.1
    unfold Overlaps at overlaps
    refine removes_of_pieces (fun vpn => ?_) (fun vpn => ?_) clears
    · unfold Holds
      omega
    · rw [show [first, third] = [first] ++ [third] from rfl, held_append, held_singleton, held_singleton,
        firstPart.holds_iff, thirdPart.holds_iff]
      unfold Holds
      omega
  have before := removes_of_apart (fun other member => lone other (.inl member)) table
  have behind := removes_of_apart (fun other member => lone other (.inr member)) afterTable
  have together := (before.append here).append behind
  rw [append_assoc, singleton_append] at together
  exact together

end MemorySet

end GCore.Mm
