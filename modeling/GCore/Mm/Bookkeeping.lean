import GCore.Library.Ownership
import GCore.Mm.Mmap
import GCore.Mm.Mprotect
import GCore.Mm.Reclaim

namespace GCore.Mm

open Library PageTable List

/-!
# Agreement of the page table with the areas

The page table says which pages are mapped, and so do the records of the areas.  They
agree when the entry of a page of an area exists exactly if the record is a frame in
memory, and leads to that frame.  Pages share an entry when the low bits of their
numbers agree, so an area owns the entries of its pages, and agreement is an invariant
of the areas as owners of entries.

The handler and the reclaim passes keep the agreement without any condition, and so
does `mprotect`.  `munmap` breaks it when it fails to split a file-backed area, and
`mmap` when it puts a mapping over pages that are in use.
-/

variable {vpn first last : Nat} {frame : Frame} {key : Nat} {entry : Option Pte}

namespace MapArea

/-- The entries that an area owns. -/
def slots (area : MapArea) : List Nat := (pages area.start area.stop).map slot

/-- The records of an area agree with the table, and pages of a file are never put aside. -/
structure Sound (table : PageTable) (area : MapArea) : Prop where
  agrees : ∀ vpn frame, area.frame? vpn = some frame -> table.translate vpn = frame.ppn?
  filed : area.mapFile.isSome = true -> ∀ vpn frame, area.frame? vpn = some frame ->
    frame = .unallocated \/ ∃ ppn, frame = .inMemory ppn

variable {area : MapArea} {table : PageTable}

theorem mem_slots : key ∈ area.slots ↔ ∃ vpn, area.Holds vpn /\ slot vpn = key := by
  unfold slots
  rw [mem_map]
  constructor
  · rintro ⟨vpn, member, same⟩
    exact ⟨vpn, mem_pages.mp member, same⟩
  · rintro ⟨vpn, held, same⟩
    exact ⟨vpn, mem_pages.mpr held, same⟩

theorem slot_mem_slots (held : area.Holds vpn) : slot vpn ∈ area.slots := mem_slots.mpr ⟨vpn, held, rfl⟩

/-- Where no entry is owned twice, a page is known by its entry. -/
theorem eq_of_slot_eq (nodup : area.slots.Nodup) {second : Nat}
    (firstHeld : area.Holds first) (secondHeld : area.Holds second) (same : slot first = slot second) :
    first = second :=
  inj_on_of_nodup_map nodup (mem_pages.mpr firstHeld) (mem_pages.mpr secondHeld) same

variable (sound : Sound table area)

include sound

/-- Agreement is about the owned entries only. -/
theorem Sound.congr {after : PageTable}
    (same : ∀ vpn, area.Holds vpn -> after.translate vpn = table.translate vpn) : Sound after area := by
  refine ⟨?_, sound.filed⟩
  intro vpn frame record
  rw [same vpn (holds_of_frame? record)]
  exact sound.agrees vpn frame record

theorem Sound.alike {after : MapArea} (alike : Alike area after) : Sound table after := by
  constructor
  · intro vpn frame record
    rw [alike.frame_eq] at record
    exact sound.agrees vpn frame record
  · intro backed vpn frame record
    rw [alike.file_eq] at backed
    rw [alike.frame_eq] at record
    exact sound.filed backed vpn frame record

/-- A stretch of an area agrees with a table that translates its pages as before. -/
theorem Sound.piece {after : PageTable} {piece : MapArea} (part : Piece area first last piece)
    (filed : piece.mapFile.isSome = area.mapFile.isSome)
    (same : ∀ vpn, area.Holds vpn -> first <= vpn -> vpn < last ->
      after.translate vpn = table.translate vpn) : Sound after piece := by
  constructor
  · intro vpn frame record
    rcases part.record record with ⟨old, low, high⟩
    rw [same vpn (holds_of_frame? old) low high]
    exact sound.agrees vpn frame old
  · intro backed vpn frame record
    rw [filed] at backed
    exact sound.filed backed vpn frame (part.record record).1

/-- Changing the record and the entry of one page together keeps the agreement. -/
theorem Sound.record {after : MapArea} (nodup : area.slots.Nodup) (held : area.Holds vpn)
    (records : Records area vpn frame after) (entry_eq : entry.map Pte.ppn = frame.ppn?)
    (filed : area.mapFile.isSome = true -> frame = .unallocated \/ ∃ ppn, frame = .inMemory ppn) :
    Sound (table.set vpn entry) after := by
  constructor
  · intro other record recorded
    by_cases same : other = vpn
    · subst same
      rw [records.frame_same] at recorded
      cases recorded
      rw [PageTable.translate, findPte_set_same]
      exact entry_eq
    · rw [records.frame_other same] at recorded
      have apart : slot other ≠ slot vpn :=
        fun shared => same (eq_of_slot_eq nodup (holds_of_frame? recorded) held shared)
      rw [PageTable.translate, findPte_set_of_ne apart]
      exact sound.agrees other record recorded
  · intro backed other record recorded
    rw [records.file_eq] at backed
    by_cases same : other = vpn
    · subst same
      rw [records.frame_same] at recorded
      cases recorded
      exact filed backed
    · rw [records.frame_other same] at recorded
      exact sound.filed backed other record recorded

end MapArea

open MapArea

/-- The areas as owners of the entries of their pages. -/
def bookkeeping : Ownership PageTable MapArea Nat (Option Pte) where
  read := PageTable.entries
  owns := slots
  sound := Sound
  frame := by
    intro table after area same sound
    apply sound.congr
    intro vpn held
    exact congrArg (Option.map Pte.ppn) (same (slot vpn) (slot_mem_slots held))

namespace MemorySet

/-- No two pages of the areas share an entry, and all areas agree with the table. -/
def Consistent (set : MemorySet) : Prop := bookkeeping.Kept set.pageTable set.areas

variable {set next : MemorySet} {afterTable : PageTable} {start len : Nat} {result : Except Int Unit}

theorem Consistent.nodup_slots (consistent : Consistent set) {area : MapArea}
    (member : area ∈ set.areas) : area.slots.Nodup :=
  (nodup_flatMap.mp consistent.nodup).1 area member

theorem Consistent.areaSound (consistent : Consistent set) {area : MapArea}
    (member : area ∈ set.areas) : Sound set.pageTable area :=
  Ownership.Kept.sound consistent area member

variable {table : PageTable} {front back : List MapArea} {area after : MapArea}

/-! ## Faults and reclaim -/

theorem Records.slots_eq (records : Records area vpn frame after) : after.slots = area.slots := by
  unfold slots
  rw [records.start_eq, records.stop_eq]

variable (consistent : Consistent ⟨table, front ++ area :: back⟩)

include consistent

theorem Consistent.record (held : area.Holds vpn)
    (records : Records area vpn frame after) (entry_eq : entry.map Pte.ppn = frame.ppn?)
    (filed : area.mapFile.isSome = true -> frame = .unallocated \/ ∃ ppn, frame = .inMemory ppn) :
    Consistent ⟨table.set vpn entry, front ++ after :: back⟩ := by
  have sound := (consistent.areaSound mem_append_cons_self).record (consistent.nodup_slots mem_append_cons_self) held records entry_eq filed
  refine Ownership.Kept.update consistent (Records.slots_eq records) sound fun _ key _ foreign => if_neg ?_
  rintro rfl
  exact foreign (slot_mem_slots held)

theorem Consistent.alike (alike : Alike area after) : Consistent ⟨table, front ++ after :: back⟩ := by
  have slots_eq : after.slots = area.slots := by
    unfold slots
    rw [alike.start_eq, alike.stop_eq]
  exact Ownership.Kept.update consistent slots_eq ((consistent.areaSound mem_append_cons_self).alike alike) (fun _ _ _ _ => rfl)

/-- Whatever way a fault is resolved in, the agreement stays. -/
theorem Consistent.resolved {env : FaultEnv} {result : Except MemoryError Nat} {fill : Fill}
    (resolved : Resolved area table vpn env result after afterTable fill) :
    Consistent ⟨afterTable, front ++ after :: back⟩ := by
  rcases resolved.refused_or_placed with ⟨alike, rfl, _⟩ | ⟨held, ppn, _, records, rfl⟩
  · exact consistent.alike alike
  · exact consistent.record held records rfl (fun _ => .inr ⟨ppn, rfl⟩)

omit consistent

variable {prot perm : MapPermission} {stores : List Store} {longer : MapArea}

theorem Consistent.cleanStep (consistent : Consistent set)
    (step : CleanStep set stores next) : Consistent next := by
  cases step with
  | idle alike => exact consistent.alike alike
  | evict anonymous record evicted records =>
    refine consistent.record (holds_of_frame? record) records ?_ (fun backed => ?_)
    · cases evicted with
      | zram ppn id | swap ppn id => rfl
    · rw [anonymous] at backed
      cases backed

theorem Consistent.cleaned (consistent : Consistent set)
    (cleaned : Cleaned set stores next) : Consistent next := by
  induction cleaned with
  | refl _ => exact consistent
  | step first _ ih => exact ih (consistent.cleanStep first)

/-! ## Unmapping -/

theorem Piece.slots_eq {piece : MapArea} (part : Piece area first last piece) :
    piece.slots = (pages first last).map slot := by
  unfold slots
  rw [part.start_eq, part.stop_eq]

variable (low : area.start <= first)

include low

/-- The entries of a stretch are some of those of the area. -/
theorem pages_slots_sublist (between : first <= last)
    (high : last <= area.stop) : ((pages first last).map slot).Sublist area.slots := by
  unfold slots
  rw [<- pages_append low (between.trans high), <- pages_append between high]
  exact ((sublist_append_left _ _).trans (sublist_append_right _ _)).map slot

variable (high : last <= area.stop)

include high in
theorem mem_slots_of_pages (member : key ∈ (pages first last).map slot) : key ∈ area.slots := by
  rcases mem_map.mp member with ⟨_, within, rfl⟩
  have bounds := mem_pages.mp within
  exact slot_mem_slots ⟨low.trans bounds.1, bounds.2.trans_le high⟩

omit low

/-- Clearing a stretch of an area leaves the other pages of the area alone. -/
theorem translate_of_clears (nodup : area.slots.Nodup)
    (low : area.start <= first) (high : last <= area.stop) (clears : Clears first last table afterTable)
    (held : area.Holds vpn) (outside : vpn < first \/ last <= vpn) :
    afterTable.translate vpn = table.translate vpn := by
  have missed : slot vpn ∉ (pages first last).map slot := by
    intro member
    rcases mem_map.mp member with ⟨_, within, same⟩
    have bounds := mem_pages.mp within
    have shared := eq_of_slot_eq nodup ⟨low.trans bounds.1, bounds.2.trans_le high⟩ held same
    omega
  rw [PageTable.translate, clears vpn, if_neg missed]
  rfl

variable (clears : Clears first last table afterTable)

include low high clears

/-- Clearing a stretch of an area leaves the entries of other areas alone. -/
theorem untouched_of_clears (other : MapArea) (key : Nat)
    (owned : key ∈ other.slots) (foreign : key ∉ area.slots) : afterTable.entries key = table.entries key := by
  rcases mem_slots.mp owned with ⟨vpn, _, rfl⟩
  exact (clears vpn).trans (if_neg (mt (mem_slots_of_pages low high) foreign))

variable (consistent : Consistent ⟨table, front ++ area :: back⟩)

include consistent

/-- An area gives way to stretches of it, and the entries between them are cleared. -/
theorem Consistent.pieces {pieces : List MapArea} (fewer : (pieces.flatMap slots).Sublist area.slots)
    (parts : ∀ piece ∈ pieces, piece.mapFile.isSome = area.mapFile.isSome /\
      ∃ lower upper, Piece area lower upper piece /\ (upper <= first \/ last <= lower)) :
    Consistent ⟨afterTable, front ++ pieces ++ back⟩ := by
  refine Ownership.Kept.replace consistent fewer (fun piece member => ?_) (untouched_of_clears low high clears)
  rcases parts piece member with ⟨filed, lower, upper, part, outside⟩
  apply (consistent.areaSound mem_append_cons_self).piece part filed
  intro vpn held above below
  apply translate_of_clears (consistent.nodup_slots mem_append_cons_self) low high clears held
  exact outside.imp (lt_of_lt_of_le below) (fun beyond => beyond.trans above)

/-- One stretch is left. -/
theorem Consistent.piece {piece : MapArea} {lower upper : Nat}
    (part : Piece area lower upper piece) (above : area.start <= lower)
    (between : lower <= upper) (below : upper <= area.stop) (outside : upper <= first \/ last <= lower)
    (filed : piece.mapFile.isSome = area.mapFile.isSome) : Consistent ⟨afterTable, front ++ [piece] ++ back⟩ := by
  refine consistent.pieces low high clears ?_ fun other member => ?_
  · rw [flatMap_singleton, Piece.slots_eq part]
    exact pages_slots_sublist above between below
  · rw [mem_singleton.mp member]
    exact ⟨filed, lower, upper, part, outside⟩

variable {startVpn endVpn : Nat}

omit low high clears

/-- One area on the way through the list. -/
theorem Consistent.cuts {fate : Fate} (cuts : Cuts startVpn endVpn area table fate after afterTable) :
    Consistent ⟨afterTable, front ++ survivors [(fate, after)] ++ back⟩ := by
  cases cuts with
  | untouched apart | broken breaks =>
    rw [append_assoc]
    exact consistent
  | deleted overlaps low high clears =>
    exact consistent.pieces le_rfl le_rfl clears (nil_sublist _) (fun _ member => nomatch member)
  | lower overlaps low high part file_eq clears still =>
    exact consistent.piece le_rfl high.le clears part overlaps.1 high.le
      le_rfl (.inr le_rfl) (by rw [file_eq])
  | upper overlaps low high part file_eq clears =>
    exact consistent.piece low.le le_rfl clears part le_rfl low.le
      overlaps.2.le (.inl le_rfl) (by rw [file_eq])

omit consistent

/-- The walk of `munmap`, by induction on the areas it has not reached. -/
theorem Consistent.munmapAreas {areas : List MapArea} (consistent : Consistent ⟨table, front ++ areas⟩) :
    Consistent ⟨(munmapAreas startVpn endVpn areas table).2,
      front ++ survivors (munmapAreas startVpn endVpn areas table).1⟩ := by
  induction areas generalizing table front with
  | nil => exact consistent
  | cons area rest ih =>
    have one := consistent.cuts (munmapArea_cuts startVpn endVpn area table)
    have others := ih one
    rw [append_assoc, <- survivors_cons] at others
    exact others

variable (breaks : Breaks startVpn endVpn area)

include consistent breaks in
/-- An area that the range lies strictly inside of is the only one near the range. -/
theorem Consistent.lone (populated : ∀ other, other ∈ front ++ area :: back -> other.start = other.stop ->
      ¬ (startVpn < other.start /\ other.start <= endVpn))
    (other : MapArea) (elsewhere : other ∈ front \/ other ∈ back) : ¬ Overlaps startVpn endVpn other := by
  rintro ⟨reached, inside⟩
  have member : other ∈ front ++ area :: back := by
    rcases elsewhere with earlier | later
    · exact mem_append_left _ earlier
    · exact mem_append_right _ (mem_cons_of_mem _ later)
  have ordered : other.start <= other.stop := Nat.le_add_right _ _
  by_cases empty : other.start = other.stop
  · exact populated other member empty ⟨empty ▸ inside, reached⟩
  · have held : other.Holds (max startVpn other.start) :=
      ⟨Nat.le_max_right _ _, Nat.max_lt.mpr ⟨inside, lt_of_le_of_ne ordered empty⟩⟩
    have shared : area.Holds (max startVpn other.start) := by
      refine ⟨breaks.2.1.le.trans (Nat.le_max_left _ _), Nat.max_lt.mpr ⟨breaks.1.2, ?_⟩⟩
      exact reached.trans_lt breaks.2.2
    exact Ownership.Kept.not_mem_of_mem consistent elsewhere (slot_mem_slots held) (slot_mem_slots shared)

/-- A range that `munmap` has to split an area for must lie in an anonymous area, or in
one of a file that has no page of the range in memory, and no empty area may lie in it. -/
def AdmitsMunmap (set : MemorySet) (start len : Nat) : Prop :=
  pageOffset start = 0 -> floor start < endPage start len -> ∀ area ∈ set.areas,
    Breaks (floor start) (endPage start len) area ->
    (area.mapFile.isSome = true -> ∀ vpn, floor start <= vpn -> vpn < endPage start len ->
      set.pageTable.findPte vpn = none) /\
    ∀ other ∈ set.areas, other.start = other.stop ->
      ¬ (floor start < other.start /\ other.start <= endPage start len)

include consistent

include breaks

/-- Splitting an anonymous area. -/
theorem Consistent.split {first third : MapArea}
    (between : startVpn <= endVpn) (firstPart : Piece area area.start startVpn first)
    (thirdPart : Piece area endVpn area.stop third) (firstFile : first.mapFile.isSome = area.mapFile.isSome)
    (thirdFile : third.mapFile.isSome = area.mapFile.isSome) (clears : Clears startVpn endVpn table afterTable) :
    Consistent ⟨afterTable, front ++ [first, third] ++ back⟩ := by
  have low := breaks.2.1.le
  have high := breaks.2.2.le
  refine consistent.pieces low high clears ?_ ?_
  · change (slots first ++ (slots third ++ [])).Sublist area.slots
    rw [append_nil, Piece.slots_eq firstPart, Piece.slots_eq thirdPart, <- map_append]
    apply List.Sublist.map
    rw [<- pages_append low (between.trans high), <- pages_append between high]
    exact (List.Sublist.refl _).append (sublist_append_right _ _)
  · intro piece member
    rcases mem_cons.mp member with rfl | rest
    · exact ⟨firstFile, _, _, firstPart, .inl le_rfl⟩
    · rw [mem_singleton.mp rest]
      exact ⟨thirdFile, _, _, thirdPart, .inr le_rfl⟩

/-- Clearing entries behind the back of an area that has none of the pages in memory. -/
theorem Consistent.clearAbsent (absent : ∀ vpn, startVpn <= vpn -> vpn < endVpn -> table.findPte vpn = none) :
    Consistent ⟨unmapAll table (pages startVpn endVpn), front ++ area :: back⟩ := by
  have clears : Clears startVpn endVpn table (unmapAll table (pages startVpn endVpn)) := findPte_unmapAll _ table
  have low := breaks.2.1.le
  have high := breaks.2.2.le
  refine Ownership.Kept.update consistent rfl ?_ (untouched_of_clears low high clears)
  apply (consistent.areaSound mem_append_cons_self).congr
  intro vpn held
  by_cases inside : startVpn <= vpn /\ vpn < endVpn
  · have cleared := clears vpn
    rw [if_pos (mem_map.mpr ⟨vpn, mem_pages.mpr inside, rfl⟩)] at cleared
    rw [PageTable.translate, PageTable.translate, cleared]
    exact congrArg (Option.map Pte.ppn) (absent vpn inside.1 inside.2).symm
  · exact translate_of_clears (consistent.nodup_slots mem_append_cons_self) low high clears held (by omega)

omit breaks

/-- The range lies strictly inside an area that nothing else comes near. -/
theorem Consistent.munmap_of_lone (lone : Lone start len front area back)
    (filed : area.mapFile.isSome = true -> ∀ vpn, floor start <= vpn -> vpn < endPage start len ->
      table.findPte vpn = none)
    (done : MemorySet.munmap ⟨table, front ++ area :: back⟩ start len = some (result, next)) :
    Consistent next := by
  have breaks := lone.breaks
  cases backing : area.mapFile with
  | some file =>
    have backed : area.mapFile.isSome = true := by rw [backing]; rfl
    rw [lone.munmap_file backed, append_assoc] at done
    cases done
    exact consistent.clearAbsent breaks (filed backed)
  | none =>
    by_cases between : floor start < endPage start len
    · rcases lone.munmap_anonymous backing between with
        ⟨first, _, _, split, firstPart, thirdPart, firstFile, thirdFile, clears⟩
      rw [split] at done
      cases done
      exact consistent.split breaks between.le firstPart thirdPart (by rw [firstFile, backing])
        (by rw [thirdFile, backing]) clears
    · rcases lone.munmap_backward backing (not_lt.mp between) with
        ⟨first, truncated, part, firstFile⟩
      rw [truncated] at done
      cases done
      -- nothing is cleared, and the upper part is lost
      exact consistent.piece (le_of_lt breaks.1.2 |> le_trans breaks.2.1.le) le_rfl
        (Clears.refl table le_rfl) part le_rfl breaks.2.1.le breaks.1.2.le
        (.inl breaks.1.2.le) (by rw [firstFile, backing])

omit consistent

/-- An admitted range splits no area, or it lies in one that nothing else comes near. -/
theorem Consistent.unbroken_or_lone (consistent : Consistent set) (admits : AdmitsMunmap set start len)
    (aligned : pageOffset start = 0) :
    (∀ area ∈ set.areas, ¬ Breaks (floor start) (endPage start len) area) \/
      ∃ front area back, set.areas = front ++ area :: back /\ Lone start len front area back := by
  by_cases broken : ∃ area, area ∈ set.areas /\ Breaks (floor start) (endPage start len) area
  · rcases broken with ⟨area, member, breaks⟩
    rcases set with ⟨_, areas⟩
    rcases append_of_mem member with ⟨front, back, rfl⟩
    refine .inr ⟨front, area, back, rfl, aligned, breaks, consistent.lone breaks ?_⟩
    rintro other present empty ⟨low, high⟩
    exact (admits aligned (low.trans_le high) area member breaks).2 other present empty ⟨low, high⟩
  · exact .inl fun area member breaks => broken ⟨area, member, breaks⟩

theorem Consistent.munmap (consistent : Consistent set) (admits : AdmitsMunmap set start len)
    (done : set.munmap start len = some (result, next)) : Consistent next := by
  by_cases aligned : pageOffset start = 0
  · rcases consistent.unbroken_or_lone admits aligned with whole | ⟨front, area, back, split, lone⟩
    · rw [munmap_of_unbroken aligned whole] at done
      cases done
      have all : Consistent ⟨set.pageTable, [] ++ set.areas⟩ := consistent
      exact all.munmapAreas
    · rcases set with ⟨_, areas⟩
      subst split
      refine consistent.munmap_of_lone lone (fun backed vpn low high => ?_) done
      exact (admits aligned (low.trans_lt high) area mem_append_cons_self lone.breaks).1 backed vpn low high
  · rw [MemorySet.munmap, if_pos aligned] at done
    cases done
    exact consistent

/-! ## Changing permissions -/

/-- A page lies in one area. -/
theorem Consistent.eq_of_holds {second : MapArea} (consistent : Consistent set) (member : area ∈ set.areas)
    (other : second ∈ set.areas) (held : area.Holds vpn) (shared : second.Holds vpn) : area = second :=
  Ownership.Kept.eq_of_mem_owns consistent member other (slot_mem_slots held) (slot_mem_slots shared)

theorem Consistent.mprotectSegment {index segStart segEnd : Nat}
    (consistent : Consistent set) (found : set.areas[index]? = some area) (low : area.start <= segStart)
    (between : segStart < segEnd) (high : segEnd <= area.stop) :
    Consistent (mprotectSegment set index area segStart segEnd prot) := by
  rcases mprotectSegment_tiles set index prot low between high with
    ⟨flags, _, pieces, tiles, segment_eq⟩
  rcases set with ⟨table, areas⟩
  have areas_eq := areas_split found
  have split : Consistent ⟨table, areas.take index ++ area :: areas.drop (index + 1)⟩ := by
    rw [<- areas_eq]
    exact consistent
  rw [segment_eq]
  refine Ownership.Kept.replace split ?_ ?_ ?_
  · have slots_eq : pieces.flatMap slots = area.slots := by
      unfold slots
      rw [<- map_flatMap, tiles.pages_eq]
    change (pieces.flatMap slots).Sublist area.slots
    rw [slots_eq]
  · intro piece member
    rcases tiles.parts piece member with ⟨part, _, _, stretch, filed, altered⟩
    have sound : Sound (setFlagsAll table (pages segStart segEnd) flags) part :=
      (split.areaSound mem_append_cons_self).piece stretch filed (fun vpn _ _ _ => translate_setFlagsAll _ _ _ vpn)
    rcases altered with ⟨rfl, _⟩ | ⟨rfl, _⟩
    · exact sound
    · exact ⟨sound.agrees, sound.filed⟩
  · intro other key owned foreign
    rcases mem_slots.mp owned with ⟨vpn, _, rfl⟩
    exact (findPte_setFlagsAll _ flags table vpn).trans (if_neg (mt (mem_slots_of_pages low high) foreign))

theorem Consistent.mprotect {addr prot : Nat}
    (consistent : Consistent set) (done : set.mprotect addr len prot = some (result, next)) :
    Consistent next := by
  refine (@mprotect_invariant (fun _ => Consistent) _ _ _ _ _ _ done consistent ?_).elim fun _ kept => kept.1
  intro perm _ _ set index area segStart segEnd kept found held between high _
  exact kept.mprotectSegment found held.1 between high

/-! ## Mapping -/

theorem nodup_pages_slots (short : last - first <= 2 ^ 27) : ((pages first last).map slot).Nodup := by
  refine Nodup.map_on ?_ nodup_range'
  intro left leftMember right rightMember same
  have leftBounds := mem_pages.mp leftMember
  have rightBounds := mem_pages.mp rightMember
  unfold slot at same
  omega

/-- The pages are in no area and have no entry, nor do pages that share an entry with
them, and no two of them share one. -/
def Vacant (set : MemorySet) (first last : Nat) : Prop :=
  last - first <= 2 ^ 27 /\ ∀ vpn, first <= vpn -> vpn < last ->
    set.pageTable.findPte vpn = none /\ ∀ area ∈ set.areas, slot vpn ∉ area.slots

theorem Blank.sound (blank : Blank first last perm area)
    (unmapped : ∀ vpn, first <= vpn -> vpn < last -> table.findPte vpn = none) : Sound table area := by
  have recorded : ∀ vpn frame, area.frame? vpn = some frame -> (first <= vpn /\ vpn < last) /\ frame = .unallocated := by
    intro vpn frame record
    rw [blank.frame_eq] at record
    by_cases inside : first <= vpn /\ vpn < last
    · rw [if_pos inside] at record
      exact ⟨inside, (Option.some.inj record).symm⟩
    · rw [if_neg inside] at record
      cases record
  constructor
  · intro vpn frame record
    rcases recorded vpn frame record with ⟨inside, rfl⟩
    rw [PageTable.translate, unmapped vpn inside.1 inside.2]
    rfl
  · intro _ vpn frame record
    exact .inl (recorded vpn frame record).2

theorem Vacant.fresh (vacant : Vacant set first last) (key : Nat)
    (member : key ∈ (pages first last).map slot) : key ∉ set.areas.flatMap slots := by
  intro owned
  rcases mem_map.mp member with ⟨vpn, within, rfl⟩
  rcases mem_flatMap.mp owned with ⟨area, present, shared⟩
  have bounds := mem_pages.mp within
  exact (vacant.2 vpn bounds.1 bounds.2).2 area present shared

theorem Consistent.insertArea
    (consistent : Consistent set) (vacant : Vacant set first last) (blank : Blank first last perm area) :
    Consistent ⟨set.pageTable, insertArea set.areas area⟩ := by
  have slots_eq : area.slots = (pages first last).map slot := by
    unfold slots
    rw [blank.start_eq, blank.stop_eq]
  refine Ownership.Kept.insert consistent ?_ ?_ ?_ (insertArea_perm set.areas area)
  · change area.slots.Nodup
    rw [slots_eq]
    exact nodup_pages_slots vacant.1
  · intro key member
    change key ∈ area.slots at member
    rw [slots_eq] at member
    exact vacant.fresh key member
  · exact Blank.sound blank (fun vpn low high => (vacant.2 vpn low high).1)

theorem Longer.sound (grown : Longer area last longer) (sound : Sound table area)
    (anonymous : area.mapFile = none)
    (unmapped : ∀ vpn, area.stop <= vpn -> vpn < last -> table.findPte vpn = none) : Sound table longer := by
  constructor
  · intro vpn frame record
    rw [grown.frame_eq] at record
    by_cases added : area.stop <= vpn /\ vpn < last
    · rw [if_pos added] at record
      cases record
      rw [PageTable.translate, unmapped vpn added.1 added.2]
      rfl
    · rw [if_neg added] at record
      exact sound.agrees vpn frame record
  · intro backed
    rw [grown.file_eq, anonymous] at backed
    cases backed

theorem floor_startAddr (small : vpn < 2 ^ 52) : floor (startAddr vpn) = vpn := by
  unfold floor startAddr pageSize usizeRange
  omega

theorem endPage_lt (start len : Nat) : endPage start len < 2 ^ 52 := by
  unfold endPage ceil pageSize usizeRange
  omega

include consistent in
theorem Consistent.lengthen (anonymous : area.mapFile = none)
    (grown : Longer area last longer) (vacant : Vacant ⟨table, front ++ area :: back⟩ area.stop last) :
    Consistent ⟨table, front ++ longer :: back⟩ := by
  refine Ownership.Kept.grow consistent ?_ (nodup_pages_slots vacant.1) vacant.fresh ?_
  · change longer.slots = area.slots ++ (pages area.stop last).map slot
    have ordered : area.start <= area.stop := Nat.le_add_right _ _
    unfold slots
    rw [<- map_append, pages_append ordered grown.ordered, grown.start_eq, grown.stop_eq]
  · exact Longer.sound grown (consistent.areaSound mem_append_cons_self) anonymous
      (fun vpn low high => (vacant.2 vpn low high).1)

/-- A fixed mapping may replace pages of the areas, but pages outside of it must not
share an entry with it, entries in it must belong to pages that it replaces, and it must
not lie strictly inside a file-backed area. -/
def Replaceable (set : MemorySet) (first last : Nat) : Prop :=
  last - first <= 2 ^ 27 /\
  (∀ area ∈ set.areas, Breaks first last area -> area.mapFile = none) /\
  ∀ vpn, first <= vpn -> vpn < last ->
    (∀ area ∈ set.areas, ∀ page, area.Holds page -> slot page = slot vpn ->
      first <= page /\ page < last) /\
    (set.pageTable.findPte vpn ≠ none -> Reaches first last set.areas vpn)

def AdmitsMmap (set : MemorySet) (start len : Nat) (flags : MapFlags) : Prop :=
  pageOffset start = 0 ->
    (flags.fixed = true -> AdmitsMunmap set start (mmapLen len) /\
      Replaceable set (floor start) (endPage start (mmapLen len))) /\
    (flags.fixed = false -> ∀ va, set.placement = some va ->
      Vacant set (floor va) (endPage va (mmapLen len)))

/-- `munmap` removes the range exactly when it can split what it has to split. -/
theorem Consistent.munmap_removes (consistent : Consistent set) (aligned : pageOffset start = 0)
    (between : floor start < endPage start len) (admits : AdmitsMunmap set start len)
    (anonymous : ∀ area ∈ set.areas, Breaks (floor start) (endPage start len) area ->
      area.mapFile = none) (done : set.munmap start len = some (result, next)) :
    Removes (floor start) (endPage start len) set next := by
  rcases consistent.unbroken_or_lone admits aligned with whole | ⟨front, area, back, split, lone⟩
  · rw [munmap_of_unbroken aligned whole] at done
    cases done
    exact munmapAreas_removes whole set.pageTable
  · rcases set with ⟨_, areas⟩
    subst split
    rcases lone.munmap_anonymous (anonymous area mem_append_cons_self lone.breaks) between with
      ⟨_, _, _, cut, firstPart, thirdPart, _, _, clears⟩
    rw [cut] at done
    cases done
    exact removes_of_lone_anonymous lone.breaks lone.apart firstPart thirdPart clears

theorem Removes.vacant (removes : Removes startVpn endVpn set next)
    (replaceable : Replaceable set startVpn endVpn) : Vacant next startVpn endVpn := by
  refine ⟨replaceable.1, fun vpn low high => ⟨?_, ?_⟩⟩
  · by_cases reached : Reaches startVpn endVpn set.areas vpn
    · exact removes.gone vpn reached
    · rw [removes.kept vpn reached]
      exact not_not.mp (mt (replaceable.2.2 vpn low high).2 reached)
  · intro area member shared
    rcases mem_slots.mp shared with ⟨page, held, same⟩
    rcases (removes.held_iff page).mp ⟨area, member, held⟩ with ⟨⟨old, present, oldHeld⟩, outside⟩
    exact outside ((replaceable.2.2 vpn low high).1 old present page oldHeld same)

theorem Consistent.mmap {flags : MapFlags}
    {file : Except Int MapFile} {result : Int} (consistent : Consistent set)
    (admits : AdmitsMmap set start len flags) (done : set.mmap start len prot flags file = some (result, next)) :
    Consistent next := by
  cases mmap_mmaps done with
  | nothing => exact consistent
  | unmapped aligned fixed removed => exact consistent.munmap ((admits aligned).1 fixed).1 removed
  | fixed aligned fixed removed blank =>
    rcases (admits aligned).1 fixed with ⟨admitted, replaceable⟩
    have middle := consistent.munmap admitted removed
    by_cases between : floor start < endPage start (mmapLen len)
    · have removes := consistent.munmap_removes aligned between admitted replaceable.2.1 removed
      exact middle.insertArea (Removes.vacant removes replaceable) blank
    · refine middle.insertArea ⟨replaceable.1, fun vpn low high => ?_⟩ blank
      cases between (low.trans_lt high)
  | placed aligned free chosen blank => exact consistent.insertArea ((admits aligned).2 free _ chosen) blank
  | lengthened aligned free chosen areas_eq last_eq perm_eq anonymous grown =>
    have vacant := (admits aligned).2 free _ chosen
    rcases set with ⟨_, _⟩
    cases areas_eq
    have small := grown.ordered.trans_lt (endPage_lt _ _)
    rw [last_eq, floor_startAddr small, <- last_eq] at vacant
    exact consistent.lengthen anonymous grown vacant

end MemorySet

end GCore.Mm
