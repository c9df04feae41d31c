import GCore.Mm.Munmap
import Mathlib.Data.List.Pairwise

namespace GCore.Mm

open List

/-!
# When `munmap` is exact

An exact `munmap` takes the pages of its range out of the areas and out of the table,
leaves everything else as it was, and succeeds exactly when the range meets an area.
The condition for it is worked out here for any space whose areas do not overlap.

The ways to fail are these.  The overlap test counts an area that starts where the range
ends, so a request may succeed on nothing.  An area of a file cannot be cut in three,
and cutting off its lower part leaves the position in the file behind.  A range of no
pages, or one that runs over the end of the address space, ends no later than it starts
and cuts the area it starts in without clearing any entry.  Finally entries are shared
by pages whose numbers agree in their low bits, and entries of pages outside of all
areas are never cleared.
-/

namespace MemorySet

open MapArea

/-- The page meets the bytes from `start` up to `start + len`. -/
def InRange (start len vpn : Nat) : Prop :=
  vpn < 2 ^ 52 /\ vpn * pageSize < start + len /\ start < (vpn + 1) * pageSize

/-- The range has a page of an area. -/
def Meets (set : MemorySet) (start len : Nat) : Prop :=
  ∃ vpn, InRange start len vpn /\ Held set.areas vpn

/-- Some area records the frame for the page, with this permission and backing. -/
def Shows (areas : List MapArea) (vpn : Nat) (frame : Frame) (perm : MapPermission)
    (backing : Option (Nat × Nat)) : Prop :=
  ∃ area, area ∈ areas /\ area.frame? vpn = some frame /\ area.mapPerm = perm /\ area.backing vpn = backing

structure Exact (set : MemorySet) (start len : Nat) (result : Except Int Unit) (after : MemorySet) : Prop where
  answered : result = .ok () ↔ Meets set start len
  removed : result = .ok () -> ∀ vpn, InRange start len vpn ->
    ¬ Held after.areas vpn /\ after.pageTable.findPte vpn = none
  recorded : result = .ok () -> ∀ vpn, ¬ InRange start len vpn -> ∀ frame perm backing,
    Shows after.areas vpn frame perm backing ↔ Shows set.areas vpn frame perm backing
  mapped : result = .ok () -> ∀ vpn, ¬ InRange start len vpn -> Held set.areas vpn ->
    after.pageTable.findPte vpn = set.pageTable.findPte vpn

/-- One area ends before the other starts. -/
def Separate (first second : MapArea) : Prop := first.stop <= second.start \/ second.stop <= first.start

instance : Std.Symm Separate := ⟨fun _ _ => Or.symm⟩

instance (first second : MapArea) : Decidable (Separate first second) :=
  inferInstanceAs (Decidable (_ \/ _))

/-- No two areas overlap. -/
def Apart (areas : List MapArea) : Prop := areas.Pairwise Separate

/-- The range ends strictly inside an area of a file. -/
def SplitsFile (endVpn : Nat) (area : MapArea) : Prop :=
  area.mapFile.isSome = true /\ area.start < endVpn /\ endVpn < area.stop

variable {areas front back : List MapArea} {area : MapArea} {table : PageTable} {startVpn endVpn : Nat}

/-! ## Pages of the range -/

section Range

variable {start len : Nat} (startFits : start < usizeRange) (lenFits : len < usizeRange)
  (aligned : pageOffset start = 0)

include startFits lenFits aligned

/-- A range that ends behind its start has the pages in between. -/
theorem inRange_iff (forward : floor start < endPage start len) (vpn : Nat) :
    InRange start len vpn ↔ floor start <= vpn /\ vpn < endPage start len := by
  unfold pageOffset pageSize at aligned
  unfold usizeRange at startFits lenFits
  unfold endPage floor ceil pageSize usizeRange at forward
  unfold InRange endPage floor ceil pageSize usizeRange
  omega

/-- A range that ends no later than it starts has no pages, or all from its start on. -/
theorem inRange_of_backward (backward : endPage start len <= floor start) :
    (∀ vpn, ¬ InRange start len vpn) \/
      ∀ vpn, InRange start len vpn ↔ floor start <= vpn /\ vpn < 2 ^ 52 := by
  unfold pageOffset pageSize at aligned
  unfold usizeRange at startFits lenFits
  unfold endPage floor ceil pageSize usizeRange at backward
  unfold InRange floor pageSize
  by_cases empty : len = 0
  · left
    omega
  · right
    omega

end Range

variable {set : MemorySet} {start len : Nat}

theorem floor_lt (startFits : start < usizeRange) : floor start < 2 ^ 52 := by
  unfold usizeRange at startFits
  unfold floor pageSize
  omega

/-! ## Areas that do not overlap -/

variable {first : MapArea} {vpn : Nat} {frame : Frame} {perm : MapPermission} {backing : Option (Nat × Nat)}
  {result : Except Int Unit} {second other piece : MapArea}

theorem Separate.not_both (separate : Separate first second) (held : first.Holds vpn) : ¬ second.Holds vpn := by
  rintro ⟨low, high⟩
  rcases separate with below | above
  · exact not_lt.mpr (below.trans low) held.2
  · exact not_lt.mpr (above.trans held.1) high

theorem Apart.eq_of_holds (apart : Apart areas) (firstMember : first ∈ areas)
    (secondMember : second ∈ areas) (firstHeld : first.Holds vpn) (secondHeld : second.Holds vpn) :
    first = second := by
  by_contra different
  have separate := List.Pairwise.forall apart firstMember secondMember different
  exact separate.not_both firstHeld secondHeld

theorem Apart.separate (apart : Apart (front ++ area :: back))
    (elsewhere : other ∈ front \/ other ∈ back) : Separate area other := by
  have pairs := pairwise_append.mp apart
  rcases elsewhere with earlier | later
  · exact (pairs.2.2 other earlier area mem_cons_self).symm
  · exact (pairwise_cons.mp pairs.2.1).1 other later

/-- An area that is split is the only one that passes the overlap test. -/
theorem Apart.lone (apart : Apart (front ++ area :: back)) (breaks : Breaks startVpn endVpn area)
    (other : MapArea) (elsewhere : other ∈ front \/ other ∈ back) : ¬ Overlaps startVpn endVpn other := by
  rintro ⟨low, high⟩
  rcases apart.separate elsewhere with below | above
  · exact not_lt.mpr (below.trans low) breaks.2.2
  · exact not_lt.mpr (above.trans breaks.2.1.le) high

/-! ## Where the areas that are left come from -/

/-- What an area that is left has in common with the one it comes from. -/
structure Remnant (endVpn : Nat) (area piece : MapArea) : Prop where
  frame_eq : ∀ vpn frame, piece.frame? vpn = some frame -> area.frame? vpn = some frame
  perm_eq : piece.mapPerm = area.mapPerm
  backing_eq : ¬ SplitsFile endVpn area -> ∀ vpn, piece.backing vpn = area.backing vpn

theorem Remnant.refl (endVpn : Nat) (area : MapArea) : Remnant endVpn area area :=
  ⟨fun _ _ record => record, rfl, fun _ _ => rfl⟩

theorem backing_eq_none {area : MapArea} (anonymous : area.mapFile = none) (vpn : Nat) : area.backing vpn = none := by
  unfold MapArea.backing
  rw [anonymous]
  rfl

theorem Piece.remnant {first last : Nat} (part : Piece area first last piece)
    (backing_eq : ¬ SplitsFile endVpn area -> ∀ vpn, piece.backing vpn = area.backing vpn) :
    Remnant endVpn area piece := by
  exact ⟨fun _ _ record => (part.record record).1, part.perm_eq, backing_eq⟩

theorem Cuts.remnant {after : MapArea} {afterTable : PageTable} {fate : Fate}
    (cuts : Cuts startVpn endVpn area table fate after afterTable) (left : fate ≠ .deleted) :
    Remnant endVpn area after := by
  cases cuts with
  | untouched apart | broken breaks => exact Remnant.refl endVpn area
  | deleted overlaps low high clears => cases left rfl
  | lower overlaps low high part file_eq clears still =>
    by_cases touching : endVpn = area.start
    · rw [(still touching).1]
      exact Remnant.refl endVpn area
    · apply Piece.remnant part
      intro whole vpn
      have anonymous : area.mapFile = none := by
        cases backing : area.mapFile with
        | none => rfl
        | some file =>
          have inside := lt_of_le_of_ne overlaps.1 (Ne.symm touching)
          cases whole ⟨by rw [backing]; rfl, inside, high⟩
      rw [backing_eq_none anonymous, backing_eq_none (file_eq.trans anonymous)]
  | upper overlaps low high part file_eq clears =>
    apply Piece.remnant part
    intro _ vpn
    unfold MapArea.backing
    rw [file_eq, part.start_eq]

theorem munmapAreas_remnants (member : piece ∈ survivors (munmapAreas startVpn endVpn areas table).1) :
    ∃ area, area ∈ areas /\ Remnant endVpn area piece := by
  rcases mem_map.mp member with ⟨_, left, rfl⟩
  rcases mem_filter.mp left with ⟨present, kept⟩
  rcases munmapAreas_cuts present with ⟨area, source, _, _, cuts⟩
  exact ⟨area, source, cuts.remnant (of_decide_eq_true kept)⟩

/-- An area that the walk does not delete leaves something. -/
theorem munmapAreas_covers (member : area ∈ areas) (table : PageTable) :
    ∃ before fate piece after,
      Cuts startVpn endVpn area before fate piece after /\
      (fate, piece) ∈ (munmapAreas startVpn endVpn areas table).1 := by
  induction areas generalizing table with
  | nil => cases member
  | cons head tail ih =>
    rcases mem_cons.mp member with rfl | later
    · exact ⟨table, _, _, _, munmapArea_cuts startVpn endVpn area table, mem_cons_self⟩
    · rcases ih later (munmapArea startVpn endVpn head table).2.2 with ⟨before, fate, piece, after, cuts, present⟩
      exact ⟨before, fate, piece, after, cuts, mem_cons_of_mem _ present⟩

/-! ## Ranges that end behind their start -/

/-- The entries of the range belong to pages of areas, and no other page of an area
shares one of them. -/
structure Tidy (startVpn endVpn : Nat) (set : MemorySet) : Prop where
  inside : ∀ vpn, startVpn <= vpn -> vpn < endVpn -> set.pageTable.findPte vpn ≠ none ->
    Reaches startVpn endVpn set.areas vpn
  outside : ∀ vpn, Held set.areas vpn -> ¬ (startVpn <= vpn /\ vpn < endVpn) ->
    set.pageTable.findPte vpn ≠ none -> ¬ Reaches startVpn endVpn set.areas vpn

section Forward

variable {after : MemorySet} (range : ∀ vpn, InRange start len vpn ↔ startVpn <= vpn /\ vpn < endVpn)
  (apart : Apart set.areas) (removes : Removes startVpn endVpn set after)
  (remnants : ∀ piece ∈ after.areas,
    ∃ area, area ∈ set.areas /\ Remnant endVpn area piece)
  (unsplit : ∀ area ∈ set.areas, ¬ SplitsFile endVpn area)

include apart removes remnants unsplit in
/-- Pages outside the range are recorded as before. -/
theorem shows_iff (outside : ¬ (startVpn <= vpn /\ vpn < endVpn)) (frame : Frame)
    (perm : MapPermission) (backing : Option (Nat × Nat)) :
    Shows after.areas vpn frame perm backing ↔ Shows set.areas vpn frame perm backing := by
  constructor
  · rintro ⟨piece, member, record, rfl, rfl⟩
    rcases remnants piece member with ⟨area, source, remnant⟩
    have backing_eq := remnant.backing_eq (unsplit area source) vpn
    exact ⟨area, source, remnant.frame_eq vpn frame record, remnant.perm_eq.symm, backing_eq.symm⟩
  · rintro ⟨area, member, record, rfl, rfl⟩
    have held : area.Holds vpn := holds_of_frame? record
    rcases (removes.held_iff vpn).mpr ⟨⟨area, member, held⟩, outside⟩ with ⟨piece, left, stays⟩
    rcases remnants piece left with ⟨other, source, remnant⟩
    rcases stays.exists_frame with ⟨found, recorded⟩
    have original := remnant.frame_eq vpn found recorded
    have same : other = area := apart.eq_of_holds source member (holds_of_frame? original) held
    subst same
    rw [record] at original
    have backing_eq := remnant.backing_eq (unsplit other source) vpn
    exact ⟨piece, left, recorded.trans original.symm, remnant.perm_eq, backing_eq⟩

include range apart removes remnants unsplit in
theorem exact_iff_of_removes :
    Exact set start len (.ok ()) after ↔ Meets set start len /\ Tidy startVpn endVpn set := by
  constructor
  · intro exact
    refine ⟨exact.answered.mp rfl, ?_, ?_⟩
    · intro vpn low high mapped
      by_contra missed
      apply mapped
      rw [<- removes.kept vpn missed]
      exact (exact.removed rfl vpn ((range vpn).mpr ⟨low, high⟩)).2
    · intro vpn held outside mapped reached
      apply mapped
      rw [<- exact.mapped rfl vpn (mt (range vpn).mp outside) held]
      exact removes.gone vpn reached
  · rintro ⟨meets, tidy⟩
    constructor
    · exact iff_of_true rfl meets
    · intro _ vpn inside
      have within := (range vpn).mp inside
      refine ⟨fun held => ((removes.held_iff vpn).mp held).2 within, ?_⟩
      by_cases reached : Reaches startVpn endVpn set.areas vpn
      · exact removes.gone vpn reached
      · rw [removes.kept vpn reached]
        by_contra mapped
        exact reached (tidy.inside vpn within.1 within.2 mapped)
    · intro _ vpn outside
      exact shows_iff apart removes remnants unsplit (mt (range vpn).mpr outside)
    · intro _ vpn outside held
      by_cases mapped : set.pageTable.findPte vpn = none
      · by_cases reached : Reaches startVpn endVpn set.areas vpn
        · rw [removes.gone vpn reached, mapped]
        · exact removes.kept vpn reached
      · exact removes.kept vpn (tidy.outside vpn held (mt (range vpn).mpr outside) mapped)

end Forward

/-- Without its lower part an area of a file reads its pages from the wrong place. -/
theorem not_exact_of_splitsFile
    (range : ∀ vpn, InRange start len vpn ↔ startVpn <= vpn /\ vpn < endVpn) (apart : Apart set.areas)
    (whole : ∀ area ∈ set.areas, ¬ Breaks startVpn endVpn area) (forward : startVpn < endVpn)
    (member : area ∈ set.areas) (splits : SplitsFile endVpn area) (succeeds : result = .ok ()) :
    ¬ Exact set start len result ⟨(munmapAreas startVpn endVpn set.areas set.pageTable).2,
      survivors (munmapAreas startVpn endVpn set.areas set.pageTable).1⟩ := by
  intro exact
  rcases splits with ⟨file, low, high⟩
  have overlaps : Overlaps startVpn endVpn area := ⟨low.le, forward.trans high⟩
  have held : area.Holds endVpn := ⟨low.le, high⟩
  rcases held.exists_frame with ⟨frame, record⟩
  rcases munmapAreas_covers member set.pageTable with ⟨_, _, piece, _, cuts, present⟩
  cases cuts with
  | untouched missed => exact missed overlaps
  | deleted _ _ covered _ | upper _ _ covered _ _ _ => exact not_lt.mpr covered high
  | broken breaks => exact whole area member breaks
  | lower _ _ _ part file_eq _ _ =>
    have left : piece ∈ survivors (munmapAreas startVpn endVpn set.areas set.pageTable).1 :=
      mem_map.mpr ⟨(.trimmed, piece), mem_filter.mpr ⟨present, rfl⟩, rfl⟩
    have recorded : piece.frame? endVpn = some frame := by
      rw [part.frame_eq, if_pos ⟨le_rfl, high⟩, record]
    have outside : ¬ InRange start len endVpn := fun inside => lt_irrefl _ ((range endVpn).mp inside).2
    rcases (exact.recorded succeeds endVpn outside frame piece.mapPerm (piece.backing endVpn)).mp
      ⟨piece, left, recorded, rfl, rfl⟩ with ⟨_, source, original, _, backing_eq⟩
    have same := apart.eq_of_holds source member (holds_of_frame? original) held
    subst same
    rcases Option.isSome_iff_exists.mp file with ⟨_, backed⟩
    unfold MapArea.backing at backing_eq
    rw [file_eq, backed, part.start_eq] at backing_eq
    have offset_eq := congrArg Prod.snd (Option.some.inj backing_eq)
    rw [Nat.sub_self, Nat.zero_mul, Nat.add_right_inj, Nat.mul_eq_zero] at offset_eq
    rcases offset_eq with nothing | nothing
    · exact not_lt.mpr (Nat.sub_eq_zero_iff_le.mp nothing) low
    · cases nothing

/-! ## Ranges that end no later than they start -/

/-- The pages of an area from the start of the range on are what the range has of the
areas, and none of them is mapped. -/
structure Severs (start len : Nat) (set : MemorySet) (area : MapArea) : Prop where
  anonymous : area.mapFile = none
  breaks : Breaks (floor start) (endPage start len) area
  ends : area.stop <= 2 ^ 52
  alone : ∀ other ∈ set.areas, other ≠ area -> ∀ vpn, InRange start len vpn -> ¬ other.Holds vpn
  unmapped : ∀ vpn, InRange start len vpn -> set.pageTable.findPte vpn = none

theorem shows_append {first second : List MapArea} :
    Shows (first ++ second) vpn frame perm backing ↔
      Shows first vpn frame perm backing \/ Shows second vpn frame perm backing := by
  unfold Shows
  simp only [mem_append, or_and_right, exists_or]

theorem shows_singleton :
    Shows [area] vpn frame perm backing ↔
      area.frame? vpn = some frame /\ area.mapPerm = perm /\ area.backing vpn = backing := by
  unfold Shows
  simp only [mem_singleton, exists_eq_left]

/-- Where an area gives way to another one, the others are still there. -/
theorem held_replace (apart : Apart (front ++ area :: back)) {page : Nat} (held : area.Holds page) :
    Held (front ++ [first] ++ back) vpn ↔ first.Holds vpn \/
      ∃ other, other ∈ front ++ area :: back /\ other ≠ area /\ other.Holds vpn := by
  constructor
  · rintro ⟨other, member, holds⟩
    have different : other ∈ front \/ other ∈ back -> other ≠ area := by
      rintro elsewhere rfl
      exact (apart.separate elsewhere).not_both held held
    simp only [mem_append, mem_singleton] at member
    rcases member with (earlier | rfl) | later
    · exact .inr ⟨other, mem_append_left _ earlier, different (.inl earlier), holds⟩
    · exact .inl holds
    · exact .inr ⟨other, mem_append_right _ (mem_cons_of_mem _ later), different (.inr later), holds⟩
  · rintro (holds | ⟨other, member, different, holds⟩)
    · exact ⟨first, by simp, holds⟩
    · refine ⟨other, ?_, holds⟩
      rw [mem_append, mem_cons, or_iff_right different] at member
      simp only [mem_append, mem_singleton]
      exact member.imp .inl id

section Backward

variable (range : ∀ vpn, InRange start len vpn ↔ floor start <= vpn /\ vpn < 2 ^ 52)
  (small : floor start < 2 ^ 52)

include range in
/-- Cutting an area off keeps the records of the pages outside the range. -/
theorem shows_iff_of_severed (anonymous : area.mapFile = none) (ends : area.stop <= 2 ^ 52)
    (part : Piece area area.start (floor start) first) (cleared : first.mapFile = none)
    (outside : ¬ InRange start len vpn) (frame : Frame) (perm : MapPermission) (backing : Option (Nat × Nat)) :
    Shows (front ++ [first] ++ back) vpn frame perm backing ↔
      Shows (front ++ area :: back) vpn frame perm backing := by
  have record_eq : first.frame? vpn = area.frame? vpn := by
    rw [part.frame_eq]
    by_cases kept : area.start <= vpn /\ vpn < floor start
    · rw [if_pos kept]
    · have missed : ¬ area.Holds vpn := by
        rintro ⟨low, high⟩
        have late := not_lt.mp (fun early => kept ⟨low, early⟩)
        exact outside ((range vpn).mpr ⟨late, high.trans_le ends⟩)
      rw [if_neg kept, (area.frame?_eq_none_iff vpn).mpr missed]
  have here : Shows [first] vpn frame perm backing ↔ Shows [area] vpn frame perm backing := by
    rw [shows_singleton, shows_singleton, record_eq, part.perm_eq, backing_eq_none anonymous,
      backing_eq_none cleared]
  rw [shows_append, shows_append, here, <- shows_append, <- shows_append, append_assoc, singleton_append]

include range small in
theorem exact_iff_of_severed (apart : Apart (front ++ area :: back))
    (breaks : Breaks (floor start) (endPage start len) area) (anonymous : area.mapFile = none)
    (part : Piece area area.start (floor start) first) (cleared : first.mapFile = none) :
    Exact ⟨table, front ++ area :: back⟩ start len (.ok ()) ⟨table, front ++ [first] ++ back⟩ ↔
      Severs start len ⟨table, front ++ area :: back⟩ area := by
  have held : area.Holds (floor start) := ⟨breaks.2.1.le, breaks.1.2⟩
  have first_holds : ∀ vpn, first.Holds vpn -> vpn < floor start := by
    intro vpn holds
    exact ((part.holds_iff vpn).mp holds).2
  constructor
  · intro exact
    refine ⟨anonymous, breaks, ?_, ?_, fun vpn inside => (exact.removed rfl vpn inside).2⟩
    · -- otherwise the page behind the address space is lost, which the range does not have
      by_contra longer
      have beyond : area.Holds (2 ^ 52) :=
        ⟨le_of_lt (breaks.2.1.trans small), not_le.mp longer⟩
      have outside : ¬ InRange start len (2 ^ 52) := fun inside => lt_irrefl _ inside.1
      rcases beyond.exists_frame with ⟨frame, record⟩
      rcases (exact.recorded rfl _ outside frame area.mapPerm (area.backing (2 ^ 52))).mpr
        ⟨area, mem_append_cons_self, record, rfl, rfl⟩ with ⟨piece, left, kept, _⟩
      rcases (held_replace apart held).mp ⟨piece, left, holds_of_frame? kept⟩ with holds | ⟨other, member, different, holds⟩
      · exact Nat.lt_asymm small (first_holds _ holds)
      · exact different (apart.eq_of_holds member mem_append_cons_self holds beyond)
    · intro other member different vpn inside holds
      exact (exact.removed rfl vpn inside).1 ((held_replace apart held).mpr (.inr ⟨other, member, different, holds⟩))
  · intro severs
    have inside : InRange start len (floor start) := (range _).mpr ⟨le_rfl, small⟩
    constructor
    · exact iff_of_true rfl ⟨floor start, inside, area, mem_append_cons_self, held⟩
    · intro _ vpn within
      refine ⟨fun left => ?_, severs.unmapped vpn within⟩
      rcases (held_replace apart held).mp left with holds | ⟨other, member, different, holds⟩
      · exact not_lt.mpr ((range vpn).mp within).1 (first_holds vpn holds)
      · exact severs.alone other member different vpn within holds
    · intro _ vpn outside
      exact shows_iff_of_severed range anonymous severs.ends part cleared outside
    · intro _ vpn _ _
      rfl

end Backward

/-- A success that leaves the first page of the range in an area is not exact. -/
theorem not_exact_of_held {after : MemorySet}
    (range : (∀ vpn, ¬ InRange start len vpn) \/ InRange start len (floor start))
    (held : Held after.areas (floor start)) (succeeds : result = .ok ()) : ¬ Exact set start len result after := by
  intro exact
  rcases range with empty | inside
  · rcases exact.answered.mp succeeds with ⟨vpn, within, _⟩
    exact empty vpn within
  · exact (exact.removed succeeds _ inside).1 held

/-! ## The condition -/

/-- When a request is exact: nothing is found and nothing is there; or the range ends
behind its start, meets an area, does not end inside an area of a file, and the table
has no entries in its way; or the range runs over the end of the address space and cuts
off the pages of one area that are not mapped. -/
def Removable (set : MemorySet) (start len : Nat) : Prop :=
  ((∀ area ∈ set.areas, ¬ Overlaps (floor start) (endPage start len) area) /\ ¬ Meets set start len) \/
  (floor start < endPage start len /\ Meets set start len /\
    (∀ area ∈ set.areas, ¬ SplitsFile (endPage start len) area) /\
    Tidy (floor start) (endPage start len) set) \/
  (endPage start len <= floor start /\ InRange start len (floor start) /\
    ∃ area, area ∈ set.areas /\ Severs start len set area)

section Request

theorem removable_iff_of_forward (forward : floor start < endPage start len)
    (found : ∃ area, area ∈ set.areas /\ Overlaps (floor start) (endPage start len) area) :
    Removable set start len ↔ (∀ area ∈ set.areas, ¬ SplitsFile (endPage start len) area) /\
      Meets set start len /\ Tidy (floor start) (endPage start len) set := by
  rcases found with ⟨area, member, overlaps⟩
  constructor
  · rintro (⟨missed, _⟩ | ⟨_, meets, unsplit, tidy⟩ | ⟨backward, _⟩)
    · cases missed area member overlaps
    · exact ⟨unsplit, meets, tidy⟩
    · cases not_lt.mpr backward forward
  · rintro ⟨unsplit, meets, tidy⟩
    exact .inr (.inl ⟨forward, meets, unsplit, tidy⟩)

theorem removable_iff_of_backward (backward : endPage start len <= floor start)
    (found : ∃ area, area ∈ set.areas /\ Overlaps (floor start) (endPage start len) area) :
    Removable set start len ↔ InRange start len (floor start) /\
      ∃ area, area ∈ set.areas /\ Severs start len set area := by
  rcases found with ⟨area, member, overlaps⟩
  constructor
  · rintro (⟨missed, _⟩ | ⟨forward, _⟩ | ⟨_, severed⟩)
    · cases missed area member overlaps
    · cases not_lt.mpr backward forward
    · exact severed
  · intro severed
    exact .inr (.inr ⟨backward, severed⟩)

/-- Nothing passes the overlap test. -/
theorem exact_iff_of_missed (missed : ∀ area ∈ set.areas, ¬ Overlaps (floor start) (endPage start len) area)
    (after : MemorySet) (forwardRange : floor start < endPage start len -> ∀ vpn,
      InRange start len vpn -> floor start <= vpn /\ vpn < endPage start len) :
    Exact set start len (.error EINVAL) after ↔ Removable set start len := by
  constructor
  · intro exact
    exact .inl ⟨missed, fun meets => nomatch exact.answered.mpr meets⟩
  · intro removable
    have nothing : ¬ Meets set start len := by
      rintro ⟨vpn, inside, area, member, held⟩
      rcases removable with ⟨_, nothing⟩ | ⟨forward, _⟩ | ⟨_, _, other, present, severs⟩
      · exact nothing ⟨vpn, inside, area, member, held⟩
      · have within := forwardRange forward vpn inside
        apply missed area member
        exact ⟨held.1.trans within.2.le, within.1.trans_lt held.2⟩
      · exact missed other present severs.breaks.1
    exact ⟨iff_of_false nofun nothing, nofun, nofun, nofun⟩

variable (apart : Apart set.areas) (startFits : start < usizeRange) (lenFits : len < usizeRange)
  (aligned : pageOffset start = 0)

include startFits lenFits aligned in
theorem inRange_floor_of_backward (backward : endPage start len <= floor start) :
    (∀ vpn, ¬ InRange start len vpn) \/ InRange start len (floor start) := by
  rcases inRange_of_backward startFits lenFits aligned backward with empty | range
  · exact .inl empty
  · exact .inr ((range _).mpr ⟨le_rfl, floor_lt startFits⟩)

include apart startFits lenFits aligned in
/-- The walk alone, when something passes the test and nothing is split. -/
theorem exact_iff_of_unbroken (whole : ∀ area ∈ set.areas, ¬ Breaks (floor start) (endPage start len) area)
    (found : ∃ area, area ∈ set.areas /\ Overlaps (floor start) (endPage start len) area) :
    Exact set start len (.ok ())
      ⟨(munmapAreas (floor start) (endPage start len) set.areas set.pageTable).2,
        survivors (munmapAreas (floor start) (endPage start len) set.areas set.pageTable).1⟩ ↔
      Removable set start len := by
  have removes := munmapAreas_removes whole set.pageTable
  rcases lt_or_ge (floor start) (endPage start len) with forward | backward
  · have range := inRange_iff startFits lenFits aligned forward
    rw [removable_iff_of_forward forward found]
    by_cases unsplit : ∀ area ∈ set.areas, ¬ SplitsFile (endPage start len) area
    · rw [exact_iff_of_removes range apart removes (fun _ => munmapAreas_remnants) unsplit]
      exact (and_iff_right unsplit).symm
    · apply iff_of_false _ (fun removable => unsplit removable.1)
      push Not at unsplit
      rcases unsplit with ⟨area, member, splits⟩
      exact not_exact_of_splitsFile range apart whole forward member splits rfl
  · apply iff_of_false
    · apply not_exact_of_held (inRange_floor_of_backward startFits lenFits aligned backward) _ rfl
      rcases found with ⟨area, member, overlaps⟩
      rw [removes.held_iff]
      refine ⟨⟨area, member, overlaps.1.trans backward, overlaps.2⟩, ?_⟩
      exact fun inside => not_lt.mpr backward inside.2
    · rw [removable_iff_of_backward backward found]
      rintro ⟨_, area, member, severs⟩
      exact whole area member severs.breaks

end Request

section Broken

variable (apart : Apart (front ++ area :: back)) (startFits : start < usizeRange)
  (lenFits : len < usizeRange) (aligned : pageOffset start = 0)
  (breaks : Breaks (floor start) (endPage start len) area)

include apart breaks in
/-- The area that is cut off is the one that is split. -/
theorem eq_of_severs (present : other ∈ front ++ area :: back)
    (severs : Severs start len set other) : other = area := by
  apply apart.eq_of_holds present mem_append_cons_self
  · exact ⟨severs.breaks.2.1.le, severs.breaks.1.2⟩
  · exact ⟨breaks.2.1.le, breaks.1.2⟩

include breaks in
theorem found_of_breaks : ∃ other, other ∈ front ++ area :: back /\
    Overlaps (floor start) (endPage start len) other :=
  ⟨area, mem_append_cons_self, breaks.1⟩

/-- The call succeeds, and it is exact under the condition. -/
def Decides (set : MemorySet) (start len : Nat) : Prop :=
  ∃ after, munmap set start len = some (.ok (), after) /\
    (Exact set start len (.ok ()) after ↔ Removable set start len)

include apart startFits lenFits aligned breaks

theorem decides_of_file (file : area.mapFile.isSome = true) : Decides ⟨table, front ++ area :: back⟩ start len := by
  refine ⟨_, Lone.munmap_file ⟨aligned, breaks, apart.lone breaks⟩ file, iff_of_false ?_ ?_⟩
  · apply not_exact_of_held _ _ rfl
    · rcases lt_or_ge (floor start) (endPage start len) with forward | backward
      · exact .inr ((inRange_iff startFits lenFits aligned forward _).mpr ⟨le_rfl, forward⟩)
      · exact inRange_floor_of_backward startFits lenFits aligned backward
    · exact ⟨area, by simp, breaks.2.1.le, breaks.1.2⟩
  · rcases lt_or_ge (floor start) (endPage start len) with forward | backward
    · rw [removable_iff_of_forward forward (found_of_breaks breaks)]
      intro removable
      apply removable.1 area mem_append_cons_self
      exact ⟨file, breaks.2.1.trans forward, breaks.2.2⟩
    · rw [removable_iff_of_backward backward (found_of_breaks breaks)]
      rintro ⟨_, _, present, severs⟩
      rw [<- eq_of_severs apart breaks present severs, severs.anonymous] at file
      cases file

theorem decides_of_middle (anonymous : area.mapFile = none) (forward : floor start < endPage start len) :
    Decides ⟨table, front ++ area :: back⟩ start len := by
  have lone := apart.lone breaks
  have member : area ∈ front ++ area :: back := mem_append_cons_self
  rcases Lone.munmap_anonymous ⟨aligned, breaks, lone⟩ anonymous forward with
    ⟨first, third, _, done, firstPart, thirdPart, firstFile, thirdFile, clears⟩
  refine ⟨_, done, ?_⟩
  have unsplit : ∀ other, other ∈ front ++ area :: back -> ¬ SplitsFile (endPage start len) other := by
    rintro other present ⟨file, low, high⟩
    have within : area.Holds (endPage start len) :=
      ⟨le_of_lt (breaks.2.1.trans forward), breaks.2.2⟩
    rw [apart.eq_of_holds present member ⟨low.le, high⟩ within, anonymous] at file
    cases file
  have unbacked : ∀ part : MapArea, part.mapFile = none -> ∀ vpn,
      part.backing vpn = area.backing vpn := by
    intro part cleared vpn
    rw [backing_eq_none cleared, backing_eq_none anonymous]
  have remnants : ∀ piece ∈ front ++ [first, third] ++ back,
      ∃ other, other ∈ front ++ area :: back /\ Remnant (endPage start len) other piece := by
    intro piece left
    simp only [mem_append, mem_cons, not_mem_nil, or_false] at left
    rcases left with (earlier | rfl | rfl) | later
    · exact ⟨piece, mem_append_left _ earlier, Remnant.refl _ _⟩
    · exact ⟨area, member, Piece.remnant firstPart (fun _ => unbacked _ firstFile)⟩
    · exact ⟨area, member, Piece.remnant thirdPart (fun _ => unbacked _ thirdFile)⟩
    · exact ⟨piece, mem_append_right _ (mem_cons_of_mem _ later), Remnant.refl _ _⟩
  rw [removable_iff_of_forward forward (found_of_breaks breaks),
    exact_iff_of_removes (inRange_iff startFits lenFits aligned forward) apart
      (removes_of_lone_anonymous breaks lone firstPart thirdPart clears) remnants unsplit]
  exact (and_iff_right unsplit).symm

theorem decides_of_backward (anonymous : area.mapFile = none) (backward : endPage start len <= floor start) :
    Decides ⟨table, front ++ area :: back⟩ start len := by
  rcases Lone.munmap_backward ⟨aligned, breaks, apart.lone breaks⟩ anonymous backward with
    ⟨_, done, part, cleared⟩
  refine ⟨_, done, ?_⟩
  rw [removable_iff_of_backward backward (found_of_breaks breaks)]
  rcases inRange_of_backward startFits lenFits aligned backward with empty | range
  · apply iff_of_false _ (fun removable => empty _ removable.1)
    intro exact
    rcases exact.answered.mp rfl with ⟨vpn, inside, _⟩
    exact empty vpn inside
  · have small : floor start < 2 ^ 52 := floor_lt startFits
    rw [exact_iff_of_severed range small apart breaks anonymous part cleared]
    constructor
    · intro severs
      exact ⟨(range _).mpr ⟨le_rfl, small⟩, area, mem_append_cons_self, severs⟩
    · rintro ⟨_, _, present, severs⟩
      exact eq_of_severs apart breaks present severs ▸ severs

end Broken

/-- For areas that do not overlap, `munmap` of an aligned range is exact under this
condition and no other. -/
theorem munmap_exact_iff_removable (apart : Apart set.areas)
    (startFits : start < usizeRange) (lenFits : len < usizeRange) (aligned : pageOffset start = 0) :
    ∃ result after, set.munmap start len = some (result, after) /\
      (Exact set start len result after ↔ Removable set start len) := by
  by_cases whole : ∀ area ∈ set.areas, ¬ Breaks (floor start) (endPage start len) area
  · refine ⟨_, _, munmap_of_unbroken aligned whole, ?_⟩
    by_cases missed : ∀ area ∈ set.areas, ¬ Overlaps (floor start) (endPage start len) area
    · rw [answer, if_pos missed]
      apply exact_iff_of_missed missed
      intro forward vpn inside
      exact (inRange_iff startFits lenFits aligned forward vpn).mp inside
    · rw [answer, if_neg missed]
      push Not at missed
      exact exact_iff_of_unbroken apart startFits lenFits aligned whole missed
  · push Not at whole
    rcases whole with ⟨area, member, breaks⟩
    rcases append_of_mem member with ⟨front, back, split⟩
    rcases set with ⟨table, areas⟩
    subst split
    refine ⟨.ok (), ?_⟩
    cases backing : area.mapFile with
    | some file =>
      exact decides_of_file apart startFits lenFits aligned breaks (by rw [backing]; rfl)
    | none =>
      rcases lt_or_ge (floor start) (endPage start len) with forward | backward
      · exact decides_of_middle apart startFits lenFits aligned breaks backing forward
      · exact decides_of_backward apart startFits lenFits aligned breaks backing backward

/-- Three pages, of which the middle one is in memory. -/
def threePages : MemorySet where
  pageTable := PageTable.new.set 0x60001 (some ⟨7, ⟨true, true, false, true⟩⟩)
  areas := [⟨⟨0x60000, [.unallocated, .inMemory 7, .unallocated], [1], 0, 0⟩, ⟨true, true, false, true⟩, false, none⟩]

theorem middle_page_is_removed :
    ∃ result after,
      threePages.munmap 0x60001000 0x1000 = some (result, after) /\
      Exact threePages 0x60001000 0x1000 result after := by
  have held : Held threePages.areas 0x60001 := ⟨_, mem_singleton_self _, by decide⟩
  have mapped : ∀ vpn, threePages.pageTable.findPte vpn ≠ none -> slot 0x60001 = slot vpn := by
    intro vpn entry
    by_contra different
    exact entry (PageTable.findPte_set_of_ne (Ne.symm different) _)
  have reaches : Reaches 0x60001 0x60002 threePages.areas 0x60001 :=
    ⟨_, mem_singleton_self _, 0x60001, by decide, by decide, by decide, rfl⟩
  have removable : Removable threePages 0x60001000 0x1000 := by
    refine .inr (.inl ⟨by decide, ⟨0x60001, ⟨by decide, by decide, by decide⟩, held⟩, ?_, ?_, ?_⟩)
    · rintro area member ⟨file, _⟩
      rw [mem_singleton.mp member] at file
      cases file
    · intro vpn _ _ entry
      rcases reaches with ⟨area, member, page, inside, low, high, same⟩
      exact ⟨area, member, page, inside, low, high, same.trans (mapped vpn entry)⟩
    · rintro vpn ⟨area, member, low, high⟩ outside entry
      rw [mem_singleton.mp member] at low high
      have same := mapped vpn entry
      change vpn < 0x60003 at high
      change ¬ (0x60001 <= vpn /\ vpn < 0x60002) at outside
      unfold slot at same
      omega
  have apart : Apart threePages.areas := pairwise_singleton _ _
  have startFits : 0x60001000 < usizeRange := by decide
  have lenFits : 0x1000 < usizeRange := by decide
  rcases munmap_exact_iff_removable apart startFits lenFits rfl with ⟨result, after, done, exact_iff⟩
  exact ⟨result, after, done, exact_iff.mpr removable⟩

/-- Two pages of a file that have not been read yet. -/
def twoFilePages : MemorySet where
  pageTable := PageTable.new
  areas := [⟨LinearMap.new 0x60000 2, ⟨true, true, false, true⟩, false, some ⟨5, 0⟩⟩]

/-- Without its first page, the mapping of a file has the start of the file where the
second page was. -/
theorem second_file_page_moves :
    ¬ ∀ (set : MemorySet) (start len : Nat), Apart set.areas -> start < usizeRange -> len < usizeRange ->
      pageOffset start = 0 -> ∃ result after,
        set.munmap start len = some (result, after) /\ Exact set start len result after := by
  intro claim
  rcases claim twoFilePages 0x60000000 0x1000 (pairwise_singleton _ _) (by decide) (by decide) (by decide) with
    ⟨result, after, done, exact⟩
  have moved : ∃ final, twoFilePages.munmap 0x60000000 0x1000 = some (.ok (), final) /\
      Shows final.areas 0x60001 .unallocated ⟨true, true, false, true⟩ (some (5, 0)) :=
    ⟨_, rfl, _, mem_singleton_self _, rfl, rfl, rfl⟩
  rcases moved with ⟨final, ends, shows⟩
  rw [done] at ends
  cases ends
  have outside : ¬ InRange 0x60000000 0x1000 0x60001 := fun inside => absurd inside.2.1 (by decide)
  rcases (exact.recorded rfl 0x60001 outside _ _ _).mp shows with ⟨area, member, _, _, backing_eq⟩
  rw [mem_singleton.mp member] at backing_eq
  exact absurd backing_eq (by decide)

end MemorySet

end GCore.Mm
