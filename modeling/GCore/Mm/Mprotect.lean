import GCore.Mm.MemorySet

namespace GCore.Mm

open List PageTable

/-!
# What `mprotect` does with the areas

Each round of `mprotect` works on the stretch of its range that lies in one area.  It
sets the flags of the entries of that stretch, and it cuts the area into pieces so that
the stretch becomes an area of its own with the new permission.  The pieces tile the
area.  A stretch strictly inside a file-backed area is not cut out: there the entries
change and the area keeps its permission.
-/

namespace MapArea

/-- A stretch of an area is altered inside of the segment.  Outside of it the stretch is left as it
is, and so may be all of a file-backed area. -/
def Altered (area : MapArea) (alter : MapArea -> MapArea) (segStart segEnd first last : Nat) (part piece : MapArea) : Prop :=
  piece = part /\ (area.mapFile = none -> last <= segStart \/ segEnd <= first) \/
    piece = alter part /\ segStart <= first /\ last <= segEnd

/-- The pieces follow one another and make up the area. -/
structure Tiles (area : MapArea) (alter : MapArea -> MapArea) (segStart segEnd : Nat) (pieces : List MapArea) : Prop where
  pages_eq : pieces.flatMap (fun piece => pages piece.start piece.stop) = pages area.start area.stop
  parts : ∀ piece ∈ pieces, ∃ part first last, Piece area first last part /\
    part.mapFile.isSome = area.mapFile.isSome /\ Altered area alter segStart segEnd first last part piece

end MapArea

namespace MemorySet

open MapArea

theorem findPte_setFlagsAll (vpns : List Nat) (flags : MapPermission) (table : PageTable) (vpn : Nat) :
    (setFlagsAll table vpns flags).findPte vpn =
      if slot vpn ∈ vpns.map slot then (table.findPte vpn).map (fun pte => { pte with perm := flags })
      else table.findPte vpn := by
  induction vpns generalizing table with
  | nil => rfl
  | cons first rest ih =>
    have one : ((table.setPteFlags first flags).getD table).findPte vpn =
        if slot vpn = slot first then (table.findPte vpn).map (fun pte => { pte with perm := flags })
        else table.findPte vpn := by
      unfold setPteFlags
      by_cases here : slot vpn = slot first
      · rw [if_pos here, table.findPte_of_slot here]
        cases entry : table.findPte first with
        | none => exact (table.findPte_of_slot here).trans entry
        | some pte => exact findPte_set_of_slot here _
      · rw [if_neg here]
        cases table.findPte first with
        | none => rfl
        | some pte => exact findPte_set_of_ne here _
    have step : (setFlagsAll table (first :: rest) flags).findPte vpn =
        (setFlagsAll ((table.setPteFlags first flags).getD table) rest flags).findPte vpn := rfl
    rw [step, ih, one, map_cons]
    by_cases later : slot vpn ∈ rest.map slot
    · rw [if_pos later, if_pos (mem_cons_of_mem _ later)]
      by_cases here : slot vpn = slot first
      · rw [if_pos here]
        cases table.findPte vpn <;> rfl
      · rw [if_neg here]
    · rw [if_neg later]
      by_cases here : slot vpn = slot first
      · rw [if_pos here, if_pos (here ▸ mem_cons_self)]
      · rw [if_neg here, if_neg (fun member => (mem_cons.mp member).elim here later)]

/-- The entries of a page keep their frame. -/
theorem translate_setFlagsAll (vpns : List Nat) (flags : MapPermission) (table : PageTable) (vpn : Nat) :
    (setFlagsAll table vpns flags).translate vpn = table.translate vpn := by
  unfold PageTable.translate
  rw [findPte_setFlagsAll]
  by_cases member : slot vpn ∈ vpns.map slot
  · rw [if_pos member, Option.map_map]
    rfl
  · rw [if_neg member]

variable {perm : MapPermission} {stripped : Bool} {area : MapArea} {segStart segEnd : Nat}

/-- A piece keeps its pages whether its permission changes or not. -/
private theorem pages_of_protect {piece part : MapArea} {start stop : Nat}
    (altered : Altered area (fun part => protect part perm stripped) segStart segEnd start stop part piece) :
    pages piece.start piece.stop = pages part.start part.stop := by
  rcases altered with ⟨rfl, _⟩ | ⟨rfl, _⟩
  · rfl
  · rfl

theorem tiles_of_two {first second head tail : MapArea} {cut : Nat}
    (low : area.start <= cut) (high : cut <= area.stop) (firstPart : Piece area area.start cut first)
    (secondPart : Piece area cut area.stop second) (firstFile : first.mapFile.isSome = area.mapFile.isSome)
    (secondFile : second.mapFile.isSome = area.mapFile.isSome)
    (headIs : Altered area (fun part => protect part perm stripped) segStart segEnd area.start cut first head)
    (tailIs : Altered area (fun part => protect part perm stripped) segStart segEnd cut area.stop second tail) :
    Tiles area (fun part => protect part perm stripped) segStart segEnd [head, tail] := by
  constructor
  · simp only [flatMap_cons, flatMap_nil, append_nil]
    rw [pages_of_protect headIs, pages_of_protect tailIs, firstPart.start_eq, firstPart.stop_eq,
      secondPart.start_eq, secondPart.stop_eq]
    exact pages_append low high
  · intro piece member
    rcases mem_cons.mp member with rfl | rest
    · exact ⟨first, _, _, firstPart, firstFile, headIs⟩
    · rw [mem_singleton.mp rest]
      exact ⟨second, _, _, secondPart, secondFile, tailIs⟩

theorem tiles_of_three {first second third : MapArea} (anonymous : area.mapFile = none) (low : area.start <= segStart)
    (between : segStart <= segEnd) (high : segEnd <= area.stop)
    (firstPart : Piece area area.start segStart first) (secondPart : Piece area segStart segEnd second)
    (thirdPart : Piece area segEnd area.stop third) (firstFile : first.mapFile = none)
    (secondFile : second.mapFile = none) (thirdFile : third.mapFile = none) :
    Tiles area (fun part => protect part perm stripped) segStart segEnd [first, protect second perm stripped, third] := by
  have altered : Altered area (fun part => protect part perm stripped) segStart segEnd segStart segEnd second
    (protect second perm stripped) := .inr ⟨rfl, le_rfl, le_rfl⟩
  constructor
  · simp only [flatMap_cons, flatMap_nil, append_nil]
    rw [pages_of_protect altered, firstPart.start_eq, firstPart.stop_eq, secondPart.start_eq,
      secondPart.stop_eq, thirdPart.start_eq, thirdPart.stop_eq, pages_append between high]
    exact pages_append low (between.trans high)
  · intro piece member
    rw [anonymous]
    rcases mem_cons.mp member with rfl | rest
    · exact ⟨_, _, _, firstPart, by rw [firstFile], .inl ⟨rfl, fun _ => .inl le_rfl⟩⟩
    · rcases mem_cons.mp rest with rfl | last
      · exact ⟨second, _, _, secondPart, by rw [secondFile], altered⟩
      · exact ⟨third, _, _, thirdPart, by rw [thirdFile], .inl ⟨mem_singleton.mp last, fun _ => .inr le_rfl⟩⟩

/-- A round puts pieces in the place of the area that it found. -/
theorem mprotectSegment_tiles (set : MemorySet) (index : Nat) (prot : MapPermission) (low : area.start <= segStart) (between : segStart < segEnd)
    (high : segEnd <= area.stop) :
    ∃ (flags : MapPermission) (exec : Bool) (pieces : List MapArea),
      Tiles area (fun part => protect part { prot with x := exec } (area.mapPerm.w && !prot.w)) segStart segEnd pieces /\
      mprotectSegment set index area segStart segEnd prot =
        ⟨setFlagsAll set.pageTable (pages segStart segEnd) flags, replaceAt set.areas index pieces⟩ := by
  unfold mprotectSegment
  generalize realPerm_eq : (set.pageTable.getPteFlags segStart).getD area.mapPerm = realPerm
  refine ⟨prot.withoutW.orX realPerm, prot.x || realPerm.x, _, ?_, rfl⟩
  unfold MapPermission.orX
  by_cases atStart : segStart = area.start
  · by_cases atStop : segEnd = area.stop
    · rw [if_pos ⟨atStart, atStop⟩]
      refine ⟨append_nil _, ?_⟩
      intro piece member
      exact ⟨area, _, _, Piece.refl area, rfl, .inr ⟨mem_singleton.mp member, atStart.le, atStop.ge⟩⟩
    · rcases area.intoTwo_spec (low.trans_lt between) (lt_of_le_of_ne high atStop) with
        ⟨first, second, cut, firstPart, secondPart, firstFile, secondFile⟩
      rw [if_neg (fun both => atStop both.2), if_pos atStart, cut]
      exact tiles_of_two (low.trans between.le) high firstPart secondPart
        (by rw [firstFile]) secondFile (.inr ⟨rfl, atStart.le, le_rfl⟩) (.inl ⟨rfl, fun _ => .inr le_rfl⟩)
  · have above : area.start < segStart := lt_of_le_of_ne low (Ne.symm atStart)
    by_cases atStop : segEnd = area.stop
    · rcases area.intoTwo_spec above (between.trans_le high) with
        ⟨first, second, cut, firstPart, secondPart, firstFile, secondFile⟩
      rw [if_neg (fun both => atStart both.1), if_neg atStart, if_pos atStop, cut]
      exact tiles_of_two low (between.le.trans high) firstPart secondPart
        (by rw [firstFile]) secondFile (.inl ⟨rfl, fun _ => .inl le_rfl⟩) (.inr ⟨rfl, le_rfl, atStop.ge⟩)
    · rw [if_neg (fun both => atStart both.1), if_neg atStart, if_neg atStop]
      cases backing : area.mapFile with
      | some file =>
        have refused : area.intoThree segStart segEnd = (area, none) := by
          simp [intoThree, backing]
        rw [refused]
        refine ⟨append_nil _, ?_⟩
        intro piece member
        refine ⟨area, _, _, Piece.refl area, rfl, .inl ⟨mem_singleton.mp member, fun anonymous => ?_⟩⟩
        rw [anonymous] at backing
        cases backing
      | none =>
        rcases area.intoThree_spec backing above between (lt_of_le_of_ne high atStop) with
          ⟨first, second, _, cut, firstPart, secondPart, thirdPart, firstFile, secondFile, thirdFile⟩
        rw [cut]
        exact tiles_of_three backing low between.le high firstPart secondPart thirdPart firstFile
          secondFile thirdFile

/-- What every round carries on to the end of its stretch holds where the loop ends.  A round takes
one page at least, so that the pages are enough rounds. -/
theorem mprotectLoop_invariant {holds : Nat -> MemorySet -> Prop} {endVpn : Nat} {prot : MapPermission}
    (round : ∀ set index area segStart segEnd, holds segStart set -> set.areas[index]? = some area ->
      area.Holds segStart -> segStart < segEnd -> segEnd <= area.stop -> segEnd <= endVpn ->
      holds segEnd (mprotectSegment set index area segStart segEnd prot))
    {curVpn : Nat} {set : MemorySet} (fuel : Nat) (initial : holds curVpn set) :
    match mprotectLoop endVpn prot fuel curVpn set with
    | none => fuel < endVpn - curVpn
    | some (result, after) => ∃ reached, holds reached after /\ (result = .ok () -> endVpn <= reached) := by
  induction fuel generalizing curVpn set with
  | zero =>
    unfold mprotectLoop
    rcases lt_or_ge curVpn endVpn with below | past
    · rw [if_pos below]
      exact Nat.sub_pos_of_lt below
    · rw [if_neg (not_lt.mpr past)]
      exact ⟨curVpn, initial, fun _ => past⟩
  | succ fuel ih =>
    unfold mprotectLoop
    rcases lt_or_ge curVpn endVpn with below | past
    · rw [if_pos below]
      cases found : set.areas.findIdx? (fun area => decide (area.Holds curVpn)) with
      | none => exact ⟨curVpn, initial, nofun⟩
      | some index =>
        rcases findIdx?_eq_some_iff_getElem.mp found with ⟨inside, held, _⟩
        have here : set.areas[index]? = some set.areas[index] := getElem?_eq_getElem inside
        have holdsCur : set.areas[index].Holds curVpn := of_decide_eq_true held
        have between : curVpn < min endVpn set.areas[index].stop := Nat.lt_min.mpr ⟨below, holdsCur.2⟩
        have further := ih (round _ _ _ _ _ initial here holdsCur between (Nat.min_le_right _ _) (Nat.min_le_left _ _))
        simp only [here]
        split at further
        · omega
        · exact further
    · rw [if_neg (not_lt.mpr past)]
      exact ⟨curVpn, initial, fun _ => past⟩

/-- The same for a call. -/
theorem mprotect_invariant {holds : Nat -> MemorySet -> Prop} {set after : MemorySet} {addr len prot : Nat}
    {result : Except Int Unit} (done : set.mprotect addr len prot = some (result, after))
    (initial : holds (floor addr) set)
    (round : ∀ perm, MapPermission.fromProt prot = some perm -> len ≠ 0 -> ∀ set index area segStart segEnd,
      holds segStart set -> set.areas[index]? = some area -> area.Holds segStart -> segStart < segEnd ->
      segEnd <= area.stop -> segEnd <= ceil ((addr + len) % usizeRange) ->
      holds segEnd (mprotectSegment set index area segStart segEnd perm)) :
    ∃ reached, holds reached after /\
      (result = .ok () -> len ≠ 0 -> ceil ((addr + len) % usizeRange) <= reached) := by
  unfold mprotect at done
  split at done
  · cases done
    exact ⟨_, initial, nofun⟩
  · split at done
    · next empty =>
      cases done
      exact ⟨_, initial, fun _ given => absurd empty given⟩
    · next given =>
      split at done
      · cases done
      · next perm accepted =>
        have ends := mprotectLoop_invariant (round perm accepted given)
          (ceil ((addr + len) % usizeRange) - floor addr) initial
        dsimp only at done
        rw [done] at ends
        rcases ends with ⟨reached, kept, last⟩
        exact ⟨reached, kept, fun fine _ => last fine⟩

/-- `mprotect` fails on the protection bits only. -/
theorem mprotect_isSome (set : MemorySet) (addr len : Nat) {prot : Nat}
    (accepted : MapPermission.fromProt prot = some perm) : (set.mprotect addr len prot).isSome = true := by
  unfold mprotect
  split
  · rfl
  · split
    · rfl
    · simp only [accepted]
      generalize ceil ((addr + len) % usizeRange) = endVpn
      have ends := @mprotectLoop_invariant (fun _ _ => True) endVpn perm (fun _ _ _ _ _ _ _ _ _ _ _ => trivial)
        (floor addr) set (endVpn - floor addr) trivial
      split at ends
      · exact absurd ends (lt_irrefl _)
      · next returned => exact Option.isSome_iff_exists.mpr ⟨_, returned⟩

end MemorySet

end GCore.Mm
