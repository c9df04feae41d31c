import GCore.Mm.Munmap

namespace GCore.Mm

open List

/-!
# What `mmap` does with the areas

`mmap` never touches the page table by itself.  It adds an area without any frames to
the list, or lengthens the area it would otherwise have put the new one behind.  With
`MAP_FIXED` it unmaps the range first, and the address is the one asked for.
-/

namespace MapArea

/-- An area whose pages have nothing recorded for them. -/
structure Blank (first last : Nat) (perm : MapPermission) (area : MapArea) : Prop where
  start_eq : area.start = first
  stop_eq : area.stop = last
  ordered : first <= last
  perm_eq : area.mapPerm = perm
  frame_eq : ∀ vpn, area.frame? vpn = if first <= vpn /\ vpn < last then some .unallocated else none

theorem new_blank {startVa endVa : Nat} {perm : MapPermission} {area : MapArea} {mapFile : Option MapFile}
    (made : MapArea.new startVa endVa perm none = some area) :
    Blank (floor startVa) (ceil endVa) perm { area with mapFile := mapFile } := by
  unfold MapArea.new at made
  by_cases ordered : floor startVa <= ceil endVa
  · rw [if_pos ordered] at made
    cases made
    refine ⟨rfl, ?_, ordered, rfl, ?_⟩
    · change floor startVa + (replicate (ceil endVa - floor startVa) Frame.unallocated).length = ceil endVa
      rw [length_replicate]
      omega
    · intro vpn
      refine (LinearMap.frame?_new (floor startVa) (ceil endVa - floor startVa) vpn).trans ?_
      rw [Nat.add_sub_cancel' ordered]
  · rw [if_neg ordered] at made
    cases made

/-- The area with blank pages added behind its end. -/
structure Longer (area : MapArea) (last : Nat) (after : MapArea) : Prop where
  start_eq : after.start = area.start
  stop_eq : after.stop = last
  ordered : area.stop <= last
  perm_eq : after.mapPerm = area.mapPerm
  file_eq : after.mapFile = area.mapFile
  frame_eq : ∀ vpn, after.frame? vpn =
    if area.stop <= vpn /\ vpn < last then some .unallocated else area.frame? vpn

theorem expandTo_longer {area after : MapArea} {newEnd : Nat} (grown : area.expandTo newEnd = some after) :
    Longer area (ceil newEnd) after := by
  unfold expandTo at grown
  by_cases refused : ceil newEnd < area.stop
  · rw [if_pos refused] at grown
    cases grown
  · rw [if_neg refused] at grown
    cases grown
    have ordered := not_lt.mp refused
    have stop_eq : area.inner.start + area.inner.frames.length = area.stop := rfl
    have whole : area.inner.frames.take (ceil newEnd - area.inner.start) = area.inner.frames :=
      take_of_length_le (by omega)
    refine ⟨rfl, ?_, ordered, rfl, rfl, ?_⟩
    · change area.inner.start + (area.inner.frames.take (ceil newEnd - area.inner.start) ++
        replicate (ceil newEnd - area.inner.start - area.inner.frames.length) Frame.unallocated).length = _
      rw [whole, length_append, length_replicate]
      omega
    · intro vpn
      change LinearMap.frame? (LinearMap.setEnd area.inner (ceil newEnd)) vpn = _
      unfold LinearMap.frame? LinearMap.setEnd
      dsimp only
      rw [whole]
      by_cases ahead : area.inner.start <= vpn
      · rw [if_pos ahead, getElem?_append]
        by_cases old : vpn - area.inner.start < area.inner.frames.length
        · rw [if_pos old, if_neg (by omega)]
          exact (if_pos ahead).symm
        · rw [if_neg old, getElem?_replicate]
          by_cases new : vpn < ceil newEnd
          · rw [if_pos (by omega), if_pos ⟨by omega, new⟩]
          · rw [if_neg (by omega), if_neg (fun both => new both.2)]
            exact ((area.frame?_eq_none_iff vpn).mpr (fun held => old (by have := held.2; omega))).symm
      · rw [if_neg ahead, if_neg (by omega)]
        exact ((area.frame?_eq_none_iff vpn).mpr (fun held => ahead held.1)).symm

end MapArea

namespace MemorySet

open MapArea

/-- The new area is put somewhere between the old ones. -/
theorem insertArea_eq (areas : List MapArea) (area : MapArea) :
    ∃ front back, areas = front ++ back /\ insertArea areas area = front ++ area :: back := by
  unfold insertArea
  dsimp only
  split
  · next index _ =>
    refine ⟨_, _, ?_, rfl⟩
    rw [append_assoc, take_append_drop, takeWhile_append_dropWhile]
  · exact ⟨areas, [], (append_nil areas).symm, rfl⟩

theorem insertArea_perm (areas : List MapArea) (area : MapArea) : (insertArea areas area).Perm (area :: areas) := by
  rcases insertArea_eq areas area with ⟨_, _, areas_eq, inserted⟩
  rw [inserted, areas_eq]
  exact perm_middle

/-- The length that is mapped. -/
def mmapLen (len : Nat) : Nat := if len = 0 then pageSize else len

/-- The address at which `mmap` puts a mapping of its own choice. -/
def placement (set : MemorySet) : Option Nat :=
  match set.lastMmapAreaIdx with
  | none => none
  | some none => some mmapBase
  | some (some index) => (set.areas[index]?).map (fun area => startAddr area.stop)

theorem mmapNew_cases {set after : MemorySet} {startVa len : Nat} {prot : MapPermission} {flags : MapFlags}
    {file : Except Int MapFile} {result : Int}
    (done : set.mmapNew startVa len prot flags file = some (result, after)) :
    after = set \/ ∃ area, Blank (floor startVa) (endPage startVa len) prot area /\
      after = ⟨set.pageTable, insertArea set.areas area⟩ := by
  unfold mmapNew at done
  split at done
  · cases done
  · next area made =>
    split at done
    · cases done
      exact .inr ⟨_, new_blank made, rfl⟩
    · cases file with
      | error errno =>
        cases done
        exact .inl rfl
      | ok file =>
        cases done
        exact .inr ⟨_, new_blank made, rfl⟩

/-- What `mmap` can do: nothing, unmap a fixed range, map it anew, or put blank pages
where it chooses, in an area of their own or behind an old one. -/
inductive Mmaps (set : MemorySet) (start len : Nat) (prot : MapPermission) (flags : MapFlags) : MemorySet -> Prop
  | nothing : Mmaps set start len prot flags set
  | unmapped {result : Except Int Unit} {after : MemorySet} (aligned : pageOffset start = 0)
      (fixed : flags.fixed = true) (removed : set.munmap start (mmapLen len) = some (result, after)) :
      Mmaps set start len prot flags after
  | fixed {result : Except Int Unit} {middle : MemorySet} {area : MapArea} (aligned : pageOffset start = 0)
      (fixed : flags.fixed = true) (removed : set.munmap start (mmapLen len) = some (result, middle))
      (blank : Blank (floor start) (endPage start (mmapLen len)) prot area) :
      Mmaps set start len prot flags ⟨middle.pageTable, insertArea middle.areas area⟩
  | placed {va : Nat} {area : MapArea} (aligned : pageOffset start = 0) (free : flags.fixed = false)
      (chosen : set.placement = some va) (blank : Blank (floor va) (endPage va (mmapLen len)) prot area) :
      Mmaps set start len prot flags ⟨set.pageTable, insertArea set.areas area⟩
  | lengthened {va : Nat} {front back : List MapArea} {area longer : MapArea} (aligned : pageOffset start = 0)
      (free : flags.fixed = false) (chosen : set.placement = some va) (areas_eq : set.areas = front ++ area :: back)
      (last_eq : va = startAddr area.stop) (perm_eq : prot = area.mapPerm) (anonymous : area.mapFile = none)
      (grown : Longer area (endPage va (mmapLen len)) longer) :
      Mmaps set start len prot flags ⟨set.pageTable, front ++ longer :: back⟩

theorem areas_split {areas : List MapArea} {index : Nat} {area : MapArea} (found : areas[index]? = some area) :
    areas = areas.take index ++ area :: areas.drop (index + 1) := by
  rcases List.getElem?_eq_some_iff.mp found with ⟨inside, rfl⟩
  rw [<- drop_eq_getElem_cons inside, take_append_drop]

theorem mmap_mmaps {set after : MemorySet} {start len : Nat} {prot : MapPermission} {flags : MapFlags}
    {file : Except Int MapFile} {result : Int}
    (done : set.mmap start len prot flags file = some (result, after)) : Mmaps set start len prot flags after := by
  unfold mmap at done
  by_cases aligned : pageOffset start = 0
  · simp only [aligned, ne_eq, not_true_eq_false, if_false] at done
    cases last : set.lastMmapAreaIdx with
    | none => simp [last] at done
    | some last' =>
      simp only [last] at done
      cases fixed : flags.fixed with
      | true =>
        simp only [fixed, if_true] at done
        cases removed : set.munmap start (mmapLen len) with
        | none =>
          unfold mmapLen at removed
          simp [removed] at done
        | some pair =>
          rcases pair with ⟨_, _⟩
          have unmapped := removed
          unfold mmapLen at unmapped
          simp only [unmapped] at done
          rcases mmapNew_cases done with rfl | ⟨area, blank, rfl⟩
          · exact .unmapped aligned fixed removed
          · exact .fixed aligned fixed removed blank
      | false =>
        simp only [fixed, Bool.false_eq_true, if_false] at done
        cases last' with
        | none =>
          have chosen : set.placement = some mmapBase := by rw [placement, last]
          rcases mmapNew_cases done with rfl | ⟨area, blank, rfl⟩
          · exact .nothing
          · exact .placed aligned fixed chosen blank
        | some index =>
          cases here : set.areas[index]? with
          | none => simp [here] at done
          | some area =>
            have chosen : set.placement = some (startAddr area.stop) := by
              simp only [placement, last, here, Option.map_some]
            simp only [here] at done
            split at done
            · next merged =>
              cases grown : area.expandTo ((startAddr area.stop + mmapLen len) % usizeRange) with
              | none =>
                unfold mmapLen at grown
                simp [grown] at done
              | some longer =>
                have expanded := grown
                unfold mmapLen at expanded
                simp only [expanded, Option.some.injEq, Prod.mk.injEq] at done
                rw [<- done.2, set_eq_take_append_cons_drop, if_pos (List.getElem?_eq_some_iff.mp here).1]
                exact .lengthened aligned fixed chosen (areas_split here) rfl merged.2.2.1
                  (Option.isNone_iff_eq_none.mp merged.2.2.2) (expandTo_longer grown)
            · rcases mmapNew_cases done with rfl | ⟨area, blank, rfl⟩
              · exact .nothing
              · exact .placed aligned fixed chosen blank
  · rw [if_pos aligned] at done
    cases done
    exact .nothing

end MemorySet

end GCore.Mm
