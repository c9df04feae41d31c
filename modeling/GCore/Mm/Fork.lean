import GCore.Mm.Residence

namespace GCore.Mm

open PageTable List

/-!
# What a fork does

`from_existing_user` shares all areas but the last.  The frames of a shared area are
referred to by both spaces afterwards, and neither of them has an entry left that allows
writing to them.  The last area, which holds the trap context, is made anew with a frame
of its own; the parent keeps its entries there.  `Forked` says so in terms of the
records and entries of both spaces.
-/

/-- The entry without the permission to write. -/
def Pte.revoked (pte : Pte) : Pte := { pte with perm := pte.perm.withoutW }

/-- What sharing does to the two tables: the entries of the source lose the permission to
write, and the destination gets entries for the same frames with the permissions given. -/
structure Shares (grants : List (Nat × MapPermission)) (dst src dstAfter srcAfter : PageTable) : Prop where
  source : ∀ vpn, srcAfter.findPte vpn =
    if slot vpn ∈ grants.map Prod.fst then (src.findPte vpn).map Pte.revoked else src.findPte vpn
  shared : ∀ vpn perm, (slot vpn, perm) ∈ grants ->
    dstAfter.findPte vpn = (src.findPte vpn).map (fun pte => ⟨pte.ppn, perm⟩)
  other : ∀ vpn, slot vpn ∉ grants.map Prod.fst -> dstAfter.findPte vpn = dst.findPte vpn

namespace Shares

variable {first second : List (Nat × MapPermission)} {dst src dstMiddle srcMiddle dstAfter srcAfter : PageTable}

theorem nil (dst src : PageTable) : Shares [] dst src dst src := ⟨fun _ => rfl, nofun, fun _ _ => rfl⟩

/-- Sharing different pages one after the other. -/
theorem append (earlier : Shares first dst src dstMiddle srcMiddle)
    (later : Shares second dstMiddle srcMiddle dstAfter srcAfter)
    (apart : ∀ key ∈ first.map Prod.fst, key ∉ second.map Prod.fst) :
    Shares (first ++ second) dst src dstAfter srcAfter := by
  constructor
  · intro vpn
    rw [later.source, earlier.source, map_append]
    by_cases before : slot vpn ∈ first.map Prod.fst
    · rw [if_pos before, if_neg (apart _ before), if_pos (mem_append_left _ before)]
    · rw [if_neg before]
      by_cases behind : slot vpn ∈ second.map Prod.fst
      · rw [if_pos behind, if_pos (mem_append_right _ behind)]
      · rw [if_neg behind, if_neg (fun member => (mem_append.mp member).elim before behind)]
  · intro vpn perm member
    rcases mem_append.mp member with before | behind
    · have key := mem_map_of_mem (f := Prod.fst) before
      rw [later.other vpn (apart _ key)]
      exact earlier.shared vpn perm before
    · have key := mem_map_of_mem (f := Prod.fst) behind
      rw [later.shared vpn perm behind, earlier.source, if_neg (fun before => apart _ before key)]
  · intro vpn missed
    rw [map_append, mem_append, not_or] at missed
    rw [later.other vpn missed.2, earlier.other vpn missed.1]

end Shares

namespace MapArea

/-- The permissions that a child gets for the pages of an area. -/
def grants (area : MapArea) : List (Nat × MapPermission) :=
  area.slots.map (fun key => (key, area.mapPerm.withoutW))

theorem grants_keys (area : MapArea) : area.grants.map Prod.fst = area.slots := by
  unfold grants
  rw [map_map]
  exact map_id _

/-- One page of `map_from_existing_page_table`. -/
def shareOne (perm : MapPermission) (tables : PageTable × PageTable) (vpn : Nat) : Option (PageTable × PageTable) :=
  match tables.2.blockAndRetMut vpn with
  | (none, src) => some (tables.1, src)
  | (some ppn, src) => (tables.1.map vpn ppn perm).map (fun dst => (dst, src))

variable {perm : MapPermission} {dst src dstAfter srcAfter : PageTable}

theorem shareOne_shares {vpn : Nat} (vacant : dst.findPte vpn = none)
    (done : shareOne perm (dst, src) vpn = some (dstAfter, srcAfter)) :
    Shares [(slot vpn, perm)] dst src dstAfter srcAfter := by
  have source : ∀ other, (src.blockAndRetMut vpn).2.findPte other =
      if slot other ∈ [(slot vpn, perm)].map Prod.fst then (src.findPte other).map Pte.revoked
      else src.findPte other := by
    intro other
    simp only [map_singleton, mem_singleton]
    exact src.findPte_blockAndRetMut vpn other
  have given := src.fst_blockAndRetMut vpn
  have here : ∀ other granted, (slot other, granted) ∈ [(slot vpn, perm)] ->
      slot other = slot vpn /\ granted = perm := by
    intro other granted member
    exact Prod.mk.inj (mem_singleton.mp member)
  unfold shareOne at done
  cases blocked : src.blockAndRetMut vpn with
  | mk taken middle =>
    rw [blocked] at given source
    simp only [blocked] at done
    cases taken with
    | none =>
      cases done
      refine ⟨source, ?_, fun _ _ => rfl⟩
      intro other granted member
      rcases here other granted member with ⟨same, _⟩
      have absent := Option.map_eq_none_iff.mp given.symm
      rw [findPte_of_slot _ same, findPte_of_slot _ same, vacant, absent]
      rfl
    | some ppn =>
      rcases Option.map_eq_some_iff.mp done with ⟨_, mapped, same⟩
      cases same
      rcases map_eq_some_iff.mp mapped with ⟨_, rfl⟩
      rcases Option.map_eq_some_iff.mp given.symm with ⟨_, entry, rfl⟩
      refine ⟨source, ?_, ?_⟩
      · intro other granted member
        rcases here other granted member with ⟨same, rfl⟩
        rw [findPte_set_of_slot same, src.findPte_of_slot same, entry]
        rfl
      · intro other apart
        apply findPte_set_of_ne
        simpa using apart

/-- By induction on the pages; a page that has been shared is not met again. -/
theorem shareAll_shares {vpns : List Nat} (nodup : (vpns.map slot).Nodup)
    (vacant : ∀ vpn ∈ vpns, dst.findPte vpn = none)
    (done : vpns.foldlM (shareOne perm) (dst, src) = some (dstAfter, srcAfter)) :
    Shares (vpns.map (fun vpn => (slot vpn, perm))) dst src dstAfter srcAfter := by
  induction vpns generalizing dst src with
  | nil =>
    cases done
    exact Shares.nil _ _
  | cons first rest ih =>
    rw [map_cons, nodup_cons] at nodup
    rcases Option.bind_eq_some_iff.mp done with ⟨⟨_, _⟩, one, others⟩
    have here := shareOne_shares (vacant first mem_cons_self) one
    have later := ih nodup.2 (fun vpn member => by
      have missed : slot vpn ∉ [(slot first, perm)].map Prod.fst := by
        intro same
        have shared : slot vpn = slot first := mem_singleton.mp same
        exact nodup.1 (shared ▸ mem_map_of_mem member)
      rw [here.other vpn missed]
      exact vacant vpn (mem_cons_of_mem _ member)) others
    apply here.append later
    intro key member
    rw [mem_singleton.mp member, map_map]
    exact nodup.1

end MapArea

namespace MemorySet

open MapArea

theorem grants_flatMap_keys (areas : List MapArea) :
    (areas.flatMap grants).map Prod.fst = areas.flatMap MapArea.slots := by
  rw [map_flatMap]
  exact congrArg (fun keys => areas.flatMap keys) (funext grants_keys)

/-- By induction on the areas, as for the pages of one. -/
theorem shareAreas_shares {areas : List MapArea} {child after : MemorySet} {src srcAfter : PageTable}
    (nodup : (areas.flatMap MapArea.slots).Nodup)
    (vacant : ∀ area ∈ areas, ∀ vpn, area.Holds vpn -> child.pageTable.findPte vpn = none)
    (done : shareAreas areas child src = some (after, srcAfter)) :
    after.areas = child.areas ++ areas /\
      Shares (areas.flatMap grants) child.pageTable src after.pageTable srcAfter := by
  induction areas generalizing child src with
  | nil =>
    cases done
    exact ⟨(append_nil _).symm, Shares.nil _ _⟩
  | cons area rest ih =>
    rw [flatMap_cons, nodup_append] at nodup
    have apart : ∀ key ∈ area.grants.map Prod.fst, key ∉ (rest.flatMap grants).map Prod.fst := by
      intro key before behind
      rw [grants_keys] at before
      rw [grants_flatMap_keys] at behind
      exact nodup.2.2 key before key behind rfl
    unfold shareAreas at done
    cases one : area.mapFromExistingPageTable child.pageTable src with
    | none => simp [one] at done
    | some pair =>
      rcases pair with ⟨dstMiddle, srcMiddle⟩
      simp only [one] at done
      have here : Shares area.grants child.pageTable src dstMiddle srcMiddle := by
        rw [grants, MapArea.slots, map_map]
        exact shareAll_shares nodup.1 (fun vpn member => vacant area mem_cons_self vpn (mem_pages.mp member)) one
      have untouched : ∀ other ∈ rest, ∀ vpn, other.Holds vpn -> dstMiddle.findPte vpn = none := by
        intro other member vpn held
        have owned : slot vpn ∈ (rest.flatMap grants).map Prod.fst := by
          rw [grants_flatMap_keys]
          exact mem_flatMap.mpr ⟨other, member, slot_mem_slots held⟩
        rw [here.other vpn (fun before => apart _ before owned)]
        exact vacant other (mem_cons_of_mem _ member) vpn held
      rcases ih nodup.2.1 untouched done with ⟨areas_eq, later⟩
      refine ⟨?_, here.append later apart⟩
      rw [areas_eq, append_assoc]
      rfl

/-- The spaces after a fork: `shared` are the areas that both have, and `own` is the last
area of the child, for the area `last` of the parent. -/
structure Forked (trampolinePpn signalPpn : Nat) (frames : List Nat) (set parent child : MemorySet)
    (shared : List MapArea) (last own : MapArea) (fill : Fill) : Prop where
  areas_eq : set.areas = shared ++ [last]
  parent_areas : parent.areas = set.areas
  child_areas : child.areas = shared ++ [own]
  own_shape : own.shape = last.shape
  parent_entry : ∀ vpn, parent.pageTable.findPte vpn =
    if slot vpn ∈ shared.flatMap MapArea.slots then (set.pageTable.findPte vpn).map Pte.revoked
    else set.pageTable.findPte vpn
  shared_entry : ∀ area ∈ shared, ∀ vpn, slot vpn ∈ area.slots ->
    child.pageTable.findPte vpn =
      (set.pageTable.findPte vpn).map (fun pte => ⟨pte.ppn, area.mapPerm.withoutW⟩)
  own_entry : ∀ vpn, own.Holds vpn -> ∃ ppn, ppn ∈ frames /\
    own.frame? vpn = some (.inMemory ppn) /\ child.pageTable.findPte vpn = some ⟨ppn, last.mapPerm⟩
  other_entry : ∀ vpn, slot vpn ∉ child.slots ->
    child.pageTable.findPte vpn = (newUser trampolinePpn signalPpn).pageTable.findPte vpn
  one_page : last.stop - last.start <= 1
  filled : fill = .none \/ ∃ source target, fill = .copy source target /\
    set.pageTable.translate last.start = some source /\ own.frame? last.start = some (.inMemory target)
  parent_consistent : Consistent parent
  child_consistent : Consistent child

/-- Losing the permission to write does not change where an entry leads. -/
theorem translate_of_revoked {table after : PageTable} {keys : List Nat} (source : ∀ vpn, after.findPte vpn =
      if slot vpn ∈ keys then (table.findPte vpn).map Pte.revoked else table.findPte vpn) (vpn : Nat) :
    after.translate vpn = table.translate vpn := by
  unfold PageTable.translate
  rw [source]
  by_cases member : slot vpn ∈ keys
  · rw [if_pos member, Option.map_map]
    rfl
  · rw [if_neg member]

theorem Consistent.of_translate {set next : MemorySet} (consistent : Consistent set) (areas_eq : next.areas = set.areas)
    (same : ∀ vpn, next.pageTable.translate vpn = set.pageTable.translate vpn) : Consistent next := by
  constructor
  · rw [areas_eq]
    exact consistent.nodup
  · intro area member
    rw [areas_eq] at member
    exact (consistent.areaSound member).congr (fun vpn _ => same vpn)

theorem shape_fromAnother (area : MapArea) : area.fromAnother.shape = area.shape := by
  have stop_eq : area.fromAnother.stop = area.stop := by
    change area.start + (replicate (area.stop - area.start) Frame.unallocated).length = area.stop
    rw [length_replicate]
    exact Nat.add_sub_cancel' (Nat.le_add_right _ _)
  unfold shape
  rw [stop_eq]
  rfl

/-- The child before its last area is made. -/
theorem Consistent.shared {set middle : MemorySet} {shared : List MapArea} {dst src : PageTable}
    (consistent : Consistent set) (some : ∀ area ∈ shared, area ∈ set.areas)
    (nodup : (shared.flatMap MapArea.slots).Nodup) (areas_eq : middle.areas = shared)
    (shares : Shares (shared.flatMap grants) dst set.pageTable middle.pageTable src) : Consistent middle := by
  constructor
  · rw [areas_eq]
    exact nodup
  · intro area member
    rw [areas_eq] at member
    apply (consistent.areaSound (some area member)).congr
    intro vpn held
    have granted : (slot vpn, area.mapPerm.withoutW) ∈ shared.flatMap grants :=
      mem_flatMap.mpr ⟨area, member, mem_map_of_mem (slot_mem_slots held)⟩
    unfold PageTable.translate
    rw [shares.shared vpn _ granted, Option.map_map]
    rfl

variable {frames : List Nat} {fill : Fill} {trampolinePpn : Nat}

/-- The parts of a fork that went well. -/
theorem fromExistingUser_eq_ok {set parent child : MemorySet} {signalPpn : Nat}
    (done : set.fromExistingUser trampolinePpn signalPpn frames = .ok (parent, child, fill)) :
    ∃ shared last middle src source,
      set.areas = shared ++ [last] /\
      shareAreas shared (newUser trampolinePpn signalPpn) set.pageTable = some (middle, src) /\
      src.translate last.start = some source /\ last.stop - last.start <= 1 /\
      middle.push last.fromAnother frames = .ok child /\ parent = ⟨src, set.areas⟩ /\
      fill = if last.start < last.stop then
          match child.pageTable.translate last.start with
          | some target => .copy source target
          | none => .none
        else .none := by
  unfold fromExistingUser at done
  split at done
  · cases done
  · next last behind =>
    cases sharing : shareAreas set.areas.dropLast (newUser trampolinePpn signalPpn) set.pageTable with
    | none => simp [sharing] at done
    | some pair =>
      rcases pair with ⟨middle, src⟩
      simp only [sharing] at done
      split at done
      · cases done
      · next source translated =>
        split at done
        · cases done
        · next small =>
          split at done
          · cases done
          · next final pushed =>
            simp only [Except.ok.injEq, Prod.mk.injEq] at done
            rcases done with ⟨rfl, rfl, filled⟩
            exact ⟨set.areas.dropLast, last, middle, src, source,
              (dropLast_append_getLast? last behind).symm, sharing, translated, not_lt.mp small,
              pushed, rfl, filled.symm⟩

theorem fromExistingUser_forked {set parent child : MemorySet} {signalPpn : Nat} (consistent : Consistent set)
    (vacant : ∀ vpn, slot vpn ∈ set.slots -> (newUser trampolinePpn signalPpn).pageTable.findPte vpn = none)
    (done : set.fromExistingUser trampolinePpn signalPpn frames = .ok (parent, child, fill)) :
    ∃ shared last own,
      Forked trampolinePpn signalPpn frames set parent child shared last own fill := by
  rcases fromExistingUser_eq_ok done with
    ⟨shared, last, middle, _, sourcePpn, areas_eq, sharing, translated, small, pushed, rfl, filled⟩
  have nodup : ((shared ++ [last]).flatMap MapArea.slots).Nodup := areas_eq ▸ consistent.nodup
  rw [flatMap_append, nodup_append, flatMap_singleton] at nodup
  have present : ∀ area ∈ shared, area ∈ set.areas := by
    intro area member
    rw [areas_eq]
    exact mem_append_left _ member
  have free : ∀ area ∈ shared, ∀ vpn, area.Holds vpn ->
      (newUser trampolinePpn signalPpn).pageTable.findPte vpn = none := by
    intro area member vpn held
    exact vacant vpn (mem_flatMap.mpr ⟨area, present area member, slot_mem_slots held⟩)
  rcases shareAreas_shares nodup.1 free sharing with ⟨middle_areas, shares⟩
  have source := shares.source
  rw [grants_flatMap_keys] at source
  rcases push_eq_ok pushed with ⟨own, child_areas, maps⟩
  rw [middle_areas] at child_areas
  have shape_eq := shape_fromAnother last
  have slots_eq : last.fromAnother.slots = last.slots := congrArg Shape.slots shape_eq
  have own_shape : own.shape = last.shape := by
    rw [<- shape_eq]
    unfold shape
    rw [maps.start_eq, maps.stop_eq, maps.perm_eq, maps.stripped_eq, maps.file_eq]
  have own_entry : ∀ vpn, own.Holds vpn -> ∃ ppn, ppn ∈ frames /\
      own.frame? vpn = some (.inMemory ppn) /\ child.pageTable.findPte vpn = some ⟨ppn, last.mapPerm⟩ := by
    intro vpn held
    rw [Holds, maps.start_eq, maps.stop_eq] at held
    exact maps.mapped vpn (mem_pages.mpr held)
  have apart : ∀ area ∈ shared, ∀ vpn, slot vpn ∈ area.slots ->
      slot vpn ∉ last.fromAnother.slots := by
    intro area member vpn owned last_owned
    rw [slots_eq] at last_owned
    exact nodup.2.2 _ (mem_flatMap.mpr ⟨area, member, owned⟩) _ last_owned rfl
  refine ⟨shared, last, own, ⟨areas_eq, rfl, child_areas, own_shape, source, ?_, own_entry, ?_, small, ?_, ?_, ?_⟩⟩
  · intro area member vpn owned
    rw [maps.entry_eq vpn (apart area member vpn owned)]
    apply shares.shared
    exact mem_flatMap.mpr ⟨area, member, mem_map_of_mem owned⟩
  · intro vpn outside
    unfold MemorySet.slots at outside
    rw [child_areas, flatMap_append, flatMap_singleton, mem_append, not_or, maps.slots_eq] at outside
    rw [maps.entry_eq vpn outside.2]
    apply shares.other
    rw [grants_flatMap_keys]
    exact outside.1
  · by_cases inhabited : last.start < last.stop
    · right
      have starts := congrArg Shape.start own_shape
      have stops := congrArg Shape.stop own_shape
      have held : own.Holds last.start := ⟨le_of_eq starts, Nat.lt_of_lt_of_eq inhabited stops.symm⟩
      rcases own_entry last.start held with ⟨target, _, recorded, entry⟩
      refine ⟨sourcePpn, target, ?_, ?_, recorded⟩
      · rw [filled, if_pos inhabited, PageTable.translate, entry]
        rfl
      · rw [<- translate_of_revoked source, translated]
    · left
      rw [filled, if_neg inhabited]
  · exact consistent.of_translate rfl (translate_of_revoked source)
  · have middleConsistent := consistent.shared present nodup.1 middle_areas shares
    rw [<- show middle.areas = shared from middle_areas] at apart
    rw [<- show middle.areas = shared from middle_areas] at child_areas
    apply middleConsistent.push_of_apart _ child_areas maps
    intro old member vpn held
    exact apart old member vpn (slot_mem_slots held)

end MemorySet

end GCore.Mm
