import GCore.Mm.UserSpace

namespace GCore.Mm

open Library List MapPermission

/-!
# Areas that user requests must not touch

The trap contexts of the threads lie in areas without the permission `U`, in the same
list as the mappings of the program.  None of the three requests by which a program
changes its mappings looks at that permission, and none of them bounds the addresses it
is given.  A program that names the address of a trap context takes the area away from
the kernel, or makes it accessible to itself.

What protects the areas is the range of the request alone: as long as it has no page
that shares an entry with a guarded page, the guarded areas and their entries stay.
-/

namespace MemorySet

open MapArea

/-- The areas that the program has no access to, in order. -/
def guarded (areas : List MapArea) : List MapArea := areas.filter (fun area => !area.mapPerm.u)

variable {areas front back : List MapArea} {area : MapArea}

theorem mem_guarded : area ∈ guarded areas ↔ area ∈ areas /\ area.mapPerm.u = false := by
  unfold guarded
  rw [mem_filter, Bool.not_eq_true']

theorem guarded_append (front back : List MapArea) : guarded (front ++ back) = guarded front ++ guarded back :=
  filter_append ..

/-- Areas of the program may come and go. -/
theorem guarded_of_user (user : ∀ area ∈ areas, area.mapPerm.u = true) :
    guarded areas = [] := by
  apply filter_eq_nil_iff.mpr
  intro area member
  rw [user area member]
  exact Bool.false_ne_true

theorem guarded_insert (user : area.mapPerm.u = true) :
    guarded (front ++ area :: back) = guarded (front ++ back) := by
  have single : guarded [area] = [] := guarded_of_user (fun other member => mem_singleton.mp member ▸ user)
  rw [guarded_append, guarded_append, show area :: back = [area] ++ back from rfl, guarded_append, single, nil_append]

/-- Areas of the program may take each other's place. -/
theorem guarded_replace {pieces : List MapArea} (user : area.mapPerm.u = true)
    (users : ∀ piece ∈ pieces, piece.mapPerm.u = true) :
    guarded (front ++ pieces ++ back) = guarded (front ++ area :: back) := by
  rw [guarded_insert user, guarded_append, guarded_append, guarded_of_user users, append_nil, guarded_append]

/-- The guarded areas and the entries of their pages are the same. -/
structure Preserves (before after : MemorySet) : Prop where
  areas_eq : guarded after.areas = guarded before.areas
  entry_eq : ∀ area ∈ guarded before.areas, ∀ vpn, area.Holds vpn ->
    after.pageTable.findPte vpn = before.pageTable.findPte vpn

open Preserves

theorem Preserves.refl (set : MemorySet) : Preserves set set := ⟨rfl, fun _ _ _ _ => rfl⟩

theorem Preserves.trans {first second third : MemorySet} (earlier : Preserves first second)
    (later : Preserves second third) : Preserves first third := by
  refine ⟨later.areas_eq.trans earlier.areas_eq, ?_⟩
  intro area member vpn held
  rw [later.entry_eq area (earlier.areas_eq ▸ member) vpn held]
  exact earlier.entry_eq area member vpn held

/-- The range has no page that shares an entry with a guarded page.  A range that ends
before it starts may still cut the area that it starts in. -/
def Spares (startVpn endVpn : Nat) (areas : List MapArea) : Prop :=
  ∀ area ∈ guarded areas,
    (∀ vpn, startVpn <= vpn -> vpn < endVpn -> slot vpn ∉ area.slots) /\
    (endVpn <= startVpn -> ¬ Breaks startVpn endVpn area)

/-- Every guarded area has a page. -/
def Inhabited (areas : List MapArea) : Prop :=
  ∀ area ∈ guarded areas, area.start < area.stop

variable {startVpn endVpn : Nat} {table : PageTable}
  {result : Except Int Unit} {prot : MapPermission} {after : MapArea} {fate : Fate} {start vpn index : Nat}

variable (spares : Spares startVpn endVpn areas) (member : area ∈ guarded areas)

include spares member

theorem Spares.not_holds (held : area.Holds vpn) : ¬ (startVpn <= vpn /\ vpn < endVpn) := by
  rintro ⟨low, high⟩
  exact (spares area member).1 vpn low high (slot_mem_slots held)

theorem Spares.not_breaks : ¬ Breaks startVpn endVpn area := by
  intro breaks
  by_cases backward : endVpn <= startVpn
  · exact (spares area member).2 backward breaks
  · exact spares.not_holds member ⟨breaks.2.1.le, breaks.1.2⟩ ⟨le_rfl, not_le.mp backward⟩

variable {afterTable : PageTable} {set next : MemorySet} {len : Nat}

/-- Clearing pages of the range does not reach a guarded page. -/
theorem Spares.findPte_of_clears {first last : Nat}
    (inside : first < last -> startVpn <= first /\ last <= endVpn) (clears : Clears first last table afterTable)
    (held : area.Holds vpn) :
    afterTable.findPte vpn = table.findPte vpn := by
  rw [clears vpn, if_neg]
  intro shared
  rcases mem_map.mp shared with ⟨page, within, same⟩
  have bounds := mem_pages.mp within
  rcases inside (bounds.1.trans_lt bounds.2) with ⟨low, high⟩
  apply (spares area member).1 page (low.trans bounds.1) (bounds.2.trans_le high)
  rw [same]
  exact slot_mem_slots held

/-! ## Unmapping -/

variable (cuts : Cuts startVpn endVpn area table fate after afterTable)

omit spares

include cuts

/-- A guarded area on the way through the list. -/
theorem Cuts.eq_of_guarded (spares : Spares startVpn endVpn areas) (inhabited : area.start < area.stop) :
    fate ≠ .deleted /\ after = area /\ afterTable = table := by
  cases cuts with
  | untouched apart => exact ⟨nofun, rfl, rfl⟩
  | broken breaks => cases spares.not_breaks member breaks
  | deleted overlaps low high clears =>
    cases spares.not_holds member ⟨le_rfl, inhabited⟩ ⟨low, inhabited.trans_le high⟩
  | lower overlaps low high part file_eq clears still =>
    by_cases touching : endVpn = area.start
    · exact ⟨nofun, still touching⟩
    · have reached : area.start < endVpn := lt_of_le_of_ne overlaps.1 (Ne.symm touching)
      cases spares.not_holds member ⟨le_rfl, inhabited⟩ ⟨low, reached⟩
  | upper overlaps low high part file_eq clears =>
    have within : area.Holds startVpn := ⟨low.le, overlaps.2⟩
    cases spares.not_holds member within ⟨le_rfl, overlaps.2.trans_le high⟩

omit member

/-- An area of the program on the way through the list. -/
theorem Cuts.of_user (user : area.mapPerm.u = true) :
    guarded (survivors [(fate, after)]) = [] /\ ∃ first last,
      (first < last -> startVpn <= first /\ last <= endVpn) /\ Clears first last table afterTable := by
  have kept : ∀ piece : MapArea, piece.mapPerm = area.mapPerm -> guarded [piece] = [] := by
    intro piece perm_eq
    apply guarded_of_user
    intro other member
    rw [mem_singleton.mp member, perm_eq, user]
  cases cuts with
  | untouched apart | broken breaks => exact ⟨kept area rfl, 0, 0, nofun, Clears.refl table (Nat.le_refl 0)⟩
  | deleted overlaps low high clears => exact ⟨rfl, _, _, fun _ => ⟨low, high⟩, clears⟩
  | lower overlaps low high part file_eq clears still =>
    exact ⟨kept after part.perm_eq, _, _, fun _ => ⟨low, le_rfl⟩, clears⟩
  | upper overlaps low high part file_eq clears =>
    exact ⟨kept after part.perm_eq, _, _, fun _ => ⟨le_rfl, high⟩, clears⟩

omit cuts

include spares in
/-- The walk over some of the areas. -/
theorem Spares.munmapAreas {rest : List MapArea}
    (inhabited : Inhabited areas) (within : ∀ area ∈ rest, area ∈ areas) (table : PageTable) :
    guarded (survivors (munmapAreas startVpn endVpn rest table).1) = guarded rest /\
      ∀ area ∈ guarded areas, ∀ vpn, area.Holds vpn ->
        (munmapAreas startVpn endVpn rest table).2.findPte vpn = table.findPte vpn := by
  induction rest generalizing table with
  | nil => exact ⟨rfl, fun _ _ _ _ => rfl⟩
  | cons head tail ih =>
    have cuts := munmapArea_cuts startVpn endVpn head table
    have others := ih (fun area member => within area (mem_cons_of_mem _ member))
      (munmapArea startVpn endVpn head table).2.2
    have split : guarded (survivors (MemorySet.munmapAreas startVpn endVpn (head :: tail) table).1) =
        guarded (survivors [((munmapArea startVpn endVpn head table).1,
          (munmapArea startVpn endVpn head table).2.1)]) ++ guarded tail := by
      rw [<- others.1, <- guarded_append, <- survivors_cons]
      rfl
    rw [split, show head :: tail = [head] ++ tail from rfl, guarded_append]
    cases user : head.mapPerm.u with
    | false =>
      have member : head ∈ guarded areas := mem_guarded.mpr ⟨within head mem_cons_self, user⟩
      rcases cuts.eq_of_guarded member spares (inhabited head member) with ⟨kept, same, table_eq⟩
      constructor
      · rw [same, survivors, filter_cons_of_pos (by simpa using kept)]
        rfl
      · intro area present vpn held
        exact (others.2 area present vpn held).trans (by rw [table_eq])
    | true =>
      rcases cuts.of_user user with ⟨gone, _, _, inside, clears⟩
      constructor
      · rw [gone, guarded_of_user (fun other member => mem_singleton.mp member ▸ user)]
      · intro area present vpn held
        exact (others.2 area present vpn held).trans (spares.findPte_of_clears present inside clears held)

/-- A range that ends before it starts deletes nothing. -/
theorem survivors_of_backward (backward : endVpn <= startVpn) (areas : List MapArea) (table : PageTable) :
    survivors (munmapAreas startVpn endVpn areas table).1 =
      (munmapAreas startVpn endVpn areas table).1.map Prod.snd := by
  unfold survivors
  rw [filter_eq_self.mpr]
  intro entry member
  rcases munmapAreas_cuts member with ⟨_, _, _, _, cuts⟩
  apply decide_eq_true
  intro deleted
  rw [deleted] at cuts
  cases cuts with
  | deleted overlaps low high _ =>
    have ahead := overlaps.2
    omega

include spares in
/-- The area at the remembered position, be it the right one or not, is split without
harm to the guarded areas. -/
theorem Spares.breakApart {kept : List MapArea} {found : MapArea} (same : guarded kept = guarded areas)
    (here : kept[index]? = some found) (outside : found.mapPerm.u = false -> ¬ found.Holds startVpn) :
    Preserves ⟨table, kept⟩ (breakApart startVpn endVpn table kept index found) := by
  unfold MemorySet.breakApart
  have kept_eq := areas_split here
  have cleared : Clears startVpn endVpn table (unmapAll table (pages startVpn endVpn)) := findPte_unmapAll _ table
  rcases found.intoThree_cases startVpn endVpn with ⟨first, cut, perm_eq, unchanged⟩ |
    ⟨first, second, third, cut, firstPerm, thirdPerm, start_eq, stop_eq, held⟩
  · rw [cut]
    constructor
    · change guarded (kept.take index ++ [first] ++ kept.drop (index + 1)) = guarded kept
      cases user : found.mapPerm.u with
      | false =>
        rw [unchanged (outside user), append_assoc, singleton_append, <- kept_eq]
      | true =>
        have users : ∀ piece ∈ [first], piece.mapPerm.u = true := by
          intro piece member
          rw [mem_singleton.mp member, perm_eq, user]
        rw [guarded_replace user users, <- kept_eq]
    · intro area member vpn held
      exact spares.findPte_of_clears (same ▸ member) (fun _ => ⟨le_rfl, le_rfl⟩) cleared held
  · rw [cut]
    have clears := second.unmap_clears table
    rw [start_eq, stop_eq] at clears
    constructor
    · change guarded (kept.take index ++ [first, third] ++ kept.drop (index + 1)) = guarded kept
      cases user : found.mapPerm.u with
      | false => cases outside user held
      | true =>
        have users : ∀ piece ∈ [first, third], piece.mapPerm.u = true := by
          intro piece member
          rcases mem_cons.mp member with rfl | rest
          · rw [firstPerm, user]
          · rw [mem_singleton.mp rest, thirdPerm, user]
        rw [guarded_replace user users, <- kept_eq]
    · intro area member vpn held
      exact spares.findPte_of_clears (same ▸ member) (fun _ => ⟨le_rfl, le_rfl⟩) clears held

theorem Preserves.munmap
    (inhabited : Inhabited set.areas) (spares : Spares (floor start) (endPage start len) set.areas)
    (done : set.munmap start len = some (result, next)) : Preserves set next := by
  by_cases aligned : pageOffset start = 0
  · rw [munmap_eq aligned] at done
    have walked := spares.munmapAreas inhabited (fun _ member => member) set.pageTable
    generalize walk_eq : munmapAreas (floor start) (endPage start len) set.areas set.pageTable = walk at done walked
    have passed : Preserves set ⟨walk.2, survivors walk.1⟩ := ⟨walked.1, walked.2⟩
    cases broken : breakApartIdx walk.1 with
    | none =>
      simp only [broken, Option.some.injEq, Prod.mk.injEq] at done
      rw [<- done.2]
      exact passed
    | some index =>
      cases here : (survivors walk.1)[index]? with
      | none => simp [broken, here] at done
      | some found =>
        simp only [broken, here, Option.some.injEq, Prod.mk.injEq] at done
        rw [<- done.2]
        refine passed.trans (spares.breakApart walked.1 here ?_)
        intro kernel held
        have member : found ∈ guarded set.areas := by
          rw [<- walked.1]
          exact mem_guarded.mpr ⟨mem_of_getElem? here, kernel⟩
        by_cases backward : endPage start len <= floor start
        · -- nothing was deleted, so the position is that of the marked area
          rw [<- walk_eq, survivors_of_backward backward, walk_eq] at here
          rcases breakApartIdx_eq_some broken with ⟨marked, entry⟩
          rw [getElem?_map, entry] at here
          cases here
          have present : (Fate.broken, marked) ∈ walk.1 := mem_of_getElem? entry
          rw [<- walk_eq] at present
          rcases munmapAreas_cuts present with ⟨area, _, _, _, cuts⟩
          cases cuts with
          | broken breaks => exact spares.not_breaks member breaks
        · exact spares.not_holds member held ⟨le_rfl, not_le.mp backward⟩
  · rw [MemorySet.munmap, if_pos aligned] at done
    cases done
    exact Preserves.refl set

/-! ## The other requests -/

theorem Spares.mprotectSegment {segStart segEnd : Nat}
    (spares : Spares startVpn endVpn set.areas) (user : prot.u = true) (found : set.areas[index]? = some area)
    (held : area.Holds segStart) (low : startVpn <= segStart) (between : segStart < segEnd)
    (inside : segEnd <= area.stop) (high : segEnd <= endVpn) :
    Preserves set (mprotectSegment set index area segStart segEnd prot) := by
  rcases mprotectSegment_tiles set index prot held.1 between inside with
    ⟨flags, _, pieces, tiles, segment_eq⟩
  -- the area has a page of the range, so it is one of the program
  have mine : area.mapPerm.u = true := by
    cases kernel : area.mapPerm.u with
    | true => rfl
    | false =>
      have member := mem_guarded.mpr ⟨mem_of_getElem? found, kernel⟩
      cases spares.not_holds member held ⟨low, between.trans_le high⟩
  have users : ∀ piece ∈ pieces, piece.mapPerm.u = true := by
    intro piece member
    rcases tiles.parts piece member with ⟨_, _, _, stretch, _, ⟨rfl, _⟩ | ⟨rfl, _⟩⟩
    · rw [stretch.perm_eq, mine]
    · exact user
  rw [segment_eq]
  constructor
  · change guarded (set.areas.take index ++ pieces ++ set.areas.drop (index + 1)) = guarded set.areas
    rw [guarded_replace mine users, <- areas_split found]
  · intro other member vpn otherHeld
    have missed : slot vpn ∉ (pages segStart segEnd).map slot := by
      intro shared
      rcases mem_map.mp shared with ⟨page, within, same⟩
      have bounds := mem_pages.mp within
      apply (spares other member).1 page (low.trans bounds.1) (bounds.2.trans_le high)
      rw [same]
      exact slot_mem_slots otherHeld
    exact (findPte_setFlagsAll _ flags set.pageTable vpn).trans (if_neg missed)

theorem Preserves.mprotect {addr prot : Nat} (spares : Spares (floor addr) (endPage addr len) set.areas)
    (done : set.mprotect addr len prot = some (result, next)) : Preserves set next := by
  refine (@mprotect_invariant (fun curVpn next => floor addr <= curVpn /\ Preserves set next) _ _ _ _ _ _ done
    ⟨le_rfl, Preserves.refl set⟩ ?_).elim fun _ kept => kept.1.2
  rintro perm accepted _ current index area segStart segEnd ⟨low, kept⟩ found held between inside high
  have still : Spares (floor addr) (endPage addr len) current.areas := by
    intro other member
    exact spares other (kept.areas_eq ▸ member)
  exact ⟨low.trans between.le, kept.trans
    (still.mprotectSegment (fromProt_u accepted) found held low between inside high)⟩

theorem Preserves.insertArea (user : area.mapPerm.u = true) :
    Preserves set ⟨set.pageTable, insertArea set.areas area⟩ := by
  rcases insertArea_eq set.areas area with ⟨_, _, areas_eq, inserted⟩
  refine ⟨?_, fun _ _ _ _ => rfl⟩
  rw [inserted, areas_eq, guarded_insert user]

theorem Preserves.mmap {flags : MapFlags}
    {file : Except Int MapFile} {result : Int} (inhabited : Inhabited set.areas) (user : prot.u = true)
    (spares : flags.fixed = true -> Spares (floor start) (endPage start (mmapLen len)) set.areas)
    (done : set.mmap start len prot flags file = some (result, next)) : Preserves set next := by
  cases mmap_mmaps done with
  | nothing => exact Preserves.refl set
  | unmapped aligned fixed removed => exact munmap inhabited (spares fixed) removed
  | fixed aligned fixed removed blank =>
    exact (munmap inhabited (spares fixed) removed).trans (insertArea (blank.perm_eq ▸ user))
  | placed aligned free chosen blank => exact insertArea (blank.perm_eq ▸ user)
  | lengthened aligned free chosen areas_eq last_eq perm_eq anonymous grown =>
    refine ⟨?_, fun _ _ _ _ => rfl⟩
    rename_i va front back area longer
    have mine : area.mapPerm.u = true := perm_eq ▸ user
    have users : ∀ piece ∈ [longer], piece.mapPerm.u = true := by
      intro piece member
      rw [mem_singleton.mp member, grown.perm_eq, mine]
    have replaced : guarded (front ++ [longer] ++ back) = guarded (front ++ area :: back) :=
      guarded_replace mine users
    rw [append_assoc, singleton_append] at replaced
    rw [areas_eq]
    exact replaced

/-! ## Runs -/

/-- The requests by which a program changes its mappings, with the arguments of the
system calls. -/
inductive UserRequest where
  | mmap (start len prot : Nat) (flags : MapFlags) (file : Except Int MapFile)
  | munmap (start len : Nat)
  | mprotect (addr len prot : Nat)

/-- The request as the system call makes it; bits of `prot` that mean nothing panic. -/
def UserRequest.toRequest : UserRequest -> Option Request
  | .mmap start len prot flags file =>
    (fromProt prot).map (fun perm => .mmap start len perm flags file)
  | .munmap start len => some (.munmap start len)
  | .mprotect addr len prot => some (.mprotect addr len prot)

def UserStep (before : MemorySet) (request : UserRequest) (after : MemorySet) : Prop :=
  ∃ inner, request.toRequest = some inner /\ Step before inner after

/-- The request names no address of a guarded page. -/
def SparesGuarded (set : MemorySet) : UserRequest -> Prop
  | .mmap start len _ flags _ =>
    flags.fixed = true -> Spares (floor start) (endPage start (mmapLen len)) set.areas
  | .munmap start len => Spares (floor start) (endPage start len) set.areas
  | .mprotect addr len _ => Spares (floor addr) (endPage addr len) set.areas

theorem Preserves.step {before next : MemorySet} {request : UserRequest} (inhabited : Inhabited before.areas)
    (spares : SparesGuarded before request) (taken : UserStep before request next) : Preserves before next := by
  rcases taken with ⟨_, translated, stepped⟩
  cases request with
  | mmap start len prot flags file =>
    rcases Option.map_eq_some_iff.mp translated with ⟨_, accepted, rfl⟩
    rcases orFailed_eq_ok stepped with ⟨answer, done⟩
    exact Preserves.mmap inhabited (fromProt_u accepted) spares done
  | munmap start len =>
    cases translated
    rcases orFailed_eq_ok stepped with ⟨answer, done⟩
    exact munmap inhabited spares done
  | mprotect addr len prot =>
    cases translated
    rcases orFailed_eq_ok stepped with ⟨answer, done⟩
    exact mprotect spares done

/-- In every run of requests that name no address of a guarded page, the guarded areas
and the entries of their pages stay as they were. -/
theorem guarded_kept_in_admitted_run {start state : MemorySet} (inhabited : Inhabited start.areas)
    (run : Reached (Guarded SparesGuarded UserStep) start state) :
    guarded state.areas = guarded start.areas /\
      ∀ area ∈ guarded start.areas, ∀ vpn, area.Holds vpn ->
        state.pageTable.findPte vpn = start.pageTable.findPte vpn := by
  have kept : Preserves start state := by
    apply run.invariant (Preserves.refl start)
    intro before request next soFar taken
    have still : Inhabited before.areas := fun area member => inhabited area (soFar.areas_eq ▸ member)
    exact soFar.trans (Preserves.step still taken.1 taken.2)
  exact ⟨kept.areas_eq, kept.entry_eq⟩

theorem guarded_kept_after_unmapping_text :
    ∃ start state, loadSmallProgram = .ok start /\ (guarded start.areas).length = 1 /\
      Reached (Guarded SparesGuarded UserStep) start state /\ guarded state.areas = guarded start.areas /\
      ∀ area ∈ guarded start.areas, ∀ vpn, area.Holds vpn ->
        state.pageTable.findPte vpn = start.pageTable.findPte vpn := by
  have running : ∃ start state, loadSmallProgram = .ok start /\
      start.exec (.munmap 0x10000 0x1000) = .ok state /\ (guarded start.areas).length = 1 /\
      (∀ area ∈ guarded start.areas, area.start < area.stop) /\
      ∀ area ∈ guarded start.areas, slot 0x10 ∉ area.slots :=
    ⟨_, _, rfl, rfl, rfl, of_decide_eq_true rfl, of_decide_eq_true rfl⟩
  rcases running with ⟨start, state, loaded, unmapped, one, inhabited, apart⟩
  have spares : SparesGuarded start (.munmap 0x10000 0x1000) := by
    intro area member
    have first : floor 0x10000 = 0x10 := rfl
    have last : endPage 0x10000 0x1000 = 0x11 := rfl
    refine ⟨fun vpn low high => ?_, fun backward => absurd backward (of_decide_eq_true rfl)⟩
    rw [show vpn = 0x10 by omega]
    exact apart area member
  have run : Reached (Guarded SparesGuarded UserStep) start state :=
    Reached.refl.next ⟨spares, .munmap 0x10000 0x1000, rfl, unmapped⟩
  exact ⟨start, state, loaded, one, run, guarded_kept_in_admitted_run inhabited run⟩

/-- `mprotect` on the page of the trap context gives the area, and with it the entry, to
the program. -/
theorem mprotect_opens_trap_context :
    ¬ ∀ start state, Inhabited start.areas -> Reached UserStep start state ->
      guarded state.areas = guarded start.areas /\
        ∀ area ∈ guarded start.areas, ∀ vpn, area.Holds vpn ->
          state.pageTable.findPte vpn = start.pageTable.findPte vpn := by
  intro claim
  have failing : ∃ start state, loadSmallProgram = .ok start /\
      start.exec (.mprotect (trapCxBottomFromTid 1) 0x1000 3) = .ok state /\
      (∀ area ∈ guarded start.areas, area.start < area.stop) /\
      (guarded start.areas).length = 1 /\ guarded state.areas = [] /\
      (state.pageTable.findPte (floor (trapCxBottomFromTid 1))).map (fun pte => pte.perm.u) = some true :=
    ⟨_, _, rfl, rfl, of_decide_eq_true rfl, rfl, rfl, rfl⟩
  rcases failing with ⟨start, state, _, opened, inhabited, one, none_left, _⟩
  have taken : UserStep start (.mprotect (trapCxBottomFromTid 1) 0x1000 3) state := ⟨_, rfl, opened⟩
  have run : Reached UserStep start state := Reached.refl.next taken
  have kept := (claim start state inhabited run).1
  rw [<- kept, none_left] at one
  cases one

end MemorySet

end GCore.Mm
