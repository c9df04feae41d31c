import GCore.Library.Run
import GCore.Mm.Bookkeeping

namespace GCore.Mm

open Library List PageTable

/-!
# Runs of a user space

A space starts out with a frame and an entry for every page of its areas.  From there it
serves requests of the program, page faults and reclaim passes in any order.  The page
table and the areas agree in every state that is reached by admitted requests, and so
the two panics that would betray a disagreement never happen.

The conditions are on `munmap` and `mmap` alone.  Without them the agreement is lost:
unmapping the middle of a file-backed mapping clears the entry of a page and leaves its
record, and the next access to the page panics.
-/

namespace MemorySet

open MapArea

variable {table : PageTable} {area after : MapArea}

/-! ## Fresh spaces -/

/-- A space as `from_elf` builds it: the trampolines, and areas that are pushed with a
frame for each of their pages. -/
inductive Fresh : MemorySet -> Prop
  | bare (trampolinePpn signalPpn : Nat) : Fresh (newUser trampolinePpn signalPpn)
  | push {set next : MemorySet} {area : MapArea} {frames : List Nat} (fresh : Fresh set)
      (pushed : set.push area frames = .ok next) : Fresh next

/-- What mapping pages one after another has done. -/
structure Maps (vpns frames : List Nat) (area : MapArea) (table : PageTable) (after : MapArea)
    (afterTable : PageTable) : Prop where
  start_eq : after.start = area.start
  stop_eq : after.stop = area.stop
  perm_eq : after.mapPerm = area.mapPerm
  stripped_eq : after.writableStripped = area.writableStripped
  file_eq : after.mapFile = area.mapFile
  nodup : (vpns.map slot).Nodup
  unmapped : ∀ vpn ∈ vpns, table.findPte vpn = none
  mapped : ∀ vpn ∈ vpns, ∃ ppn, ppn ∈ frames /\ after.frame? vpn = some (.inMemory ppn) /\
    afterTable.findPte vpn = some ⟨ppn, area.mapPerm⟩
  frame_eq : ∀ vpn ∉ vpns, after.frame? vpn = area.frame? vpn
  entry_eq : ∀ vpn, slot vpn ∉ vpns.map slot -> afterTable.findPte vpn = table.findPte vpn

variable {afterTable : PageTable} {frames : List Nat} {panic : Panic} {addr : Nat}

theorem mapPages_cons_eq_ok {first : Nat} {rest : List Nat} {result : MapArea × PageTable}
    (done : mapPages (first :: rest) frames area table = .ok result) :
    ∃ ppn later middle, frames = ppn :: later /\ area.mapFrame table first ppn = .ok middle /\
      mapPages rest later middle.1 middle.2 = .ok result := by
  unfold mapPages at done
  split at done
  · cases done
  · cases frames with
    | nil => cases done
    | cons ppn later =>
      cases one : area.mapFrame table first ppn with
      | error panic => simp [one] at done
      | ok middle =>
        simp only [one] at done
        exact ⟨ppn, later, middle, rfl, one, done⟩

theorem mapPages_maps {vpns : List Nat} (inside : ∀ vpn ∈ vpns, area.start <= vpn)
    (done : mapPages vpns frames area table = .ok (after, afterTable)) :
    Maps vpns frames area table after afterTable := by
  induction vpns generalizing frames area table with
  | nil =>
    cases done
    exact ⟨rfl, rfl, rfl, rfl, rfl, nodup_nil, nofun, nofun, fun _ _ => rfl, fun _ _ => rfl⟩
  | cons first rest ih =>
    rcases mapPages_cons_eq_ok done with ⟨ppn, _, ⟨_, _⟩, rfl, one, done⟩
    rcases mapFrame_eq_ok (inside first mem_cons_self) one with ⟨_, free, records, rfl⟩
    have others := ih (fun vpn member => by
      rw [records.start_eq]
      exact inside vpn (mem_cons_of_mem _ member)) done
    -- a later page that shares the entry would have been found mapped
    have whole := (unmapped_cons_iff _ free).mp ⟨others.nodup, others.unmapped⟩
    have apart : slot first ∉ rest.map slot := (nodup_cons.mp whole.1).1
    refine ⟨others.start_eq.trans records.start_eq, others.stop_eq.trans records.stop_eq,
      others.perm_eq.trans records.perm_eq, others.stripped_eq.trans records.stripped_eq,
      others.file_eq.trans records.file_eq, whole.1, whole.2, ?_, ?_, ?_⟩
    · intro vpn member
      rcases mem_cons.mp member with rfl | later
      · refine ⟨ppn, mem_cons_self, ?_, ?_⟩
        · rw [others.frame_eq vpn (fun again => apart (mem_map_of_mem again)), records.frame_same]
        · rw [others.entry_eq vpn apart, findPte_set_same]
      · rcases others.mapped vpn later with ⟨given, present, recorded, entry⟩
        rw [records.perm_eq] at entry
        exact ⟨given, mem_cons_of_mem _ present, recorded, entry⟩
    · intro vpn absent
      rw [mem_cons, not_or] at absent
      rw [others.frame_eq vpn absent.2, records.frame_other absent.1]
    · intro vpn absent
      rw [map_cons, mem_cons, not_or] at absent
      rw [others.entry_eq vpn absent.2, findPte_set_of_ne absent.1]

variable {set next : MemorySet} {vpn index : Nat} {env : FaultEnv} {result : Except MemoryError Nat}
  {fill : Fill}

theorem push_eq_ok (pushed : set.push area frames = .ok next) :
    ∃ after, next.areas = set.areas ++ [after] /\
      Maps (pages area.start area.stop) frames area set.pageTable after next.pageTable := by
  unfold MemorySet.push at pushed
  cases done : mapPages (pages area.start area.stop) frames area set.pageTable with
  | error panic => simp [done] at pushed
  | ok pair =>
    rcases pair with ⟨after, _⟩
    simp only [done, Except.ok.injEq] at pushed
    subst pushed
    exact ⟨after, rfl, mapPages_maps (fun vpn member => (mem_pages.mp member).1) done⟩

section Maps

variable {frames : List Nat} {afterTable : PageTable}
  (maps : Maps (pages area.start area.stop) frames area table after afterTable)

include maps

theorem Maps.slots_eq : after.slots = area.slots := by
  unfold slots
  rw [maps.start_eq, maps.stop_eq]

theorem Maps.sound : Sound afterTable after := by
  have resident : ∀ vpn frame, after.frame? vpn = some frame ->
      ∃ ppn, frame = .inMemory ppn /\ afterTable.findPte vpn = some ⟨ppn, area.mapPerm⟩ := by
    intro vpn frame record
    have held := holds_of_frame? record
    rw [Holds, maps.start_eq, maps.stop_eq] at held
    rcases maps.mapped vpn (mem_pages.mpr held) with ⟨ppn, _, recorded, entry⟩
    rw [recorded] at record
    exact ⟨ppn, (Option.some.inj record).symm, entry⟩
  constructor
  · intro vpn frame record
    rcases resident vpn frame record with ⟨ppn, rfl, entry⟩
    rw [PageTable.translate, entry]
    rfl
  · intro _ vpn frame record
    rcases resident vpn frame record with ⟨ppn, rfl, _⟩
    exact .inr ⟨ppn, rfl⟩

end Maps

/-- An area may be pushed behind areas that it shares no entry with. -/
theorem Consistent.push_of_apart (consistent : Consistent set)
    (apart : ∀ old ∈ set.areas, ∀ vpn, old.Holds vpn -> slot vpn ∉ area.slots)
    (areas_eq : next.areas = set.areas ++ [after])
    (maps : Maps (pages area.start area.stop) frames area set.pageTable after next.pageTable) : Consistent next := by
  have kept : bookkeeping.Kept next.pageTable set.areas := by
    apply Ownership.Kept.congr consistent
    intro old member key owned
    rcases mem_slots.mp owned with ⟨vpn, held, rfl⟩
    exact maps.entry_eq vpn (apart old member vpn held)
  unfold Consistent
  rw [areas_eq]
  refine Ownership.Kept.insert kept ?_ ?_ maps.sound perm_append_comm
  · change after.slots.Nodup
    rw [maps.slots_eq]
    exact maps.nodup
  · intro key member owned
    change key ∈ after.slots at member
    rw [maps.slots_eq] at member
    rcases mem_flatMap.mp owned with ⟨old, present, shared⟩
    rcases mem_slots.mp shared with ⟨vpn, held, rfl⟩
    exact apart old present vpn held member

/-- Every page of every area has an entry. -/
def Populated (set : MemorySet) : Prop :=
  ∀ area ∈ set.areas, ∀ vpn, area.Holds vpn -> set.pageTable.findPte vpn ≠ none

theorem Consistent.push (consistent : Consistent set)
    (populated : Populated set) (pushed : set.push area frames = .ok next) :
    Consistent next /\ Populated next := by
  rcases push_eq_ok pushed with ⟨_, areas_eq, maps⟩
  -- the pages of the older areas were mapped, those of the new one were not
  have apart : ∀ old ∈ set.areas, ∀ vpn, old.Holds vpn -> slot vpn ∉ area.slots := by
    intro old member vpn held shared
    rcases mem_slots.mp shared with ⟨page, within, same⟩
    apply populated old member vpn held
    rw [<- set.pageTable.findPte_of_slot same]
    exact maps.unmapped page (mem_pages.mpr within)
  refine ⟨consistent.push_of_apart apart areas_eq maps, ?_⟩
  intro other member vpn held
  rw [areas_eq] at member
  rcases mem_append.mp member with old | new
  · rw [maps.entry_eq vpn (apart other old vpn held)]
    exact populated other old vpn held
  · rw [mem_singleton.mp new, Holds, maps.start_eq, maps.stop_eq] at held
    rcases maps.mapped vpn (mem_pages.mpr held) with ⟨_, _, _, entry⟩
    rw [entry]
    exact Option.some_ne_none _

theorem Fresh.consistent (fresh : Fresh set) : Consistent set /\ Populated set := by
  induction fresh with
  | bare _ _ => exact ⟨⟨nodup_nil, fun _ member => nomatch member⟩, fun _ member => nomatch member⟩
  | push _ pushed ih => exact ih.1.push ih.2 pushed

/-! ## Requests -/

/-- What a space is asked to do, with the answers of its surroundings. -/
inductive Request where
  | mmap (start len : Nat) (prot : MapPermission) (flags : MapFlags) (file : Except Int MapFile)
  | munmap (start len : Nat)
  | mprotect (addr len prot : Nat)
  | doPageFault (addr : Nat) (env : FaultEnv)
  /-- on a page of the area at a position -/
  | copyOnWrite (index vpn : Nat) (env : FaultEnv)
  | doShallowClean (envs : Nat -> Nat -> ReclaimEnv)
  | doDeepClean (envs : Nat -> Nat -> ReclaimEnv)

/-- A panic without a kind of its own. -/
def orFailed {Answer : Type} : Option (Answer × MemorySet) -> Except Panic MemorySet
  | some (_, set) => .ok set
  | none => .error .failed

/-- The space after a request. -/
def exec (set : MemorySet) : Request -> Except Panic MemorySet
  | .mmap start len prot flags file => orFailed (set.mmap start len prot flags file)
  | .munmap start len => orFailed (set.munmap start len)
  | .mprotect addr len prot => orFailed (set.mprotect addr len prot)
  | .doPageFault addr env => (set.doPageFault addr env).map (fun outcome => outcome.2.1)
  | .copyOnWrite index vpn env =>
    match set.areas[index]? with
    | none => .error .failed
    | some area =>
      -- a page outside the area is an index out of range
      if area.Holds vpn then
        (area.copyOnWrite set.pageTable vpn env).map
          (fun outcome => ⟨outcome.2.2.1, set.areas.set index outcome.2.1⟩)
      else .error .failed
  | .doShallowClean envs => .ok (set.doShallowClean envs).2.1
  | .doDeepClean envs => .ok (set.doDeepClean envs).2.1

def Step (before : MemorySet) (request : Request) (after : MemorySet) : Prop := before.exec request = .ok after

/-- The requests that keep the agreement. -/
def Admits (set : MemorySet) : Request -> Prop
  | .mmap start len _ flags _ => AdmitsMmap set start len flags
  | .munmap start len => AdmitsMunmap set start len
  | _ => True

/-- A page of an area has an entry exactly if a frame in memory is recorded for it, and
the entry leads to that frame. -/
def Agrees (set : MemorySet) : Prop :=
  ∀ area ∈ set.areas, ∀ vpn, area.Holds vpn -> ∀ ppn,
    (∃ pte, set.pageTable.findPte vpn = some pte /\ pte.ppn = ppn) ↔
      area.frame? vpn = some (.inMemory ppn)

/-- No request runs into the `unreachable!()` of the handler or into a page that has a
frame already. -/
def Reliable (set : MemorySet) : Prop :=
  ∀ request, set.exec request ≠ .error .unreachableInMemory /\ set.exec request ≠ .error .alreadyAllocated

theorem orFailed_eq_ok {Answer : Type} {outcome : Option (Answer × MemorySet)}
    (done : orFailed outcome = .ok next) : ∃ answer, outcome = some (answer, next) := by
  cases outcome with
  | none => cases done
  | some pair =>
    cases done
    exact ⟨pair.1, rfl⟩

theorem faultArea_holds {areas : List MapArea} (found : faultArea areas vpn = some index) :
    ∃ area, areas[index]? = some area /\ area.mapPerm.u = true /\ area.Holds vpn := by
  rcases findIdx?_eq_some_iff_getElem.mp found with ⟨inside, chosen, _⟩
  refine ⟨areas[index], getElem?_eq_getElem inside, ?_⟩
  simp only [Bool.and_eq_true, decide_eq_true_eq] at chosen
  exact ⟨chosen.1.2, chosen.2⟩

theorem Sound.backed (sound : Sound table area) (held : area.Holds vpn) : Backed area table vpn := by
  intro pte entry
  rcases held.exists_frame with ⟨frame, record⟩
  have translated : frame.ppn? = some pte.ppn := by
    rw [<- sound.agrees vpn frame record, PageTable.translate, entry]
    rfl
  cases frame with
  | inMemory ppn =>
    cases translated
    exact record
  | compressed id | swappedOut id | unallocated => cases translated

/-- Put an area back at its position. -/
theorem Consistent.resolved_at (consistent : Consistent set) (found : set.areas[index]? = some area)
    (resolved : Resolved area set.pageTable vpn env result after afterTable fill) :
    Consistent ⟨afterTable, set.areas.set index after⟩ := by
  have split : Consistent ⟨set.pageTable, set.areas.take index ++ area :: set.areas.drop (index + 1)⟩ := by
    rw [<- areas_split found]
    exact consistent
  have updated := split.resolved resolved
  rw [List.set_eq_take_append_cons_drop, if_pos (List.getElem?_eq_some_iff.mp found).1]
  exact updated

theorem Consistent.doPageFault (consistent : Consistent set)
    (done : set.doPageFault addr env = .ok (result, next, fill)) : Consistent next := by
  unfold MemorySet.doPageFault at done
  cases chosen : faultArea set.areas (floor addr) with
  | none =>
    simp only [chosen, Except.ok.injEq, Prod.mk.injEq] at done
    exact done.2.1 ▸ consistent
  | some index =>
    rcases faultArea_holds chosen with ⟨area, found, _, held⟩
    cases handled : faultIn area set.pageTable (floor addr) env with
    | error panic => simp [chosen, found, handled] at done
    | ok outcome =>
      simp only [chosen, found, handled, Except.ok.injEq, Prod.mk.injEq] at done
      rw [<- done.2.1]
      have sound := consistent.areaSound (mem_of_getElem? found)
      exact consistent.resolved_at found (faultIn_resolved held (Sound.backed sound held) handled)

theorem Consistent.copyOnWrite (consistent : Consistent set)
    (found : set.areas[index]? = some area) (held : area.Holds vpn)
    (done : area.copyOnWrite set.pageTable vpn env = .ok (result, after, afterTable, fill)) :
    Consistent ⟨afterTable, set.areas.set index after⟩ := by
  have sound := consistent.areaSound (mem_of_getElem? found)
  rcases held.exists_frame with ⟨frame, record⟩
  cases mapped : set.pageTable.isMapped vpn with
  | true => exact consistent.resolved_at found (copyOnWrite_resolved (Sound.backed sound held) mapped done)
  | false =>
    have absent : ∀ ppn, frame ≠ .inMemory ppn := by
      rintro ppn rfl
      have translated := sound.agrees vpn (.inMemory ppn) record
      rw [PageTable.translate, (set.pageTable.isMapped_eq_false_iff vpn).mp mapped] at translated
      cases translated
    rcases copyOnWrite_of_absent record absent with ⟨_, refused, records⟩
    rw [refused] at done
    cases done
    have resolved : Resolved area set.pageTable vpn env (.error .notMapped) after set.pageTable .none :=
      .refused record records
    exact consistent.resolved_at found resolved

theorem Consistent.step {before next : MemorySet} {request : Request} (consistent : Consistent before)
    (admitted : Admits before request) (taken : Step before request next) : Consistent next := by
  unfold Step at taken
  cases request with
  | mmap start len prot flags file =>
    rcases orFailed_eq_ok taken with ⟨answer, done⟩
    exact consistent.mmap admitted done
  | munmap start len =>
    rcases orFailed_eq_ok taken with ⟨answer, done⟩
    exact consistent.munmap admitted done
  | mprotect addr len prot =>
    rcases orFailed_eq_ok taken with ⟨answer, done⟩
    exact consistent.mprotect done
  | doPageFault addr env =>
    cases done : before.doPageFault addr env with
    | error panic => simp [exec, done, Except.map] at taken
    | ok outcome =>
      simp only [exec, done, Except.map, Except.ok.injEq] at taken
      exact taken ▸ consistent.doPageFault done
  | copyOnWrite index vpn env =>
    cases found : before.areas[index]? with
    | none => simp [exec, found] at taken
    | some area =>
      simp only [exec, found] at taken
      split at taken
      · next held =>
        cases done : area.copyOnWrite before.pageTable vpn env with
        | error panic => simp [done, Except.map] at taken
        | ok outcome =>
          simp only [done, Except.map, Except.ok.injEq] at taken
          exact taken ▸ consistent.copyOnWrite found held done
      · cases taken
  | doShallowClean envs =>
    cases taken
    exact consistent.cleaned (doShallowClean_cleaned before envs)
  | doDeepClean envs =>
    cases taken
    exact consistent.cleaned (doDeepClean_cleaned before envs)

variable (consistent : Consistent set)

include consistent

theorem Consistent.agrees : Agrees set := by
  intro area member vpn held ppn
  have sound := consistent.areaSound member
  constructor
  · rintro ⟨pte, entry, rfl⟩
    exact Sound.backed sound held pte entry
  · intro record
    rcases (set.pageTable.translate_eq_some_iff vpn ppn).mp (sound.agrees vpn _ record) with ⟨_, entry⟩
    exact ⟨_, entry, rfl⟩

/-- The handler fails for want of a frame or of a page of a file. -/
theorem Consistent.doPageFault_error (failed : set.doPageFault addr env = .error panic) :
    panic = .outOfFrames \/ panic = .noCachePage := by
  unfold MemorySet.doPageFault at failed
  cases chosen : faultArea set.areas (floor addr) with
  | none => simp [chosen] at failed
  | some index =>
    rcases faultArea_holds chosen with ⟨area, found, _, held⟩
    cases handled : faultIn area set.pageTable (floor addr) env with
    | error cause =>
      simp only [chosen, found, handled, Except.error.injEq] at failed
      subst failed
      have sound := consistent.areaSound (mem_of_getElem? found)
      rcases held.exists_frame with ⟨frame, record⟩
      exact faultIn_error record (sound.agrees _ frame record) (fun backed => sound.filed backed _ frame record)
        handled
    | ok outcome => simp [chosen, found, handled] at failed

theorem Consistent.copyOnWrite_error (member : area ∈ set.areas) (held : area.Holds vpn)
    (failed : area.copyOnWrite set.pageTable vpn env = .error panic) : panic = .outOfFrames := by
  have agrees := consistent.agrees area member vpn held
  rcases held.exists_frame with ⟨frame, record⟩
  by_cases resident : ∃ ppn, frame = .inMemory ppn
  · rcases resident with ⟨ppn, rfl⟩
    rcases (agrees ppn).mpr record with ⟨_, entry, rfl⟩
    exact (MapArea.copyOnWrite_error entry record failed).1
  · rcases copyOnWrite_of_absent record (fun ppn same => resident ⟨ppn, same⟩) with ⟨_, refused, _⟩
    rw [refused] at failed
    cases failed

theorem Consistent.reliable : Reliable set := by
  have excluded : ∀ request panic, set.exec request = .error panic ->
      panic = .failed \/ panic = .outOfFrames \/ panic = .noCachePage := by
    intro request panic failed
    have orFailed_error : ∀ {Answer : Type} {outcome : Option (Answer × MemorySet)},
        orFailed outcome = .error panic -> panic = .failed := by
      intro Answer outcome wrong
      cases outcome with
      | none =>
        cases wrong
        rfl
      | some pair => cases wrong
    cases request with
    | mmap start len prot flags file | munmap start len | mprotect addr len prot =>
      exact .inl (orFailed_error failed)
    | doPageFault addr env =>
      cases done : set.doPageFault addr env with
      | error cause =>
        simp only [exec, done, Except.map, Except.error.injEq] at failed
        exact .inr (consistent.doPageFault_error (failed ▸ done))
      | ok outcome => simp [exec, done, Except.map] at failed
    | copyOnWrite index vpn env =>
      cases found : set.areas[index]? with
      | none =>
        simp only [exec, found, Except.error.injEq] at failed
        exact .inl failed.symm
      | some area =>
        simp only [exec, found] at failed
        split at failed
        · next held =>
          cases done : area.copyOnWrite set.pageTable vpn env with
          | error cause =>
            simp only [done, Except.map, Except.error.injEq] at failed
            exact .inr (.inl (consistent.copyOnWrite_error (mem_of_getElem? found) held
              (failed ▸ done)))
          | ok outcome => simp [done, Except.map] at failed
        · cases failed
          exact .inl rfl
    | doShallowClean envs | doDeepClean envs => cases failed
  intro request
  constructor
  all_goals
    intro failed
    rcases excluded request _ failed with impossible | impossible | impossible <;> cases impossible

omit consistent

/-! ## A small program -/

theorem Fresh.of_foldlM {parts : List (MapArea × List Nat)} (fresh : Fresh set)
    (pushed : parts.foldlM (fun set part => set.push part.1 part.2) set = .ok next) : Fresh next :=
  (Reached.of_foldlM pushed).invariant fresh fun _ _ _ kept taken => kept.push taken

/-- A text page, a stack page and the page of the first thread's trap context. -/
def smallProgram : List (MapArea × List Nat) :=
  [(⟨LinearMap.new 0x10 1, ⟨true, false, true, true⟩, false, none⟩, [10]),
    (⟨LinearMap.new 0xbff00 1, ⟨true, true, false, true⟩, false, none⟩, [11]),
    (⟨LinearMap.new (floor (trapCxBottomFromTid 1)) 1, ⟨true, true, false, false⟩, false, none⟩, [12])]

def loadSmallProgram : Except Panic MemorySet :=
  smallProgram.foldlM (fun set part => set.push part.1 part.2) (newUser 1 2)

/-- In every state that a fresh space reaches by admitted requests, the page table and
the areas agree, and no request panics over a disagreement. -/
theorem table_agrees_in_admitted_run {start state : MemorySet} (fresh : Fresh start)
    (run : Reached (Guarded Admits Step) start state) : Agrees state /\ Reliable state := by
  have consistent : Consistent state := by
    apply run.invariant fresh.consistent.1
    intro before request next kept taken
    exact kept.step taken.1 taken.2
  exact ⟨consistent.agrees, consistent.reliable⟩

theorem table_agrees_after_unmapping_text :
    ∃ start state, Fresh start /\ Reached (Guarded Admits Step) start state /\
      state.areas.length = 2 /\ Agrees state /\ Reliable state := by
  have running : ∃ start middle state, loadSmallProgram = .ok start /\
      start.exec (.doPageFault 0x10000 ⟨some 20, 2, 0, none⟩) = .ok middle /\
      middle.exec (.munmap 0x10000 0x1000) = .ok state /\
      (∀ area ∈ middle.areas, ¬ Breaks (floor 0x10000) (endPage 0x10000 0x1000) area) /\
      state.areas.length = 2 :=
    ⟨_, _, _, rfl, rfl, rfl, of_decide_eq_true rfl, rfl⟩
  rcases running with ⟨start, middle, state, loaded, copied, unmapped, whole, two⟩
  have fresh : Fresh start := (Fresh.bare 1 2).of_foldlM loaded
  have admitted : Admits middle (.munmap 0x10000 0x1000) :=
    fun _ _ area member breaks => False.elim (whole area member breaks)
  have first : Guarded Admits Step start (.doPageFault 0x10000 ⟨some 20, 2, 0, none⟩) middle := ⟨trivial, copied⟩
  have run : Reached (Guarded Admits Step) start state := (Reached.refl.next first).next ⟨admitted, unmapped⟩
  exact ⟨start, state, fresh, run, two, table_agrees_in_admitted_run fresh run⟩

/-- Map three pages of a file, touch the second one and unmap it. -/
def unmapMiddle : List Request :=
  [.mmap 0 0x3000 ⟨true, true, false, true⟩ ⟨false, false, true⟩ (.ok ⟨7, 0⟩),
    .doPageFault 0x60001000 ⟨some 20, 1, 0x3000, none⟩,
    .munmap 0x60001000 0x1000]

theorem unmapped_file_page_panics :
    ¬ ∀ start state, Fresh start -> Reached Step start state -> Agrees state /\ Reliable state := by
  intro claim
  have failing : ∃ start state, loadSmallProgram = .ok start /\
      unmapMiddle.foldlM exec start = .ok state /\
      state.exec (.doPageFault 0x60001000 ⟨some 21, 1, 0x3000, none⟩) = .error .alreadyAllocated :=
    ⟨_, _, rfl, rfl, rfl⟩
  rcases failing with ⟨start, state, loaded, reached, panics⟩
  exact ((claim start state ((Fresh.bare 1 2).of_foldlM loaded) (Reached.of_foldlM reached)).2 _).2 panics

end MemorySet

end GCore.Mm
