import GCore.Mm.UserCopy

namespace GCore.Mm

open Library Option List PageTable

/-!
# Pages that keep their frame

The kernel sometimes remembers the physical address of a word of a program.  What it
remembers is right as long as the page of the word stays in its frame.  A page leaves
its frame in two ways only: a fault copies it while the frame has more than one owner,
or a reclaim pass finds it in the queue of its area and puts it aside.  A fork leaves
the pages of the parent where they are, and the faults that the kernel takes for itself
are faults on other pages.
-/

namespace MapArea

variable {victim : Frame -> ReclaimEnv -> Option (Frame × Store)} {vpn : Nat}

/-- A round changes the entry of its victim only. -/
theorem reclaimOne_findPte (area : MapArea) (table : PageTable) (index : Nat) (env : ReclaimEnv)
    (apart : area.Holds (area.start + index) -> slot vpn ≠ slot (area.start + index)) :
    (reclaimOne victim area table index env).2.1.findPte vpn = table.findPte vpn := by
  rcases reclaimOne_cases victim area table index env with same | ⟨_, _, _, _, record, _, _, done⟩
  · rw [same]
  · rw [done]
    exact findPte_set_of_ne (apart (holds_of_frame? record)) none

/-- A loop changes the entries of the pages in its queue only. -/
theorem reclaimLoop_findPte (queue : List Nat) (envs : Nat -> ReclaimEnv) (area : MapArea) (table : PageTable)
    (apart : ∀ index ∈ queue, area.Holds (area.start + index) -> slot vpn ≠ slot (area.start + index)) :
    (reclaimLoop victim queue envs area table).2.1.findPte vpn = table.findPte vpn := by
  induction queue generalizing envs area table with
  | nil => rfl
  | cons index queue ih =>
    let popped : MapArea := { area with inner := { area.inner with active := queue } }
    have extent := reclaimOne_shape victim popped table index (envs 0)
    have first := @reclaimOne_findPte victim vpn popped table index (envs 0) (apart index mem_cons_self)
    refine (ih (fun round => envs (round + 1)) (reclaimOne victim popped table index (envs 0)).1 _ ?_).trans first
    intro other member held
    unfold Holds at held
    rw [extent.1, extent.2.1] at held
    rw [extent.1]
    exact apart other (mem_cons_of_mem index member) held

end MapArea

namespace MemorySet

/-- A pass over the areas from a page number on would find the page in a queue. -/
def Queued (set : MemorySet) (low vpn : Nat) : Prop :=
  ∃ area page, area ∈ set.areas /\ (low <= area.start /\ area.start < floor taskSize) /\
    area.mapFile = none /\ area.Holds page /\ slot vpn = slot page /\ page - area.start ∈ area.inner.active

theorem cleanAreas_findPte {vpn : Nat}
    {pass : MapArea -> PageTable -> (Nat -> ReclaimEnv) -> MapArea × PageTable × List Store × Nat}
    (areas : List MapArea) (envs : Nat -> Nat -> ReclaimEnv) (table : PageTable)
    (keeps : ∀ area ∈ areas, ∀ table envs, (pass area table envs).2.1.findPte vpn = table.findPte vpn) :
    (cleanAreas pass areas envs table).2.1.findPte vpn = table.findPte vpn := by
  induction areas generalizing envs table with
  | nil => rfl
  | cons area areas ih =>
    have first := keeps area mem_cons_self table (envs 0)
    have later := ih (fun round => envs (round + 1)) (pass area table (envs 0)).2.1
      (fun other member => keeps other (mem_cons_of_mem area member))
    exact later.trans first

section Passes

variable {set : MemorySet} {low vpn : Nat} {area : MapArea} {victim : Frame -> ReclaimEnv -> Option (Frame × Store)}

/-- The loop over an area leaves a page alone that is in no queue. -/
theorem loop_findPte_of_not_queued (unqueued : ¬ set.Queued low vpn) (member : area ∈ set.areas) (above : low <= area.start)
    (below : area.start < floor taskSize) (anonymous : area.mapFile.isNone) (table : PageTable)
    (envs : Nat -> ReclaimEnv) :
    (MapArea.reclaimLoop victim area.inner.active envs area table).2.1.findPte vpn = table.findPte vpn := by
  apply MapArea.reclaimLoop_findPte
  intro index queued held same
  refine unqueued ⟨area, area.start + index, member, ⟨above, below⟩, isNone_iff_eq_none.mp anonymous, held, same, ?_⟩
  rw [Nat.add_sub_cancel_left]
  exact queued

theorem doShallowClean_findPte (unqueued : ¬ set.Queued (floor mmapBase) vpn) (envs : Nat -> Nat -> ReclaimEnv) :
    (set.doShallowClean envs).2.1.pageTable.findPte vpn = set.pageTable.findPte vpn := by
  apply cleanAreas_findPte
  intro area member table envs
  unfold shallowPass
  split
  · next chosen => exact loop_findPte_of_not_queued unqueued member chosen.1 chosen.2.1 chosen.2.2 table envs
  · rfl

theorem doDeepClean_findPte (unqueued : ¬ set.Queued 0 vpn) (envs : Nat -> Nat -> ReclaimEnv) :
    (set.doDeepClean envs).2.1.pageTable.findPte vpn = set.pageTable.findPte vpn := by
  apply cleanAreas_findPte
  intro area member table envs
  unfold deepPass
  split
  · next chosen =>
    split
    all_goals exact loop_findPte_of_not_queued unqueued member (Nat.zero_le _) chosen.1 chosen.2 table envs
  · rfl

end Passes

end MemorySet

namespace World

open MemorySet

variable {world after : World} {space vpn ppn : Nat}

/-- The event leaves a page of a space in its frame: a fault on the page finds one owner of
the frame, a reclaim pass does not find the page in its queue, and the space stays. -/
def Spares (space vpn : Nat) (world : World) : Event -> Prop
  | .fault other addr _ => other = space -> slot vpn = slot (floor addr) ->
      ∀ ppn, world.translate space vpn = some ppn -> world.strongCount ppn = 1
  | .exit other => other ≠ space
  | .shallowClean other _ => other = space ->
      ∀ set, world.spaces[space]? = some set -> ¬ set.Queued (floor mmapBase) vpn
  | .deepClean other _ => other = space -> ∀ set, world.spaces[space]? = some set -> ¬ set.Queued 0 vpn
  | _ => True

theorem translate_eq_some_iff : world.translate space vpn = some ppn ↔ ∃ set pte,
    world.spaces[space]? = some set /\ set.pageTable.findPte vpn = some pte /\ pte.ppn = ppn := by
  unfold translate PageTable.translate
  rw [bind_eq_some_iff]
  constructor
  · rintro ⟨set, found, walked⟩
    rcases map_eq_some_iff.mp walked with ⟨pte, entry, leads⟩
    exact ⟨set, pte, found, entry, leads⟩
  · rintro ⟨set, pte, found, entry, leads⟩
    exact ⟨set, found, map_eq_some_iff.mpr ⟨pte, entry, leads⟩⟩

theorem translate_congr (spaces_eq : after.spaces[space]? = world.spaces[space]?) :
    after.translate space vpn = world.translate space vpn := by
  unfold translate
  rw [spaces_eq]

variable {other : Nat} {env : FaultEnv}

/-- A fault that finds one owner of the frame of a mapped page does not move it. -/
theorem Placed.ppn_eq {set : MemorySet} {area : MapArea} {old : Frame} {content : Fill} {pte : Pte}
    {frame : Nat} (consistent : MemorySet.Consistent set) (recorded : (slot vpn, old) ∈ set.records)
    (entry : set.pageTable.findPte vpn = some pte) (alone : env.strongCount = 1)
    (placed : area.Placed set.pageTable vpn env old frame content) : frame = pte.ppn := by
  have leads := consistent.translate_eq recorded
  unfold PageTable.translate at leads
  rw [entry] at leads
  cases placed with
  | upgraded _ _ => exact (some.inj leads).symm
  | copied _ shared _ => cases shared alone
  | zeroed | loaded | cached | unzipped | swappedIn => cases leads

variable (mapped : world.translate space vpn = some ppn)

include mapped

theorem Valid.translate_fault {addr : Nat} (valid : Valid world)
    (taken : Step world (.fault other addr env) after) (spared : Spares space vpn world (.fault other addr env)) :
    after.translate space vpn = some ppn := by
  rcases fault_eq_some taken.2 with ⟨set, next, _, _, faulted⟩
  by_cases here : other = space
  · subst here
    rcases translate_eq_some_iff.mp mapped with ⟨_, pte, found, entry, leads⟩
    have same := faulted.found.symm.trans found
    cases same
    have consistent := (valid.enclosed other set found).consistent
    refine translate_eq_some_iff.mpr ?_
    rcases faulted.handled with ⟨_, handled⟩
    rcases consistent.doPageFault_cases handled with ⟨_, _, rearranged⟩ | ⟨area, _, _, _, _, frame, _, placed, update⟩
    · exact ⟨next, pte, faulted.replaces.getElem_self, rearranged.table_eq ▸ entry, leads⟩
    · by_cases page : slot vpn = slot (floor addr)
      · have there : set.pageTable.findPte (floor addr) = some pte :=
          (set.pageTable.findPte_of_slot page).symm.trans entry
        have alone : env.strongCount = 1 := by
          rw [taken.1.2.2 set pte found there, leads]
          exact spared rfl page ppn mapped
        have kept := Placed.ppn_eq consistent update.old_mem there alone placed
        refine ⟨next, ⟨frame, area.mapPerm⟩, faulted.replaces.getElem_self, ?_, kept.trans leads⟩
        rw [update.table_eq, findPte_set_of_slot page]
      · refine ⟨next, pte, faulted.replaces.getElem_self, ?_, leads⟩
        rw [update.table_eq, findPte_set_of_ne page]
        exact entry
  · rw [translate_congr (faulted.replaces.getElem_other (Ne.symm here))]
    exact mapped

theorem Valid.translate_fork {frames : List Nat} (valid : Valid world)
    (done : world.fork other frames = some after) :
    after.translate space vpn = some ppn := by
  rcases valid.forks done with ⟨_, _, _, _, _, _, _, forks⟩
  rcases translate_eq_some_iff.mp mapped with ⟨_, pte, found, entry, leads⟩
  by_cases here : space = other
  · subst here
    have same := forks.found.symm.trans found
    cases same
    have walked := translate_of_revoked forks.forked.parent_entry vpn
    unfold translate
    rw [forks.getElem_parent, bind_some, walked]
    exact map_eq_some_iff.mpr ⟨pte, entry, leads⟩
  · have below := (List.getElem?_eq_some_iff.mp found).1
    have kept : after.spaces[space]? = world.spaces[space]? := by
      rw [forks.after_eq]
      rw [getElem?_append_left (by simpa using below), getElem?_set_ne (Ne.symm here)]
    rw [translate_congr kept]
    exact mapped

theorem translate_reclaim {pass : MemorySet -> Nat × MemorySet × List Store}
    (done : world.reclaim other pass = some after)
    (keeps : other = space -> ∀ set, world.spaces[space]? = some set ->
      (pass set).2.1.pageTable.findPte vpn = set.pageTable.findPte vpn) : after.translate space vpn = some ppn := by
  rcases reclaim_eq_some done with ⟨set, found, _, same⟩
  have replaces := Replaces.withSpace found (pass set).2.1
  rw [same]
  change (world.withSpace other (pass set).2.1).translate space vpn = some ppn
  by_cases here : other = space
  · subst here
    rcases translate_eq_some_iff.mp mapped with ⟨_, pte, present, entry, leads⟩
    have equal := found.symm.trans present
    cases equal
    exact translate_eq_some_iff.mpr ⟨_, pte, replaces.getElem_self, (keeps rfl set found).trans entry, leads⟩
  · rw [translate_congr (replaces.getElem_other (Ne.symm here))]
    exact mapped

/-- An event that spares a page leaves it in its frame. -/
theorem Valid.translate_step {event : Event} (valid : Valid world) (taken : Step world event after)
    (spared : Spares space vpn world event) :
    after.translate space vpn = some ppn := by
  rcases taken with ⟨truthful, done⟩
  cases event with
  | fork other frames => exact valid.translate_fork mapped done
  | fault other addr env => exact valid.translate_fault mapped ⟨truthful, done⟩ spared
  | store other addr byte =>
    rcases store_eq_some done with ⟨_, _, _, _, _, _, rfl⟩
    exact mapped
  | load other addr byte | cacheOut ppn =>
    dsimp only [exec] at done
    split at done
    · cases done
      exact mapped
    · cases done
  | exit other =>
    rcases exit_eq_some done with ⟨set, found, released⟩
    rw [(release_eq_some released).2]
    change (world.withSpace other MemorySet.gone).translate space vpn = some ppn
    rw [translate_congr ((Replaces.withSpace found _).getElem_other (Ne.symm spared))]
    exact mapped
  | shallowClean other envs =>
    apply translate_reclaim mapped done
    intro here set found
    exact doShallowClean_findPte (spared here set found) envs
  | deepClean other envs =>
    apply translate_reclaim mapped done
    intro here set found
    exact doDeepClean_findPte (spared here set found) envs
  | cacheIn ppn page =>
    cases done
    exact mapped

omit mapped

/-! ## Reads by the kernel -/

/-- Bytes from a physical address on. -/
def readBytes (memory : Nat -> Page) (pa len : Nat) : List Nat := (List.range len).map (fun index => byteAt memory (pa + index))

/-- `copy_from_user`, of a value of some size. -/
def copyFromUser (world : World) (surroundings : Surroundings) (space ptr size : Nat) :
    Option (Except Int (List Nat) × World) :=
  if onePage ptr size then
    (world.translatedRefmut surroundings space ptr).map
      (fun outcome => (outcome.1.map (fun pa => readBytes outcome.2.memory pa size), outcome.2))
  else
    (world.translatedByteBuffer surroundings space ptr size).map
      (fun outcome => (outcome.1.map (fun slices => UserBuffer.read (readBytes outcome.2.memory) slices size), outcome.2))

section Reads

variable {surroundings : Surroundings} {ptr : Nat}

/-- The world is well formed and a page of a space is in a frame. -/
structure Pinned (space vpn ppn : Nat) (held : List Nat) (world : World) : Prop where
  valid : Valid world
  held_eq : world.held = held
  mapped : world.translate space vpn = some ppn

variable {held : List Nat} (honest : surroundings.Honest held) (own : surroundings.current = some space)

theorem Pinned.looked {low : Prop} (pinned : Pinned space vpn ppn held world)
    (looked : Looked low surroundings world space after) : Pinned space vpn ppn held after :=
  ⟨looked.undisturbed.valid, looked.undisturbed.held_eq.trans pinned.held_eq, looked.opens.translate_eq pinned.mapped⟩

include honest own

/-- The pages that the kernel looks up for a copy are mapped where nothing was. -/
theorem Pinned.copyFromUser {size : Nat} {result : Except Int (List Nat)} (pinned : Pinned space vpn ppn held world)
    (done : world.copyFromUser surroundings space ptr size = some (result, after)) :
    Pinned space vpn ppn held after := by
  have truthful : surroundings.Honest world.held := pinned.held_eq ▸ honest
  unfold World.copyFromUser at done
  split at done
  · rcases map_eq_some_iff.mp done with ⟨⟨_, reached⟩, translated, whole⟩
    cases whole
    exact pinned.looked (pinned.valid.translatedRefmut_visited truthful own translated).1.toLooked
  · rcases map_eq_some_iff.mp done with ⟨⟨_, reached⟩, translated, whole⟩
    cases whole
    exact pinned.looked (pinned.valid.bufferLoop_looked truthful own translated).holds

/-- A page that the kernel has translated is in the frame that it has found. -/
theorem Valid.pinned_of_translatedRefmut {pa : Nat} (valid : Valid world) (held_eq : world.held = held)
    (done : world.translatedRefmut surroundings space ptr = some (.ok pa, after)) :
    ∃ ppn, pa = ppn * pageSize + pageOffset ptr /\ Pinned space (floor ptr) ppn held after := by
  subst held_eq
  rcases valid.translatedRefmut_visited honest own done with ⟨visited, found⟩
  rcases translateVa_eq_some_iff.mp (found pa rfl).1 with ⟨ppn, leads, same⟩
  exact ⟨ppn, same.symm, visited.undisturbed.valid, visited.undisturbed.held_eq, leads⟩

end Reads

end World

end GCore.Mm
