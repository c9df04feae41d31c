import GCore.Mm.Isolation

namespace GCore.Mm

open Library List Function Option MapArea Devices

/-!
# Reclaim cannot be seen

What user programs know of memory is a flat one: every space has a byte at every
address, a store replaces one byte, and a fork copies all bytes of a space.  The pages
behind it are shared between spaces and move between memory, the compressed store and
the swap device.  A world represents a flat memory when each page of an area has the
bytes of the flat memory, wherever it is.  Every event keeps this, with the flat memory
changed by stores and forks alone, so that a load returns what was stored last.

The areas are anonymous here.  The last area of a space is the trap context, which
`from_existing_user` copies in part only and which programs cannot reach.
-/

/-- The bytes of all spaces.  Pages are known by their entries, so that addresses share
bytes exactly if the table cannot tell them apart. -/
structure Flat where
  /-- the number of spaces there have been -/
  count : Nat
  pages : Nat -> Nat -> Page

variable {place : Place} {area : MapArea} {old frame : Frame}

namespace Flat

def load (flat : Flat) (space addr : Nat) : Nat := flat.pages space (slot (floor addr)) (pageOffset addr)

def store (flat : Flat) (space addr byte : Nat) : Flat :=
  { flat with
    pages := Function.update flat.pages space (Function.update (flat.pages space) (slot (floor addr))
      ((flat.pages space (slot (floor addr))).set (pageOffset addr) byte)) }

def fork (flat : Flat) (space : Nat) : Flat :=
  ⟨flat.count + 1, Function.update flat.pages flat.count (flat.pages space)⟩

def step (flat : Flat) : World.Event -> Flat
  | .store space addr byte => flat.store space addr byte
  | .fork space _ => flat.fork space
  | _ => flat

def view (flat : Flat) : Place -> Page
  | .page space key => flat.pages space key
  | .outside => Page.zero

theorem view_store (flat : Flat) (space addr byte : Nat) :
    (flat.store space addr byte).view = update flat.view (.page space (slot (floor addr)))
      ((flat.pages space (slot (floor addr))).set (pageOffset addr) byte) := by
  funext place
  cases place with
  | outside => rfl
  | page other key =>
    unfold view store
    dsimp only
    by_cases here : other = space
    · subst here
      rw [update_self]
      by_cases same : key = slot (floor addr)
      · subst same
        rw [update_self, update_self]
      · rw [update_of_ne same, update_of_ne (fun wrong => same (Place.page.inj wrong).2)]
    · rw [update_of_ne here, update_of_ne (fun wrong => here (Place.page.inj wrong).1)]

theorem view_fork_other (flat : Flat) (space : Nat)
    (other : ∀ key, place ≠ .page flat.count key) : (flat.fork space).view place = flat.view place := by
  cases place with
  | outside => rfl
  | page index key =>
    have different : index ≠ flat.count := fun same => other key (same ▸ rfl)
    exact congrFun (update_of_ne different _ _) key

end Flat

variable {entry : Option Pte}

namespace MemorySet

variable {set next : MemorySet} {vpn key : Nat}

/-- The entries of the pages of all areas but the last. -/
def openSlots (set : MemorySet) : List Nat := set.areas.dropLast.flatMap MapArea.slots

theorem openSlots_eq_of_shapes (shapes_eq : next.shapes = set.shapes) : next.openSlots = set.openSlots := by
  have derived : ∀ areas : List MapArea,
      areas.dropLast.flatMap MapArea.slots = (areas.map MapArea.shape).dropLast.flatMap MapArea.Shape.slots := by
    intro areas
    rw [<- map_dropLast, flatMap_map]
    rfl
  unfold openSlots
  rw [derived, derived]
  exact congrArg (fun shapes => (dropLast shapes).flatMap MapArea.Shape.slots) shapes_eq

theorem mem_slots_cases (owned : key ∈ set.slots) :
    key ∈ set.openSlots \/ ∃ last, set.areas.getLast? = some last /\ key ∈ last.slots := by
  rcases mem_flatMap.mp owned with ⟨area, member, inside⟩
  rcases eq_nil_or_concat set.areas with none | ⟨_, last, split⟩
  · rw [none] at member
    cases member
  · unfold openSlots
    rw [split] at member ⊢
    rw [concat_eq_append] at member ⊢
    rw [dropLast_concat, getLast?_concat]
    rcases mem_append.mp member with earlier | final
    · exact .inl (mem_flatMap.mpr ⟨area, earlier, inside⟩)
    · exact .inr ⟨last, rfl, mem_singleton.mp final ▸ inside⟩

/-- All areas are anonymous, and the last one is closed to the user. -/
structure Plain (set : MemorySet) : Prop where
  anonymous : ∀ area ∈ set.areas, area.mapFile = none
  last_perm : ∀ last, set.areas.getLast? = some last -> last.mapPerm.u = false
  last_entry : ∀ last vpn pte, set.areas.getLast? = some last -> slot vpn ∈ last.slots ->
    set.pageTable.findPte vpn = some pte -> pte.perm.u = false

theorem plain_iff : Plain set ↔ (∀ area ∈ set.areas, area.mapFile = none) /\
    ∀ last ∈ set.areas.getLast?.toList, last.mapPerm.u = false /\
      ∀ key ∈ last.slots, ∀ pte ∈ (set.pageTable.entries key).toList, pte.perm.u = false := by
  simp only [mem_toList]
  constructor
  · intro plain
    refine ⟨plain.anonymous, fun last final => ⟨plain.last_perm last final, ?_⟩⟩
    intro key inside pte mapped
    rcases mem_slots.mp inside with ⟨vpn, _, rfl⟩
    exact plain.last_entry last vpn pte final inside mapped
  · rintro ⟨anonymous, last_area⟩
    refine ⟨anonymous, fun last final => (last_area last final).1, ?_⟩
    intro last vpn pte final inside mapped
    exact (last_area last final).2 (slot vpn) inside pte mapped

instance (set : MemorySet) : Decidable (Plain set) := decidable_of_iff _ plain_iff.symm

/-- A page that the user can reach is not in the last area. -/
theorem Plain.mem_openSlots (plain : Plain set) {pte : Pte} (owned : slot vpn ∈ set.slots)
    (mapped : set.pageTable.findPte vpn = some pte) (user : pte.perm.u = true) : slot vpn ∈ set.openSlots := by
  rcases mem_slots_cases owned with inside | ⟨last, final, within⟩
  · exact inside
  · rw [plain.last_entry last vpn pte final within mapped] at user
    cases user

variable {last : MapArea}

theorem Plain.not_mem_last (plain : Plain set) (consistent : Consistent set)
    (member : area ∈ set.areas) (user : area.mapPerm.u = true) (held : area.Holds vpn)
    (final : set.areas.getLast? = some last) : slot vpn ∉ last.slots := by
  intro within
  have same := Ownership.Kept.eq_of_mem_owns consistent member (mem_of_getLast? final)
    (slot_mem_slots held) within
  rw [same, plain.last_perm last final] at user
  cases user

theorem exists_last_of_shapes (shapes_eq : next.shapes = set.shapes) (final : next.areas.getLast? = some last) :
    ∃ old, set.areas.getLast? = some old /\ old.shape = last.shape := by
  have shaped : next.shapes.getLast? = some last.shape := by
    unfold shapes
    rw [getLast?_map, final]
    rfl
  rw [shapes_eq] at shaped
  unfold shapes at shaped
  rw [getLast?_map] at shaped
  exact Option.map_eq_some_iff.mp shaped

/-- Plainness is about shapes and about the entries of the last area. -/
theorem Plain.of_shapes (plain : Plain set) (shapes_eq : next.shapes = set.shapes)
    (entries : ∀ last vpn pte, set.areas.getLast? = some last -> slot vpn ∈ last.slots ->
      next.pageTable.findPte vpn = some pte -> pte.perm.u = false) : Plain next := by
  refine ⟨?_, ?_, ?_⟩
  · intro area member
    have shaped : area.shape ∈ next.shapes := mem_map_of_mem member
    rw [shapes_eq] at shaped
    rcases mem_map.mp shaped with ⟨old, present, same⟩
    exact (congrArg MapArea.Shape.file same).symm.trans (plain.anonymous old present)
  · intro last final
    rcases exists_last_of_shapes shapes_eq final with ⟨old, present, same⟩
    have perm_eq : old.mapPerm = last.mapPerm := congrArg MapArea.Shape.perm same
    rw [<- perm_eq]
    exact plain.last_perm old present
  · intro last vpn pte final inside mapped
    rcases exists_last_of_shapes shapes_eq final with ⟨old, present, same⟩
    have slots_eq : old.slots = last.slots := congrArg MapArea.Shape.slots same
    exact entries old vpn pte present (slots_eq ▸ inside) mapped

theorem Plain.rearranged (plain : Plain set) (rearranged : Rearranged set next) : Plain next := by
  apply plain.of_shapes rearranged.shapes_eq
  rw [rearranged.table_eq]
  exact plain.last_entry

theorem Plain.update (plain : Plain set) (update : PageUpdate set vpn old frame entry next)
    (unmapped : ∀ last, set.areas.getLast? = some last -> slot vpn ∈ last.slots -> entry = none) :
    Plain next := by
  apply plain.of_shapes update.shapes_eq
  intro last page pte final inside mapped
  rw [update.table_eq] at mapped
  by_cases same : slot page = slot vpn
  · rw [PageTable.findPte_set_of_slot same, unmapped last final (same ▸ inside)] at mapped
    cases mapped
  · rw [PageTable.findPte_set_of_ne same] at mapped
    exact plain.last_entry last page pte final inside mapped

end MemorySet

namespace World

open MemorySet

variable {world after : World} {space : Nat} {set next : MemorySet} {flat : Flat}

/-- The frame of a page, if the page is not in the last area of its space. -/
def Shown (world : World) : Place -> Frame -> Prop
  | .page space key, frame => ∃ set, world.spaces[space]? = some set /\ key ∈ set.openSlots /\
      (key, frame) ∈ set.records
  | .outside, _ => False

theorem Shown.refers (shown : world.Shown place frame) : world.Refers place frame := by
  cases place with
  | outside => cases shown
  | page space key =>
    rcases shown with ⟨set, found, _, member⟩
    exact refers_page_iff.mpr ⟨set, found, member⟩

/-- The pages of anonymous areas have the bytes of a flat memory, and the stores have
every page that is put aside. -/
structure Represents (world : World) (flat : Flat) : Prop where
  valid : Valid world
  count_eq : flat.count = world.spaces.length
  plain : ∀ (space : Nat) (set : MemorySet), world.spaces[space]? = some set -> Plain set
  sound : world.devices.zram.Sound
  keeps : ∀ place frame, world.Refers place frame -> world.devices.Keeps frame
  views : Views world.Shown (world.devices.content world.memory) flat.view

/-! ## Stores and changes of one page -/

theorem content_write (devices : Devices) (memory : Nat -> Page) (ppn : Nat) (page : Page) :
    devices.content (update memory ppn page) =
      update (devices.content memory) (.inMemory ppn) page := by
  funext frame
  by_cases same : frame = .inMemory ppn
  · subst same
    rw [update_self]
    exact update_self _ _ _
  · rw [update_of_ne same]
    cases frame with
    | inMemory other => exact update_of_ne (fun wrong => same (congrArg Frame.inMemory wrong)) _ _
    | compressed id | swappedOut id | unallocated => rfl

variable {addr byte ppn : Nat} {devices : Devices} {env : FaultEnv}

variable (represents : Represents world flat) (replaces : Replaces world space set next after)

include represents in
theorem Represents.store
    (done : world.store space addr byte = some after) : Represents after (flat.store space addr byte) := by
  rcases store_eq_some done with ⟨set, pte, found, mapped, user, writable, rfl⟩
  have enclosed := represents.valid.enclosed space set found
  have member := enclosed.record_of_writable mapped writable
  have inside := (represents.plain space set found).mem_openSlots (mem_slots_of_mem_records member) mapped user
  have shown : world.Shown (.page space (slot (floor addr))) (.inMemory pte.ppn) := ⟨set, found, inside, member⟩
  have here : world.memory pte.ppn = flat.pages space (slot (floor addr)) := represents.views _ _ shown
  refine ⟨represents.valid.of_eq rfl rfl rfl rfl, represents.count_eq, represents.plain, represents.sound,
    represents.keeps, ?_⟩
  rw [Flat.view_store, <- here]
  have written := content_write world.devices world.memory pte.ppn ((world.memory pte.ppn).set (pageOffset addr) byte)
  change Views world.Shown (world.devices.content (update world.memory pte.ppn _)) _
  rw [written]
  apply represents.views.write shown
  · intro other refers
    have writes : world.Writes (.page space (slot (floor addr))) (.inMemory pte.ppn) :=
      ⟨set, _, pte, found, rfl, mapped, writable, rfl⟩
    exact represents.valid.exclusive _ _ writes other refers.refers
  · rintro frame ⟨_, present, _, recorded⟩
    rw [found] at present
    cases present
    exact enclosed.consistent.record_unique recorded member

include replaces

/-- One space is replaced by one with the same areas. -/
theorem Replaces.shown_cases (shown : after.Shown place frame) :
    (∃ key, place = .page space key /\ key ∈ next.openSlots /\ (key, frame) ∈ next.records) \/
      world.Shown place frame := by
  cases place with
  | outside => cases shown
  | page other key =>
    rcases shown with ⟨found, present, inside, member⟩
    by_cases same : other = space
    · subst same
      rw [replaces.getElem_self] at present
      cases present
      exact .inl ⟨key, rfl, inside, member⟩
    · rw [replaces.getElem_other same] at present
      exact .inr ⟨found, present, inside, member⟩

theorem Replaces.length_eq : after.spaces.length = world.spaces.length := by
  rw [replaces.spaces_eq, length_set]

omit replaces

include represents replaces

/-- A space may give up pages, if those that are left keep their contents. -/
theorem Represents.fewer (valid : Valid after) (plain : Plain next) (fewer : next.records ⊆ set.records)
    (slots : next.openSlots ⊆ set.openSlots) (sound : after.devices.zram.Sound)
    (kept : ∀ place frame, after.Refers place frame -> world.Refers place frame -> after.devices.Keeps frame /\
      after.devices.content after.memory frame = world.devices.content world.memory frame) :
    Represents after flat := by
  refine ⟨valid, ?_, replaces.each represents.plain plain, sound, ?_, ?_⟩
  · rw [replaces.length_eq]
    exact represents.count_eq
  · intro place frame refers
    exact (kept place frame refers (replaces.refers_of_fewer fewer refers)).1
  · intro place frame shown
    rw [(kept place frame shown.refers (replaces.refers_of_fewer fewer shown.refers)).2]
    apply represents.views
    rcases replaces.shown_cases shown with ⟨_, rfl, inside, member⟩ | before
    · exact ⟨set, replaces.found, slots inside, fewer member⟩
    · exact before

/-- Nothing but the queues of a space is changed. -/
theorem Represents.rearranged (rearranged : Rearranged set next) (memory_eq : after.memory = world.memory)
    (devices_eq : after.devices = world.devices) : Represents after flat := by
  have plain := (represents.plain space set replaces.found).rearranged rearranged
  have slots_eq := openSlots_eq_of_shapes rearranged.shapes_eq
  refine represents.fewer replaces (represents.valid.rearranged replaces rearranged) plain rearranged.records_subset
    (slots_eq ▸ List.Subset.refl _) (devices_eq ▸ represents.sound) fun place frame _ before => ?_
  rw [devices_eq, memory_eq]
  exact ⟨represents.keeps place frame before, rfl⟩

omit represents replaces

variable {stores : List Store} {vpn : Nat} {owner : MemorySet}

include represents replaces in
/-- One page turns to another frame, which has its content. -/
theorem Represents.update (update : PageUpdate set vpn old frame entry next) (valid : Valid after)
    (unmapped : ∀ last, set.areas.getLast? = some last -> slot vpn ∈ last.slots -> entry = none)
    (sound : after.devices.zram.Sound) (kept : after.devices.Keeps frame)
    (filled : after.devices.content after.memory frame = world.devices.content world.memory old)
    (others : ∀ place other, after.Refers place other -> world.Refers place other ->
      after.devices.Keeps other /\ after.devices.content after.memory other = world.devices.content world.memory other) :
    Represents after flat := by
  refine ⟨valid, ?_, ?_, sound, ?_, ?_⟩
  · rw [replaces.length_eq]
    exact represents.count_eq
  · apply replaces.each represents.plain
    exact (represents.plain space set replaces.found).update update unmapped
  · intro place other refers
    have cases := (replaces.refers_iff update place other).mp refers
    by_cases here : place = .page space (slot vpn)
    · rw [if_pos here] at cases
      rw [cases]
      exact kept
    · rw [if_neg here] at cases
      exact (others place other refers cases).1
  · have slots_eq := openSlots_eq_of_shapes update.shapes_eq
    have shownStep : ∀ place other, after.Shown place other ->
        (place = .page space (slot vpn) /\ other = frame) \/ world.Shown place other := by
      intro place other shown
      have cases := (replaces.refers_iff update place other).mp shown.refers
      by_cases here : place = .page space (slot vpn)
      · rw [if_pos here] at cases
        exact .inl ⟨here, cases⟩
      · rw [if_neg here] at cases
        rcases replaces.shown_cases shown with ⟨key, rfl, inside, _⟩ | before
        · exact .inr ⟨set, replaces.found, slots_eq ▸ inside, (replaces.refers_before key other).mp cases⟩
        · exact .inr before
    apply represents.views.move shownStep
    · intro place other shown before
      exact (others place other shown.refers before.refers).2
    · rintro ⟨found, present, inside, _⟩
      rw [replaces.getElem_self] at present
      cases present
      rw [filled]
      exact represents.views _ _ ⟨set, replaces.found, slots_eq ▸ inside, update.old_mem⟩

/-! ## Faults and exits -/

theorem content_congr {memory other : Nat -> Page}
    (same : ∀ ppn, frame = .inMemory ppn -> other ppn = memory ppn) :
    devices.content other frame = devices.content memory frame := by
  cases frame with
  | inMemory ppn => exact same ppn rfl
  | compressed id | swappedOut id | unallocated => rfl

/-- Trackers that are given up take nothing with them that is still referred to. -/
theorem release_spec {frames : List Frame} (sound : world.devices.zram.Sound)
    (done : world.release frames = some after) :
    after.devices.zram.Sound /\ ∀ place frame, world.Refers place frame -> world.devices.Keeps frame ->
      after.devices.Keeps frame /\ after.devices.content after.memory frame = world.devices.content world.memory frame := by
  rcases release_eq_some done with ⟨dropped, same⟩
  have spec : after.devices.zram.Sound /\ ∀ frame ∈ world.trackers.map Prod.snd,
      world.devices.Keeps frame -> after.devices.Keeps frame /\
        after.devices.content world.memory frame = world.devices.content world.memory frame :=
    drop_spec sound dropped
  refine ⟨spec.1, ?_⟩
  have memory_eq : after.memory = world.memory := by
    rw [same]
    rfl
  rw [memory_eq]
  intro place frame refers keeps
  cases place with
  | page space key => exact spec.2 frame (mem_map.mpr ⟨_, refers, rfl⟩) keeps
  | outside =>
    rcases refers with ⟨_, rfl, _⟩
    exact ⟨trivial, rfl⟩

variable {content : Fill}

/-- The handler puts the content of an anonymous page into its frame. -/
theorem fill_of_placed (placed : area.Placed owner.pageTable vpn env old ppn content) (anonymous : area.mapFile = none)
    (keeps : world.devices.Keeps old) (done : world.fill content = some after) :
    after.memory ppn = world.devices.content world.memory old := by
  cases placed with
  | upgraded _ _ =>
    cases done
    rfl
  | copied _ _ _ | zeroed _ _ =>
    cases done
    exact update_self _ _ _
  | loaded backed _ _ | cached backed _ _ =>
    rw [anonymous] at backed
    cases backed
  | @unzipped id _ _ _ =>
    rcases Option.map_eq_some_iff.mp done with ⟨page, got, rfl⟩
    have slot_eq : world.devices.zram.slot? id = some page := by
      cases outcome : world.devices.zram.get id with
      | error code => simp [outcome, Except.toOption] at got
      | ok data =>
        simp only [outcome, Except.toOption, some.injEq] at got
        exact got ▸ Zram.get_eq_ok_iff.mp outcome
    change update world.memory ppn page ppn = (world.devices.zram.slot? id).getD Page.zero
    rw [update_self, slot_eq]
    rfl
  | @swappedIn id _ _ _ =>
    cases done
    have usable : world.devices.swap.read id = some (world.devices.swap.pages id) := if_pos keeps.1
    change update world.memory ppn ((world.devices.swap.read id).getD Page.zero) ppn = _
    rw [update_self, usable]
    rfl

include represents

theorem Represents.fault (taken : Step world (.fault space addr env) after) : Represents after flat := by
  have valid := represents.valid.step taken
  rcases taken with ⟨⟨free, _⟩, done⟩
  rcases fault_eq_some done with ⟨set, next, _, filled, faulted⟩
  rcases faulted.handled with ⟨_, handled⟩
  have replaces := faulted.replaces
  have consistent := (represents.valid.enclosed space set replaces.found).consistent
  have plain := represents.plain space set replaces.found
  rcases consistent.doPageFault_cases handled with
    ⟨_, rfl, rearranged⟩ | ⟨area, member, user, held, old, _, _, placed, update⟩
  · have unfilled : world.withSpace space next = filled := some.inj faulted.filled_eq
    rcases release_eq_some faulted.released with ⟨dropped, same⟩
    apply represents.rearranged replaces rearranged
    · rw [same, <- unfilled]
      rfl
    · rw [<- some.inj dropped, <- unfilled]
      rfl
  · have written := fill_eq_some faulted.filled_eq
    have devices_eq : filled.devices = world.devices := by
      rw [written]
      rfl
    have released := release_spec (devices_eq ▸ represents.sound) faulted.released
    rw [devices_eq] at released
    have kept := (release_eq_some faulted.released).2
    have memory_eq : after.memory = filled.memory := by
      rw [kept]
      rfl
    have refers_eq : after.Refers = filled.Refers := by
      rw [kept]
      rfl
    apply represents.update replaces update valid _ released.1 trivial
    · rw [memory_eq]
      have keeps : (world.withSpace space next).devices.Keeps old :=
        represents.keeps _ _ ((replaces.refers_before _ _).mpr update.old_mem)
      have brought := fill_of_placed placed (plain.anonymous area member) keeps faulted.filled_eq
      exact brought
    · intro place other refers before
      rw [refers_eq] at refers
      rcases released.2 place other refers (represents.keeps place other before) with ⟨keeps, same⟩
      refine ⟨keeps, same.trans ?_⟩
      apply content_congr
      intro target here
      subst here
      apply fill_memory faulted.filled_eq
      intro targeted
      exact free target (placed.target_eq targeted) place before
    · intro last final within
      cases plain.not_mem_last consistent member user held final within

theorem Represents.exit (done : world.exit space = some after) : Represents after flat := by
  have valid := represents.valid.exit done
  rcases exit_eq_some done with ⟨set, found, released⟩
  have sound : (world.withSpace space MemorySet.gone).devices.zram.Sound := represents.sound
  have spec := release_spec sound released
  have kept := (release_eq_some released).2
  have replaces : Replaces world space set MemorySet.gone after := by
    rw [kept]
    exact ⟨found, rfl, rfl, rfl, rfl⟩
  have refers_eq : after.Refers = (world.withSpace space MemorySet.gone).Refers := by
    rw [kept]
    rfl
  refine represents.fewer replaces valid ⟨nofun, nofun, nofun⟩ (nil_subset _) (nil_subset _) spec.1
    fun place frame given before => ?_
  rw [refers_eq] at given
  exact spec.2 place frame given (represents.keeps place frame before)

/-! ## Reclaim passes -/

variable (found : world.spaces[space]? = some set)

include found

theorem Represents.cleanStep (step : CleanStep set stores next)
    (put : world.devices.putAside world.memory stores = some devices) :
    Represents ((world.withSpace space next).withDevices devices) flat := by
  have consistent := (represents.valid.enclosed space set found).consistent
  have replaces : Replaces world space set next ((world.withSpace space next).withDevices devices) :=
    ⟨found, rfl, rfl, rfl, rfl⟩
  rcases consistent.cleanStep_cases step with ⟨rfl, rearranged⟩ | ⟨_, _, _, _, rfl, evicted, update⟩
  · exact represents.rearranged replaces rearranged rfl (some.inj put).symm
  · rcases putAside_spec represents.sound evicted put with ⟨sound, keeps, moved_eq, others⟩
    apply represents.update replaces update (represents.valid.evict replaces update evicted) _ sound keeps moved_eq
    · intro place other _ before
      exact others other (represents.keeps place other before)
    · intro _ _ _
      rfl

theorem Represents.cleaned (cleaned : Cleaned set stores next)
    (put : world.devices.putAside world.memory stores = some devices) :
    Represents ((world.withSpace space next).withDevices devices) flat := by
  induction cleaned generalizing world with
  | refl set =>
    rcases List.getElem?_eq_some_iff.mp found with ⟨_, rfl⟩
    have unchanged : (world.withSpace space world.spaces[space]).withDevices devices = world := by
      unfold World.withSpace World.withDevices
      rw [set_getElem_self, <- some.inj put]
    rw [unchanged]
    exact represents
  | @step set middle final stores rest first later ih =>
    rw [putAside_append] at put
    rcases bind_eq_some_iff.mp put with ⟨between, early, late⟩
    have moved := represents.cleanStep found first early
    have finished := ih moved (Replaces.withSpace found middle).getElem_self late
    have same : (((world.withSpace space middle).withDevices between).withSpace space final).withDevices devices =
        (world.withSpace space final).withDevices devices :=
      congrArg (fun result => result.withDevices devices) (withSpace_withSpace world space middle final)
    rw [<- same]
    exact finished

omit found

theorem Represents.reclaim {pass : MemorySet -> Nat × MemorySet × List Store}
    (cleans : ∀ set, Cleaned set (pass set).2.2 (pass set).2.1) (done : world.reclaim space pass = some after) :
    Represents after flat := by
  rcases reclaim_eq_some done with ⟨set, found, put, same⟩
  rw [same]
  exact represents.cleaned found (cleans set) put

/-! ## Forks -/

omit represents

section Forks

variable {frames : List Nat} {parent child : MemorySet} {shared : List MapArea} {last own : MapArea} {content : Fill}
  (forks : Forks world space frames set parent child shared last own content after)

include forks

theorem Forks.set_openSlots : set.openSlots = shared.flatMap MapArea.slots := by
  unfold openSlots
  rw [forks.forked.areas_eq, dropLast_concat]

theorem Forks.parent_plain (plain : Plain set) : Plain parent := by
  have shapes_eq : parent.shapes = set.shapes := by
    unfold shapes
    rw [forks.forked.parent_areas]
  apply plain.of_shapes shapes_eq
  intro final vpn pte present inside mapped
  rw [forks.forked.parent_entry] at mapped
  split at mapped
  · rcases Option.map_eq_some_iff.mp mapped with ⟨entry, before, rfl⟩
    exact plain.last_entry final vpn entry present inside before
  · exact plain.last_entry final vpn pte present inside mapped

theorem Forks.child_plain (plain : Plain set) : Plain child := by
  have final : set.areas.getLast? = some last := by
    rw [forks.forked.areas_eq, getLast?_concat]
  have perm_eq : own.mapPerm = last.mapPerm := congrArg MapArea.Shape.perm forks.forked.own_shape
  have file_eq : own.mapFile = last.mapFile := congrArg MapArea.Shape.file forks.forked.own_shape
  refine ⟨?_, ?_, ?_⟩
  · intro area member
    rw [forks.forked.child_areas] at member
    rcases mem_append.mp member with old | new
    · apply plain.anonymous
      rw [forks.forked.areas_eq]
      exact mem_append_left _ old
    · rw [mem_singleton.mp new, file_eq]
      exact plain.anonymous last (mem_of_getLast? final)
  · intro area present
    rw [forks.forked.child_areas, getLast?_concat] at present
    cases present
    rw [perm_eq]
    exact plain.last_perm last final
  · intro area vpn pte present inside mapped
    rw [forks.forked.child_areas, getLast?_concat] at present
    cases present
    rcases mem_slots.mp inside with ⟨page, held, same⟩
    rcases forks.forked.own_entry page held with ⟨_, _, _, entry⟩
    rw [child.pageTable.findPte_of_slot same, mapped] at entry
    cases entry
    exact plain.last_perm last final

theorem Forks.plain (plain : ∀ (other : Nat) (found : MemorySet), world.spaces[other]? = some found -> Plain found)
    (other : Nat) (found : MemorySet) (present : after.spaces[other]? = some found) : Plain found := by
  rcases forks.getElem_cases present with ⟨rfl, rfl⟩ | ⟨rfl, rfl⟩ | ⟨_, old⟩
  · exact forks.child_plain (plain space set forks.found)
  · exact forks.parent_plain (plain _ set forks.found)
  · exact plain other found old

/-- A page of the child outside its trap context is that of the parent. -/
theorem Forks.child_shown {key : Nat} (inside : key ∈ child.openSlots)
    (member : (key, frame) ∈ child.records) : world.Shown (.page space key) frame := by
  have open_eq : child.openSlots = shared.flatMap MapArea.slots := by
    unfold openSlots
    rw [forks.forked.child_areas, dropLast_concat]
  rw [open_eq] at inside
  rcases forks.child_record member with ⟨old, within⟩ | new
  · exact ⟨set, forks.found, forks.set_openSlots ▸ within, old⟩
  · have nodup : (shared.flatMap MapArea.slots ++ own.slots).Nodup := by
      have whole : child.slots.Nodup := forks.forked.child_consistent.1
      unfold MemorySet.slots at whole
      rw [forks.forked.child_areas, flatMap_append, flatMap_singleton] at whole
      exact whole
    cases disjoint_of_nodup_append nodup inside (mem_slots_of_mem_records new)

/-- The trap context is copied into a frame that nothing referred to. -/
theorem Forks.memory_eq (used : ppn ∉ frames) : after.memory ppn = world.memory ppn := by
  rw [forks.after_eq]
  rcases forks.forked.filled with rfl | ⟨_, target, rfl, _, recorded⟩
  · rfl
  · have member : (slot last.start, Frame.inMemory target) ∈ own.records :=
      mem_records.mpr ⟨last.start, rfl, recorded⟩
    rcases forks.own_record member with ⟨_, allocated, same⟩
    cases same
    apply update_of_ne
    rintro rfl
    exact used allocated

end Forks

include represents

theorem Represents.fork {frames : List Nat}
    (free : ∀ ppn ∈ frames, world.Free ppn) (done : world.fork space frames = some after) :
    Represents after (flat.fork space) := by
  rcases represents.valid.forks done with ⟨set, _, _, _, _, _, _, forks⟩
  have devices_eq : after.devices = world.devices := by rw [forks.after_eq]
  refine ⟨represents.valid.fork free done, ?_, forks.plain represents.plain, ?_, ?_, ?_⟩
  · change flat.count + 1 = _
    rw [forks.after_eq, represents.count_eq]
    simp
  · rw [devices_eq]
    exact represents.sound
  · intro place frame refers
    rw [devices_eq]
    rcases forks.refers_cases refers with old | ⟨key, rfl, member⟩
    · exact represents.keeps place frame old
    · rcases forks.child_record member with ⟨old, _⟩ | new
      · exact represents.keeps (.page space key) frame (refers_page_iff.mpr ⟨set, forks.found, old⟩)
      · rcases forks.own_record new with ⟨ppn, _, rfl⟩
        exact trivial
  · apply represents.views.clone
    · intro place frame shown
      cases place with
      | outside => cases shown
      | page other key =>
        rcases shown with ⟨found, present, inside, member⟩
        have below : ∀ (index : Nat) (owner : MemorySet), world.spaces[index]? = some owner ->
            ∀ key', Place.page index key ≠ .page flat.count key' := by
          intro index owner owned key' same
          have small := (List.getElem?_eq_some_iff.mp owned).1
          rw [(Place.page.inj same).1, represents.count_eq] at small
          exact lt_irrefl _ small
        rcases forks.getElem_cases present with ⟨rfl, rfl⟩ | ⟨rfl, rfl⟩ | ⟨_, old⟩
        · refine ⟨.page space key, forks.child_shown inside member, ?_⟩
          rw [<- represents.count_eq]
          exact congrFun (update_self _ _ _) key
        · unfold openSlots at inside
          rw [forks.forked.parent_areas] at inside
          rw [forks.parent_records] at member
          exact ⟨.page other key, ⟨set, forks.found, inside, member⟩,
            flat.view_fork_other other (below other set forks.found)⟩
        · exact ⟨.page other key, ⟨found, old, inside, member⟩, flat.view_fork_other space (below other found old)⟩
    · intro place frame shown
      rw [devices_eq]
      apply content_congr
      rintro ppn rfl
      exact forks.memory_eq (fun given => free ppn given place shown.refers)

/-! ## The page cache -/

theorem Represents.cacheIn {page : Page} (free : world.Free ppn) :
    Represents { world.write ppn page with held := ppn :: world.held } flat := by
  refine ⟨represents.valid.cacheIn free, represents.count_eq, represents.plain, represents.sound, ?_, ?_⟩
  · intro place frame refers
    cases place with
    | page space key => exact represents.keeps (.page space key) frame refers
    | outside =>
      rcases refers with ⟨other, rfl, _⟩
      exact trivial
  · intro place frame shown
    have before : world.Shown place frame := shown
    have kept : world.devices.content (Function.update world.memory ppn page) frame =
        world.devices.content world.memory frame := by
      apply content_congr
      rintro other rfl
      apply update_of_ne
      rintro rfl
      exact free place before.refers
    exact kept.trans (represents.views place frame before)

theorem Represents.cacheOut : Represents { world with held := world.held.erase ppn } flat := by
  refine ⟨represents.valid.cacheOut, represents.count_eq, represents.plain, represents.sound, ?_, represents.views⟩
  intro place frame refers
  cases place with
  | page space key => exact represents.keeps (.page space key) frame refers
  | outside =>
    rcases refers with ⟨_, rfl, _⟩
    exact trivial

/-! ## Runs -/

theorem Represents.step {event : Event} (taken : Step world event after) :
    Represents after (flat.step event) := by
  cases event with
  | fork space frames => exact represents.fork taken.1 taken.2
  | fault space addr env => exact represents.fault taken
  | store space addr byte => exact represents.store taken.2
  | load space addr byte =>
    rcases taken with ⟨_, done⟩
    dsimp only [exec] at done
    split at done
    · cases done
      exact represents
    · cases done
  | exit space => exact represents.exit taken.2
  | shallowClean space envs => exact represents.reclaim (fun set => doShallowClean_cleaned set envs) taken.2
  | deepClean space envs => exact represents.reclaim (fun set => doDeepClean_cleaned set envs) taken.2
  | cacheIn ppn page =>
    rcases taken with ⟨free, done⟩
    cases done
    exact represents.cacheIn free
  | cacheOut ppn =>
    rcases taken with ⟨_, done⟩
    dsimp only [exec] at done
    split at done
    · cases done
      exact represents.cacheOut
    · cases done

omit represents

/-- The bytes at the start: what the frame of a page has, and zero where there is none. -/
def initialFlat (world : World) : Flat where
  count := world.spaces.length
  pages := fun space key =>
    match world.spaces[space]?.bind (fun set => set.records.lookup key) with
    | none => Page.zero
    | some frame => world.devices.content world.memory frame

theorem Starts.initial (starts : Starts world set) (plain : Plain set) (sound : world.devices.zram.Sound)
    (keeps : ∀ record ∈ set.records, world.devices.Keeps record.2) : Represents world world.initialFlat := by
  refine ⟨starts.valid, rfl, ?_, sound, ?_, ?_⟩
  · intro space found present
    rcases starts.getElem_iff.mp present with ⟨_, rfl⟩
    exact plain
  · intro place frame refers
    cases place with
    | page space key =>
      rcases refers_page_iff.mp refers with ⟨found, present, member⟩
      rcases starts.getElem_iff.mp present with ⟨_, rfl⟩
      exact keeps _ member
    | outside =>
      rcases refers with ⟨_, rfl, _⟩
      exact trivial
  · intro place frame shown
    cases place with
    | outside => cases shown
    | page space key =>
      rcases shown with ⟨found, present, _, member⟩
      have looked : found.records.lookup key = some frame := by
        cases result : found.records.lookup key with
        | none =>
          have absent := lookup_eq_none_iff.mp result _ member
          simp at absent
        | some other =>
          rcases lookup_eq_some_iff.mp result with ⟨_, _, split, _⟩
          have also : (key, other) ∈ found.records := by
            rw [split]
            exact mem_append_cons_self
          rcases starts.getElem_iff.mp present with ⟨_, rfl⟩
          exact congrArg some (starts.enclosed.consistent.record_unique also member)
      have here : world.initialFlat.view (.page space key) = world.devices.content world.memory frame := by
        simp only [Flat.view, initialFlat, present, bind_some, looked]
      exact here.symm

theorem load_eq_some (done : world.load space addr = some byte) :
    ∃ set pte, world.spaces[space]? = some set /\
      set.pageTable.findPte (floor addr) = some pte /\ pte.perm.u = true /\ byte = world.memory pte.ppn (pageOffset addr) := by
  rcases bind_eq_some_iff.mp done with ⟨set, found, walked⟩
  rcases bind_eq_some_iff.mp walked with ⟨pte, mapped, loaded⟩
  split at loaded
  · next allowed =>
    rw [Bool.and_eq_true] at allowed
    exact ⟨set, pte, found, mapped, allowed.1, (some.inj loaded).symm⟩
  · cases loaded

include represents

include found

theorem Represents.load_eq (owned : slot (floor addr) ∈ set.slots)
    (done : world.load space addr = some byte) : byte = flat.load space addr := by
  rcases load_eq_some done with ⟨_, _, present, mapped, user, rfl⟩
  rw [found] at present
  cases present
  have member := (represents.valid.enclosed space set found).consistent.record_of_entry owned mapped
  have inside := (represents.plain space set found).mem_openSlots owned mapped user
  have same := represents.views (.page space (slot (floor addr))) _ ⟨set, found, inside, member⟩
  exact congrFun same (pageOffset addr)

/-- The handler brings in a page that is not mapped, if there is a frame for it. -/
theorem Represents.exists_doPageFault (member : area ∈ set.areas)
    (readable : area.mapPerm.r = true) (user : area.mapPerm.u = true) (held : area.Holds (floor addr))
    (unmapped : set.pageTable.findPte (floor addr) = none) (given : env.frame = some ppn) :
    ∃ answer next content,
      set.doPageFault addr env = .ok (.ok answer, next, content) := by
  have consistent := (represents.valid.enclosed space set found).consistent
  have chosen : (faultArea set.areas (floor addr)).isSome = true := by
    unfold faultArea
    rw [findIdx?_isSome, List.any_eq_true]
    refine ⟨area, member, ?_⟩
    simp only [readable, user, Bool.true_and, decide_eq_true_eq]
    exact held
  rcases isSome_iff_exists.mp chosen with ⟨_, picked⟩
  rcases faultArea_holds picked with ⟨first, present, _, firstHeld⟩
  have firstMember := mem_of_getElem? present
  have anonymous := (represents.plain space set found).anonymous first firstMember
  rcases firstHeld.exists_frame with ⟨frame, record⟩
  have agrees := (consistent.areaSound firstMember).agrees _ frame record
  rcases faultIn_anonymous record agrees anonymous unmapped given with ⟨_, _, content, handled⟩
  unfold MemorySet.doPageFault
  simp only [picked, present, handled]
  exact ⟨_, _, content, rfl⟩

omit represents

variable (kept : ∀ frame ∈ content.dropped, world.devices.Keeps frame)

omit found

include kept

theorem exists_fill : ∃ filled, world.fill content = some filled := by
  cases content with
  | unzip id ppn =>
    rcases isSome_iff_exists.mp (kept (.compressed id) mem_cons_self) with ⟨page, stored⟩
    refine ⟨world.write ppn page, ?_⟩
    change (world.devices.zram.get id).toOption.map (world.write ppn) = _
    rw [Zram.get_eq_ok_iff.mpr stored]
    rfl
  | none | zero ppn | copy source target | swapIn id ppn | file ino offset ppn => exact ⟨_, rfl⟩

theorem exists_release : ∃ after, world.release content.dropped = some after := by
  cases content with
  | unzip id ppn =>
    rcases exists_drop_singleton (kept (.compressed id) mem_cons_self) (world.trackers.map Prod.snd) with
      ⟨devices, dropped⟩
    exact ⟨_, Option.map_eq_some_iff.mpr ⟨devices, dropped, rfl⟩⟩
  | swapIn id ppn =>
    rcases exists_drop_singleton (kept (.swappedOut id) mem_cons_self) (world.trackers.map Prod.snd) with
      ⟨devices, dropped⟩
    exact ⟨_, Option.map_eq_some_iff.mpr ⟨devices, dropped, rfl⟩⟩
  | none | zero ppn | copy source target | file ino offset ppn => exact ⟨_, rfl⟩

omit kept

/-- The trackers that a fault gives up are those of the page. -/
theorem dropped_of_placed (placed : area.Placed owner.pageTable vpn env old ppn content) (given : frame ∈ content.dropped) :
    frame = old := by
  cases placed with
  | unzipped _ _ | swappedIn _ _ => exact mem_singleton.mp given
  | upgraded _ _ | copied _ _ _ | zeroed _ _ | loaded _ _ _ | cached _ _ _ => cases given

include found in
include represents in
/-- A page that is not mapped is brought back by one fault, with the bytes it had. -/
theorem Represents.load_after_fault (member : area ∈ set.areas)
    (readable : area.mapPerm.r = true) (user : area.mapPerm.u = true) (held : area.Holds (floor addr))
    (unmapped : set.pageTable.findPte (floor addr) = none) (truthful : world.Truthful (.fault space addr env))
    (given : env.frame = some ppn) :
    ∃ after, Step world (.fault space addr env) after /\
      after.load space addr = some (flat.load space addr) := by
  have consistent := (represents.valid.enclosed space set found).consistent
  rcases represents.exists_doPageFault found member readable user held unmapped given with
    ⟨_, next, content, handled⟩
  rcases consistent.doPageFault_cases handled with
    ⟨⟨_, wrong⟩, _⟩ | ⟨first, firstMember, _, firstHeld, old, frame, _, placed, update⟩
  · cases wrong
  · have kept : ∀ frame ∈ content.dropped, world.devices.Keeps frame := by
      intro frame dropped
      rw [dropped_of_placed placed dropped]
      exact represents.keeps (.page space _) old (refers_page_iff.mpr ⟨set, found, update.old_mem⟩)
    have filling : ∃ filled, (world.withSpace space next).fill content = some filled := exists_fill kept
    rcases filling with ⟨filled, filled_eq⟩
    have devices_eq : filled.devices = world.devices := by
      rw [fill_eq_some filled_eq]
      rfl
    rcases exists_release (devices_eq ▸ kept) with ⟨after, released⟩
    have done : world.exec (.fault space addr env) = some after := by
      change world.fault space addr env = some after
      unfold World.fault
      rw [found, bind_some]
      simp only [handled, filled_eq, bind_some, released]
    have taken : Step world (.fault space addr env) after := ⟨truthful, done⟩
    have same := consistent.eq_of_holds firstMember member firstHeld held
    subst same
    have faulted : Faulted world space addr env set next content filled after :=
      ⟨found, ⟨_, handled⟩, filled_eq, released⟩
    have present := faulted.replaces.getElem_self
    have entry : next.pageTable.findPte (floor addr) = some ⟨frame, first.mapPerm⟩ := by
      rw [update.table_eq, PageTable.findPte_set_same]
    have loaded : after.load space addr = some (after.memory frame (pageOffset addr)) := by
      unfold load
      rw [present, bind_some, entry, bind_some, readable, user]
      rfl
    have owned : slot (floor addr) ∈ next.slots := by
      rw [slots_eq_of_shapes update.shapes_eq]
      exact mem_slots_of_mem_records update.old_mem
    refine ⟨after, taken, ?_⟩
    rw [loaded, (represents.fault taken).load_eq present owned loaded]

/-- What a program loads is what the flat memory has, and a page that is not mapped is
brought back by a fault, as soon as there is a frame for it. -/
structure Transparent (flat : Flat) (world : World) : Prop where
  loads : ∀ (space : Nat) (set : MemorySet) (addr byte : Nat), world.spaces[space]? = some set ->
    slot (floor addr) ∈ set.slots -> world.load space addr = some byte -> byte = flat.load space addr
  returns : ∀ (space : Nat) (set : MemorySet) (area : MapArea) (addr ppn : Nat) (env : FaultEnv),
    world.spaces[space]? = some set -> area ∈ set.areas -> area.mapPerm.r = true -> area.mapPerm.u = true ->
    area.Holds (floor addr) -> set.pageTable.findPte (floor addr) = none ->
    world.Truthful (.fault space addr env) -> env.frame = some ppn ->
    ∃ after, Step world (.fault space addr env) after /\
      after.load space addr = some (flat.load space addr)

/-- In every run from a space with anonymous areas, loads return the bytes of the flat
memory that the stores and forks of the run give. -/
theorem transparent_in_every_run {start : World} {events : List Event} (starts : Starts start set) (plain : Plain set)
    (sound : start.devices.zram.Sound) (keeps : ∀ record ∈ set.records, start.devices.Keeps record.2)
    (run : Trace Step start events world) : Transparent (events.foldl Flat.step start.initialFlat) world := by
  have represents : Represents world (events.foldl Flat.step start.initialFlat) := by
    apply run.invariant (starts.initial plain sound keeps)
    intro earlier before event after kept taken
    rw [foldl_append]
    exact kept.step taken
  refine ⟨?_, ?_⟩
  · intro space set addr byte found owned done
    exact represents.load_eq found owned done
  · intro space set area addr ppn env found member readable user held unmapped truthful given
    exact represents.load_after_fault found member readable user held unmapped truthful given

/-- A byte is stored, its page compressed, the space forked and the page brought back for
the child. -/
def putAsideAndFork : List Event :=
  [.store 0 0xbff00000 7, .deepClean 0 (fun _ _ => ⟨1, some 0, some 0⟩), .fork 0 [20],
    .fault 1 0xbff00000 ⟨some 21, 1, 0, none⟩]

theorem transparent_after_putting_aside :
    ∃ set world, Starts (single set) set /\ Plain set /\
      Trace Step (single set) putAsideAndFork world /\
      (putAsideAndFork.foldl Flat.step (single set).initialFlat).load 1 0xbff00000 = 7 /\
      world.load 1 0xbff00000 = some 7 /\
      Transparent (putAsideAndFork.foldl Flat.step (single set).initialFlat) world := by
  have running : ∃ set stored cleaned forked world,
      loadSmallProgram = .ok set /\
      Step (single set) (.store 0 0xbff00000 7) stored /\
      Step stored (.deepClean 0 (fun _ _ => ⟨1, some 0, some 0⟩)) cleaned /\
      Step cleaned (.fork 0 [20]) forked /\
      Step forked (.fault 1 0xbff00000 ⟨some 21, 1, 0, none⟩) world /\
      (putAsideAndFork.foldl Flat.step (single set).initialFlat).load 1 0xbff00000 = 7 /\
      world.load 1 0xbff00000 = some 7 /\
      (∀ record ∈ set.records, record.2.ppn?.isSome = true) /\ Plain set :=
    ⟨_, _, _, _, _, rfl, ⟨trivial, rfl⟩, ⟨trivial, rfl⟩, .fork_one (of_decide_eq_true rfl) rfl,
      .fault_one (of_decide_eq_true rfl) rfl rfl, rfl, rfl, of_decide_eq_true rfl, of_decide_eq_true rfl⟩
  rcases running with ⟨set, stored, cleaned, forked, world, loaded, store, clean, fork, fault, flat_eq, load_eq,
    resident, plain⟩
  have starts : Starts (single set) set := .of_loaded loaded
  have keeps : ∀ record ∈ set.records, (single set).devices.Keeps record.2 := by
    intro record member
    rcases isSome_iff_exists.mp (resident record member) with ⟨ppn, here⟩
    rw [frame_of_ppn here]
    exact trivial
  have run : Trace Step (single set) putAsideAndFork world :=
    .snoc (.snoc (.snoc (.snoc .nil store) clean) fork) fault
  have sound : (single set).devices.zram.Sound := Zram.Sound.new (by decide)
  exact ⟨set, world, starts, plain, run, flat_eq, load_eq, transparent_in_every_run starts plain sound keeps run⟩

end World

end GCore.Mm
