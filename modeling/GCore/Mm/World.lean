import GCore.Library.Sharing
import GCore.Mm.Fork
import GCore.Mm.Stores

namespace GCore.Mm

open Library MemorySet PageTable List Option GCore.Mm.Frame

/-!
# All spaces together

A world is a number of user spaces over one memory, with the stores for pages that are
put aside and the frames that the page cache holds on to.  Its events are what user
programs do (they load, store, fork and exit), the page faults that the kernel resolves
for them, the reclaim passes, and the page cache taking up and giving up frames.  A load
or a store goes through the page table of the space; where the table does not allow it
the program faults, and tries again when the fault is resolved.

What the kernel asks of its surroundings is answered truthfully: the allocator hands out
frames that nothing refers to, the page cache hands out frames that it holds, and the
strong count of a tracker is the number of its copies.
-/

/-- `size_of::<TrapContext>()` -/
def trapContextSize : Nat := 560

structure World where
  spaces : List MemorySet
  memory : Nat -> Page
  devices : Devices
  /-- the frames that have a tracker outside of the areas -/
  held : List Nat
  /-- what a file has at a position -/
  files : Nat -> Nat -> Page
  trampolinePpn : Nat
  signalPpn : Nat

/-- Where a tracker can be: with a page of a space, known by its entry, or elsewhere. -/
inductive Place where
  | page (space key : Nat)
  | outside
  deriving DecidableEq, Repr

/-- The trackers that a fault gives up. -/
def Fill.dropped : Fill -> List Frame
  | .unzip id _ => [.compressed id]
  | .swapIn id _ => [.swappedOut id]
  | _ => []

/-- A space that is gone: `recycle_data_pages` drops the areas, and nothing runs on the
table any more. -/
def MemorySet.gone : MemorySet := ⟨PageTable.new, []⟩

namespace World

/-! ## References -/

def trackers (world : World) : List ((Nat × Nat) × Frame) :=
  world.spaces.zipIdx.flatMap
    (fun space => space.1.records.map (fun record => ((space.2, record.1), record.2)))

/-- `Arc::strong_count` of the tracker of a frame. -/
def strongCount (world : World) (ppn : Nat) : Nat :=
  (world.trackers.filter (fun tracker => decide (tracker.2 = .inMemory ppn))).length + world.held.count ppn

def Refers (world : World) : Place -> Frame -> Prop
  | .page space key, frame => ((space, key), frame) ∈ world.trackers
  | .outside, frame => ∃ ppn, frame = .inMemory ppn /\
      (ppn ∈ world.held \/ ppn = world.trampolinePpn \/ ppn = world.signalPpn)

/-- The table of the space has an entry that allows writing to the frame. -/
def Writes (world : World) : Place -> Frame -> Prop
  | .page space key, frame => ∃ set vpn pte,
    world.spaces[space]? = some set /\ slot vpn = key /\ set.pageTable.findPte vpn = some pte /\
      pte.perm.w = true /\ frame = .inMemory pte.ppn
  | .outside, _ => False

/-- Nothing refers to the frame. -/
def Free (world : World) (ppn : Nat) : Prop := ∀ place, ¬ world.Refers place (.inMemory ppn)

variable {ppn trampolinePpn signalPpn vpn addr : Nat} {place : Place} {old cell : Frame} {entry : Option Pte}
  {env : FaultEnv}

theorem free_iff {world : World} : world.Free ppn ↔
    (∀ tracker ∈ world.trackers, tracker.2 ≠ .inMemory ppn) /\ ppn ∉ world.held /\
      ppn ≠ world.trampolinePpn /\ ppn ≠ world.signalPpn := by
  constructor
  · intro free
    refine ⟨?_, ?_, ?_, ?_⟩
    · rintro ⟨⟨space, key⟩, _⟩ member rfl
      exact free (.page space key) member
    · intro held
      exact free .outside ⟨ppn, rfl, .inl held⟩
    · intro same
      exact free .outside ⟨ppn, rfl, .inr (.inl same)⟩
    · intro same
      exact free .outside ⟨ppn, rfl, .inr (.inr same)⟩
  · rintro ⟨untracked, unheld, apart⟩ place refers
    cases place with
    | page space key => exact untracked _ refers rfl
    | outside =>
      rcases refers with ⟨_, same, held | trampoline | signal⟩
      · exact unheld (inMemory.inj same ▸ held)
      · exact apart.1 (inMemory.inj same ▸ trampoline)
      · exact apart.2 (inMemory.inj same ▸ signal)

instance (world : World) (ppn : Nat) : Decidable (world.Free ppn) := decidable_of_iff _ free_iff.symm

/-! ## Events -/

section Events

variable (world : World) (space : Nat)

def write (ppn : Nat) (page : Page) : World :=
  { world with memory := Function.update world.memory ppn page }

/-- Put a content into its frame; a compressed page that is missing fails an `unwrap`. -/
def fill : Fill -> Option World
  | .none => some world
  | .zero ppn => some (world.write ppn Page.zero)
  | .copy source target => some (world.write target (world.memory source))
  | .unzip id ppn => (world.devices.zram.get id).toOption.map (world.write ppn)
  | .swapIn id ppn => some (world.write ppn ((world.devices.swap.read id).getD Page.zero))
  | .file ino offset ppn => some (world.write ppn (world.files ino offset))

def withDevices (devices : Devices) : World := { world with devices := devices }

/-- Drop trackers, when the spaces have given them up. -/
def release (frames : List Frame) : Option World :=
  (world.devices.drop (world.trackers.map Prod.snd) frames).map world.withDevices

def withSpace (set : MemorySet) : World :=
  { world with spaces := world.spaces.set space set }

/-- A page fault of a space at an address. -/
def fault (addr : Nat) (env : FaultEnv) : Option World :=
  world.spaces[space]?.bind (fun set =>
    match set.doPageFault addr env with
    | .error _ => none
    | .ok (_, next, content) =>
      ((world.withSpace space next).fill content).bind (fun after => after.release content.dropped))

/-- The first bytes of a frame are copied to another one. -/
def copyTrapContext (memory : Nat -> Page) : Fill -> Nat -> Page
  | .copy source target =>
    Function.update memory target
      (fun offset => if offset < trapContextSize then memory source offset else memory target offset)
  | _ => memory

/-- The child is the last space. -/
def fork (frames : List Nat) : Option World :=
  world.spaces[space]?.bind (fun set =>
    match set.fromExistingUser world.trampolinePpn world.signalPpn frames with
    | .error _ => none
    | .ok (parent, child, content) =>
      some { world with
        spaces := world.spaces.set space parent ++ [child]
        memory := copyTrapContext world.memory content })

/-- A store that the table allows. -/
def store (addr byte : Nat) : Option World :=
  world.spaces[space]?.bind (fun set =>
    (set.pageTable.findPte (floor addr)).bind (fun pte =>
      if pte.perm.u && pte.perm.w then
        some (world.write pte.ppn ((world.memory pte.ppn).set (pageOffset addr) byte))
      else none))

/-- A load that the table allows. -/
def load (addr : Nat) : Option Nat :=
  world.spaces[space]?.bind (fun set =>
    (set.pageTable.findPte (floor addr)).bind (fun pte =>
      if pte.perm.u && pte.perm.r then some (world.memory pte.ppn (pageOffset addr)) else none))

def exit : Option World :=
  world.spaces[space]?.bind (fun set =>
    (world.withSpace space MemorySet.gone).release (set.records.map Prod.snd))

/-- A reclaim pass over a space.  The pass gets its identifiers from the stores. -/
def reclaim (pass : MemorySet -> Nat × MemorySet × List Store) : Option World :=
  world.spaces[space]?.bind (fun set =>
    (world.devices.putAside world.memory (pass set).2.2).map (world.withSpace space (pass set).2.1).withDevices)

end Events

inductive Event where
  | fork (space : Nat) (frames : List Nat)
  | fault (space addr : Nat) (env : FaultEnv)
  | store (space addr byte : Nat)
  /-- with the byte that is returned -/
  | load (space addr byte : Nat)
  | exit (space : Nat)
  | shallowClean (space : Nat) (envs : Nat -> Nat -> ReclaimEnv)
  | deepClean (space : Nat) (envs : Nat -> Nat -> ReclaimEnv)
  | cacheIn (ppn : Nat) (page : Page)
  | cacheOut (ppn : Nat)

def exec (world : World) : Event -> Option World
  | .fork space frames => world.fork space frames
  | .fault space addr env => world.fault space addr env
  | .store space addr byte => world.store space addr byte
  | .load space addr byte => if world.load space addr = some byte then some world else none
  | .exit space => world.exit space
  | .shallowClean space envs => world.reclaim space (fun set => set.doShallowClean envs)
  | .deepClean space envs => world.reclaim space (fun set => set.doDeepClean envs)
  | .cacheIn ppn page => some { world.write ppn page with held := ppn :: world.held }
  | .cacheOut ppn => if ppn ∈ world.held then some { world with held := world.held.erase ppn } else none

/-- The answers that the event carries are true. -/
def Truthful (world : World) : Event -> Prop
  | .fork _ frames => ∀ ppn ∈ frames, world.Free ppn
  | .fault space addr env =>
    (∀ ppn, env.frame = some ppn -> world.Free ppn) /\
    (∀ ppn, env.cachePage = some ppn -> ppn ∈ world.held) /\
    ∀ (set : MemorySet) (pte : Pte), world.spaces[space]? = some set -> set.pageTable.findPte (floor addr) = some pte ->
      env.strongCount = world.strongCount pte.ppn
  | .cacheIn ppn _ => world.Free ppn
  | _ => True

def Step (before : World) (event : Event) (after : World) : Prop :=
  before.Truthful event /\ before.exec event = some after

/-! ## Well-formed worlds -/

/-- The areas of a space agree with its table and leave the trampolines alone, and the
table has nothing else than the pages of the areas and the trampolines. -/
structure Enclosed (trampolinePpn signalPpn : Nat) (set : MemorySet) : Prop where
  consistent : MemorySet.Consistent set
  vacant : slot (floor trampoline) ∉ set.slots /\ slot (floor signalTrampoline) ∉ set.slots
  closed : ∀ vpn pte, set.pageTable.findPte vpn = some pte -> slot vpn ∉ set.slots ->
    pte.perm.w = false /\ (pte.ppn = trampolinePpn \/ pte.ppn = signalPpn)

structure Valid (world : World) : Prop where
  enclosed : ∀ (space : Nat) (set : MemorySet), world.spaces[space]? = some set ->
    Enclosed world.trampolinePpn world.signalPpn set
  apart : ∀ ppn, (ppn ∈ world.held \/ ∃ space key,
    world.Refers (.page space key) (.inMemory ppn)) -> ppn ≠ world.trampolinePpn /\ ppn ≠ world.signalPpn
  exclusive : Exclusive world.Writes world.Refers

variable {world after : World} {space key : Nat} {set next : MemorySet} {frame : Frame}

theorem refers_page_iff : world.Refers (.page space key) frame ↔
    ∃ set, world.spaces[space]? = some set /\ (key, frame) ∈ set.records := by
  unfold Refers
  dsimp only
  unfold trackers
  rw [mem_flatMap]
  constructor
  · rintro ⟨⟨set, _⟩, numbered, member⟩
    rcases mem_map.mp member with ⟨⟨_, _⟩, present, same⟩
    cases same
    exact ⟨set, mem_zipIdx_iff_getElem?.mp numbered, present⟩
  · rintro ⟨set, found, member⟩
    refine ⟨(set, space), mem_zipIdx_iff_getElem?.mpr found, ?_⟩
    exact mem_map.mpr ⟨(key, frame), member, rfl⟩

variable (valid : Valid world)

include valid in
/-- A tracker that is counted once has one place. -/
theorem Valid.sole_of_strongCount (one : world.strongCount ppn = 1)
    (refers : world.Refers (.page space key) (.inMemory ppn)) (place : Place)
    (also : world.Refers place (.inMemory ppn)) : place = .page space key := by
  have here : ((space, key), inMemory ppn) ∈
      world.trackers.filter (fun tracker => decide (tracker.2 = .inMemory ppn)) :=
    mem_filter.mpr ⟨refers, decide_eq_true rfl⟩
  have positive := length_pos_of_mem here
  unfold strongCount at one
  cases place with
  | page otherSpace otherKey =>
    have there : ((otherSpace, otherKey), inMemory ppn) ∈
        world.trackers.filter (fun tracker => decide (tracker.2 = .inMemory ppn)) :=
      mem_filter.mpr ⟨also, decide_eq_true rfl⟩
    have single : (world.trackers.filter (fun tracker => decide (tracker.2 = .inMemory ppn))).length = 1 := by omega
    rcases length_eq_one_iff.mp single with ⟨tracker, only⟩
    rw [only, mem_singleton] at here there
    have same := there.trans here.symm
    cases same
    rfl
  | outside =>
    rcases also with ⟨_, same, somewhere⟩
    cases same
    have separate := valid.apart ppn (.inr ⟨space, key, refers⟩)
    rcases somewhere with held | trampoline | signal
    · have counted := count_pos_iff.mpr held
      omega
    · cases separate.1 trampoline
    · cases separate.2 signal

theorem Free.apart (free : world.Free ppn) : ppn ≠ world.trampolinePpn /\ ppn ≠ world.signalPpn :=
  (free_iff.mp free).2.2

include valid in
/-- An entry that allows writing belongs to a page of an area. -/
theorem Valid.backed (place : Place) (frame : Frame) (writes : world.Writes place frame) :
    world.Refers place frame := by
  cases place with
  | outside => cases writes
  | page space key =>
    rcases writes with ⟨set, vpn, pte, found, rfl, entry, writable, rfl⟩
    have enclosed := valid.enclosed space set found
    have owned : slot vpn ∈ set.slots := by
      by_contra outside
      rw [(enclosed.closed vpn pte entry outside).1] at writable
      cases writable
    exact refers_page_iff.mpr ⟨set, found, enclosed.consistent.record_of_entry owned entry⟩

/-! ## Changes of one space -/

/-- One space is replaced; memory and stores may be anything. -/
structure Replaces (world : World) (space : Nat) (set next : MemorySet) (after : World) : Prop where
  found : world.spaces[space]? = some set
  spaces_eq : after.spaces = world.spaces.set space next
  held_eq : after.held = world.held
  trampoline_eq : after.trampolinePpn = world.trampolinePpn
  signal_eq : after.signalPpn = world.signalPpn

variable {pass : MemorySet -> Nat × MemorySet × List Store} {other : Nat}

namespace Replaces

variable (replaces : Replaces world space set next after)

include replaces

theorem getElem_self : after.spaces[space]? = some next := by
  rw [replaces.spaces_eq]
  exact List.getElem?_set_self (List.getElem?_eq_some_iff.mp replaces.found).1

theorem getElem_other (different : other ≠ space) : after.spaces[other]? = world.spaces[other]? := by
  rw [replaces.spaces_eq]
  exact getElem?_set_ne (Ne.symm different)

theorem refers_self (key : Nat) (frame : Frame) :
    after.Refers (.page space key) frame ↔ (key, frame) ∈ next.records := by
  rw [refers_page_iff, replaces.getElem_self]
  simp only [some.injEq, exists_eq_left']

theorem refers_before (key : Nat) (frame : Frame) :
    world.Refers (.page space key) frame ↔ (key, frame) ∈ set.records := by
  rw [refers_page_iff, replaces.found]
  simp only [some.injEq, exists_eq_left']

theorem writes_self (key : Nat) (frame : Frame) : after.Writes (.page space key) frame ↔
    ∃ vpn pte, slot vpn = key /\ next.pageTable.findPte vpn = some pte /\
      pte.perm.w = true /\ frame = .inMemory pte.ppn := by
  unfold Writes
  dsimp only
  rw [replaces.getElem_self]
  constructor
  · rintro ⟨_, vpn, pte, same, details⟩
    cases same
    exact ⟨vpn, pte, details⟩
  · rintro ⟨vpn, pte, details⟩
    exact ⟨next, vpn, pte, rfl, details⟩

/-- A place is a page of the space, or keeps what it refers to and what it may write. -/
theorem place_cases (place : Place) : (∃ key, place = .page space key) \/ ∀ cell,
    (after.Refers place cell ↔ world.Refers place cell) /\ (after.Writes place cell ↔ world.Writes place cell) := by
  cases place with
  | outside =>
    refine .inr fun cell => ⟨?_, Iff.rfl⟩
    simp only [Refers, replaces.held_eq, replaces.trampoline_eq, replaces.signal_eq]
  | page other key =>
    by_cases same : other = space
    · exact .inl ⟨key, same ▸ rfl⟩
    · refine .inr fun cell => ⟨?_, ?_⟩
      · rw [refers_page_iff, refers_page_iff, replaces.getElem_other same]
      · simp only [Writes, replaces.getElem_other same]

/-- A space that gives up records gives up references. -/
theorem refers_of_fewer (fewer : next.records ⊆ set.records) (refers : after.Refers place frame) :
    world.Refers place frame := by
  rcases replaces.place_cases place with ⟨key, rfl⟩ | elsewhere
  · exact (replaces.refers_before key frame).mpr (fewer ((replaces.refers_self key frame).mp refers))
  · exact (elsewhere frame).1.mp refers

/-- The other spaces stay as they are. -/
theorem each {holds : MemorySet -> Prop}
    (all : ∀ (other : Nat) (found : MemorySet), world.spaces[other]? = some found -> holds found)
    (here : holds next) (other : Nat) (found : MemorySet) (present : after.spaces[other]? = some found) :
    holds found := by
  by_cases same : other = space
  · subst same
    rw [replaces.getElem_self] at present
    cases present
    exact here
  · rw [replaces.getElem_other same] at present
    exact all other found present

include valid

theorem enclosed (here : Enclosed world.trampolinePpn world.signalPpn next) (other : Nat)
    (found : MemorySet) (present : after.spaces[other]? = some found) :
    Enclosed after.trampolinePpn after.signalPpn found := by
  rw [replaces.trampoline_eq, replaces.signal_eq]
  exact replaces.each valid.enclosed here other found present

/-- Frames that come to be referred to must not be those of the trampolines. -/
theorem apart (new : ∀ key ppn, (key, .inMemory ppn) ∈ next.records -> (key, .inMemory ppn) ∈ set.records \/
      ppn ∈ world.held \/ world.Free ppn) (ppn : Nat)
    (used : ppn ∈ after.held \/ ∃ other key, after.Refers (.page other key) (.inMemory ppn)) :
    ppn ≠ after.trampolinePpn /\ ppn ≠ after.signalPpn := by
  rw [replaces.trampoline_eq, replaces.signal_eq]
  rcases used with held | ⟨other, key, refers⟩
  · exact valid.apart ppn (.inl (replaces.held_eq ▸ held))
  · rcases replaces.place_cases (.page other key) with ⟨key, same⟩ | elsewhere
    · cases same
      rcases new key ppn ((replaces.refers_self key _).mp refers) with old | held | free
      · exact valid.apart ppn (.inr ⟨space, key, (replaces.refers_before key _).mpr old⟩)
      · exact valid.apart ppn (.inl held)
      · exact free.apart
    · exact valid.apart ppn (.inr ⟨other, key, (elsewhere _).1.mp refers⟩)

end Replaces

open MemorySet

theorem Enclosed.rearranged (enclosed : Enclosed trampolinePpn signalPpn set)
    (rearranged : Rearranged set next) : Enclosed trampolinePpn signalPpn next := by
  have slots_eq := slots_eq_of_shapes rearranged.shapes_eq
  refine ⟨rearranged.consistent, ?_, ?_⟩
  · rw [slots_eq]
    exact enclosed.vacant
  · rw [slots_eq, rearranged.table_eq]
    exact enclosed.closed

theorem Enclosed.update
    (enclosed : Enclosed trampolinePpn signalPpn set) (update : PageUpdate set vpn old frame entry next) :
    Enclosed trampolinePpn signalPpn next := by
  have slots_eq := slots_eq_of_shapes update.shapes_eq
  refine ⟨update.consistent, ?_, ?_⟩
  · rw [slots_eq]
    exact enclosed.vacant
  · intro other pte mapped outside
    rw [slots_eq] at outside
    have different : slot other ≠ slot vpn := by
      intro same
      exact outside (same ▸ mem_slots_of_mem_records update.old_mem)
    rw [update.table_eq, findPte_set_of_ne different] at mapped
    exact enclosed.closed other pte mapped outside

include valid

/-- A space may give up records and entries. -/
theorem Valid.fewer (replaces : Replaces world space set next after)
    (here : Enclosed world.trampolinePpn world.signalPpn next) (fewer : next.records ⊆ set.records)
    (entries : ∀ vpn pte, next.pageTable.findPte vpn = some pte -> set.pageTable.findPte vpn = some pte) :
    Valid after := by
  refine ⟨replaces.enclosed valid here, replaces.apart valid fun _ _ member => .inl (fewer member), ?_⟩
  refine valid.exclusive.mono (fun place cell writes => ?_) fun _ _ => replaces.refers_of_fewer fewer
  rcases replaces.place_cases place with ⟨key, rfl⟩ | elsewhere
  · rcases (replaces.writes_self key cell).mp writes with ⟨vpn, pte, same, entry, details⟩
    exact ⟨set, vpn, pte, replaces.found, same, entries vpn pte entry, details⟩
  · exact (elsewhere cell).2.mp writes

theorem Valid.rearranged (replaces : Replaces world space set next after)
    (rearranged : Rearranged set next) : Valid after := by
  have enclosed := valid.enclosed space set replaces.found
  apply valid.fewer replaces (enclosed.rearranged rearranged) rearranged.records_subset
  rw [rearranged.table_eq]
  exact fun _ _ entry => entry

omit valid

theorem frame_of_ppn {frame : Frame} (resident : frame.ppn? = some ppn) : frame = .inMemory ppn := by
  cases frame with
  | inMemory other =>
    cases resident
    rfl
  | compressed id | swappedOut id | unallocated => cases resident

variable {content : Fill} {frames : List Nat}

section

variable (replaces : Replaces world space set next after)

include replaces

/-- Where the entries that allow writing come from, after a change of one page. -/
theorem Replaces.writes_cases (update : PageUpdate set vpn old frame entry next) (writes : after.Writes place cell) :
    (place = .page space (slot vpn) /\ cell = frame /\ ∃ pte, entry = some pte /\ pte.perm.w = true) \/
      world.Writes place cell := by
  rcases replaces.place_cases place with ⟨key, rfl⟩ | elsewhere
  · rcases (replaces.writes_self key cell).mp writes with ⟨page, pte, rfl, mapped, writable, rfl⟩
    rw [update.table_eq] at mapped
    by_cases same : slot page = slot vpn
    · rw [findPte_set_of_slot same] at mapped
      have resident : frame.ppn? = some pte.ppn := by
        rw [<- update.entry_eq, mapped]
        rfl
      exact .inl ⟨same ▸ rfl, (frame_of_ppn resident).symm, pte, mapped, writable⟩
    · rw [findPte_set_of_ne same] at mapped
      exact .inr ⟨set, page, pte, replaces.found, rfl, mapped, writable, rfl⟩
  · exact .inr ((elsewhere cell).2.mp writes)

theorem Replaces.refers_iff (update : PageUpdate set vpn old frame entry next) (place : Place) (cell : Frame) :
    after.Refers place cell ↔ if place = .page space (slot vpn) then cell = frame else world.Refers place cell := by
  by_cases here : ∃ key, place = .page space key
  · rcases here with ⟨key, rfl⟩
    rw [replaces.refers_self, replaces.refers_before, update.mem_iff]
    simp only [Place.page.injEq, true_and]
  · rw [((replaces.place_cases place).resolve_left here cell).1, if_neg fun same => here ⟨_, same⟩]

include valid

/-- One page turns to another frame.  If the new entry allows writing, nothing else may
refer to the frame, and nobody else may write to it in any case. -/
theorem Valid.update (update : PageUpdate set vpn old frame entry next)
    (known : ∀ ppn, frame = .inMemory ppn -> old = .inMemory ppn \/ ppn ∈ world.held \/ world.Free ppn)
    (unwritten : ∀ other, world.Writes other frame -> other = .page space (slot vpn))
    (sole : ∀ pte, entry = some pte -> pte.perm.w = true ->
      ∀ other, world.Refers other frame -> other = .page space (slot vpn)) : Valid after := by
  refine ⟨?_, ?_, ?_⟩
  · exact replaces.enclosed valid ((valid.enclosed space set replaces.found).update update)
  · apply replaces.apart valid
    intro key ppn member
    have cases := (update.mem_iff key _).mp member
    by_cases same : key = slot vpn
    · rw [if_pos same] at cases
      rcases known ppn cases.symm with old_eq | held | free
      · exact .inl (same ▸ old_eq ▸ update.old_mem)
      · exact .inr (.inl held)
      · exact .inr (.inr free)
    · rw [if_neg same] at cases
      exact .inl cases
  · refine Exclusive.move valid.exclusive ?_ ?_ unwritten ?_
    · intro place cell writes
      rcases replaces.writes_cases update writes with ⟨here, moved, _⟩ | before
      · exact .inl ⟨here, moved⟩
      · exact .inr before
    · intro place cell refers
      rw [replaces.refers_iff update] at refers
      by_cases here : place = .page space (slot vpn)
      · rw [if_pos here] at refers
        exact .inl ⟨here, refers⟩
      · rw [if_neg here] at refers
        exact .inr refers
    · intro writes other refers
      rcases replaces.writes_cases update writes with ⟨_, _, pte, given, writable⟩ | before
      · exact sole pte given writable other refers
      · exact valid.exclusive _ _ before other refers

/-- A frame that nothing refers to may be taken for a page. -/
theorem Valid.update_free {perm : MapPermission}
    (update : PageUpdate set vpn old (.inMemory ppn) (some ⟨ppn, perm⟩) next) (free : world.Free ppn) :
    Valid after := by
  apply valid.update replaces update
  · rintro other same
    cases same
    exact .inr (.inr free)
  · intro other writes
    cases free other (valid.backed other _ writes)
  · intro _ _ _ other refers
    cases free other refers

/-- A page that is put aside. -/
theorem Valid.evict {moved : Frame} {store : Store} (update : PageUpdate set vpn old moved none next)
    (evicted : Evicted old moved store) : Valid after := by
  have aside : ∀ ppn, moved ≠ .inMemory ppn := by
    intro ppn
    cases evicted <;> nofun
  apply valid.update replaces update
  · intro ppn same
    cases aside ppn same
  · intro other writes
    cases other with
    | outside => cases writes
    | page space key =>
      rcases writes with ⟨_, _, pte, _, _, _, _, same⟩
      cases aside pte.ppn same
  · nofun

theorem Valid.placed {area : MapArea}
    (update : PageUpdate set vpn old (.inMemory ppn) (some ⟨ppn, area.mapPerm⟩) next)
    (placed : area.Placed set.pageTable vpn env old ppn content) (free : ∀ ppn, env.frame = some ppn -> world.Free ppn)
    (cached : ∀ ppn, env.cachePage = some ppn -> ppn ∈ world.held)
    (counted : ∀ pte, set.pageTable.findPte vpn = some pte -> env.strongCount = world.strongCount pte.ppn) :
    Valid after := by
  cases placed with
  | upgraded entry alone =>
    have one := (counted _ entry).symm.trans alone
    have refers := (replaces.refers_before _ _).mpr update.old_mem
    apply valid.update replaces update
    · rintro ppn same
      exact .inl same
    · intro other writes
      exact valid.sole_of_strongCount one refers other (valid.backed other _ writes)
    · intro _ _ _ other also
      exact valid.sole_of_strongCount one refers other also
  | copied _ _ given | zeroed _ given | loaded _ _ given | unzipped _ given | swappedIn _ given =>
    exact valid.update_free replaces update (free ppn given)
  | cached _ readOnly given =>
    have held := cached ppn given
    apply valid.update replaces update
    · rintro other same
      cases same
      exact .inr (.inl held)
    · intro other writes
      have wrong := valid.exclusive other _ writes .outside ⟨ppn, rfl, .inl held⟩
      subst wrong
      cases writes
    · intro pte same writable
      cases same
      rw [readOnly] at writable
      cases writable

end

/-! ## Forks -/

/-- A bare space has the two trampolines only. -/
theorem findPte_newUser {pte : Pte}
    (mapped : (newUser trampolinePpn signalPpn).pageTable.findPte vpn = some pte) :
    (slot vpn = slot (floor trampoline) \/ slot vpn = slot (floor signalTrampoline)) /\
      pte.perm.w = false /\ (pte.ppn = trampolinePpn \/ pte.ppn = signalPpn) := by
  unfold newUser at mapped
  by_cases signal : slot vpn = slot (floor signalTrampoline)
  · rw [findPte_set_of_slot signal] at mapped
    cases mapped
    exact ⟨.inr signal, rfl, .inr rfl⟩
  · rw [findPte_set_of_ne signal] at mapped
    by_cases first : slot vpn = slot (floor trampoline)
    · rw [findPte_set_of_slot first] at mapped
      cases mapped
      exact ⟨.inl first, rfl, .inl rfl⟩
    · rw [findPte_set_of_ne first] at mapped
      cases mapped

theorem Enclosed.newUser_vacant (enclosed : Enclosed trampolinePpn signalPpn set)
    (vpn : Nat) (owned : slot vpn ∈ set.slots) : (newUser trampolinePpn signalPpn).pageTable.findPte vpn = none := by
  cases mapped : (newUser trampolinePpn signalPpn).pageTable.findPte vpn with
  | none => rfl
  | some pte =>
    rcases (findPte_newUser mapped).1 with first | signal
    · cases enclosed.vacant.1 (first ▸ owned)
    · cases enclosed.vacant.2 (signal ▸ owned)

/-- A space of a world is forked, and the child put behind the others. -/
structure Forks (world : World) (space : Nat) (frames : List Nat) (set parent child : MemorySet)
    (shared : List MapArea) (last own : MapArea) (content : Fill) (after : World) : Prop where
  found : world.spaces[space]? = some set
  forked : Forked world.trampolinePpn world.signalPpn frames set parent child shared last own content
  after_eq : after = { world with
    spaces := world.spaces.set space parent ++ [child]
    memory := copyTrapContext world.memory content }

include valid in
theorem Valid.forks (done : world.fork space frames = some after) :
    ∃ set parent child shared last own content,
        Forks world space frames set parent child shared last own content after := by
  rcases bind_eq_some_iff.mp done with ⟨set, found, forked⟩
  cases outcome : set.fromExistingUser world.trampolinePpn world.signalPpn frames with
  | error panic => simp [outcome] at forked
  | ok result =>
    rcases result with ⟨parent, child, content⟩
    simp only [outcome, some.injEq] at forked
    have enclosed := valid.enclosed space set found
    rcases fromExistingUser_forked enclosed.consistent enclosed.newUser_vacant outcome with
      ⟨shared, last, own, fork⟩
    exact ⟨set, parent, child, shared, last, own, content, found, fork, forked.symm⟩

namespace Forks

variable {frames : List Nat} {parent child : MemorySet} {shared : List MapArea} {last own : MapArea}
  {content : Fill} (forks : Forks world space frames set parent child shared last own content after)

include forks

theorem getElem_parent : after.spaces[space]? = some parent := by
  have below := (List.getElem?_eq_some_iff.mp forks.found).1
  rw [forks.after_eq]
  rw [getElem?_append_left (by simpa using below)]
  exact getElem?_set_self below

theorem getElem_cases {found : MemorySet} (present : after.spaces[other]? = some found) :
    (other = world.spaces.length /\ found = child) \/ (other = space /\ found = parent) \/
      (other ≠ space /\ world.spaces[other]? = some found) := by
  rw [forks.after_eq] at present
  by_cases below : other < world.spaces.length
  · rw [getElem?_append_left (by simpa using below)] at present
    by_cases same : other = space
    · subst same
      rw [getElem?_set_self below] at present
      cases present
      exact .inr (.inl ⟨rfl, rfl⟩)
    · rw [getElem?_set_ne (Ne.symm same)] at present
      exact .inr (.inr ⟨same, present⟩)
  · rw [getElem?_append_right (by simpa using below), length_set] at present
    rcases List.getElem?_eq_some_iff.mp present with ⟨last, same⟩
    have here : other = world.spaces.length := by
      simp only [length_singleton] at last
      omega
    subst here
    simp only [Nat.sub_self, getElem_cons_zero] at same
    exact .inl ⟨rfl, same.symm⟩

theorem own_slots : own.slots = last.slots := congrArg MapArea.Shape.slots forks.forked.own_shape

theorem set_slots : set.slots = shared.flatMap MapArea.slots ++ last.slots := by
  unfold slots
  rw [forks.forked.areas_eq, flatMap_append, flatMap_singleton]

theorem child_slots : child.slots = set.slots := by
  rw [forks.set_slots, <- forks.own_slots]
  unfold slots
  rw [forks.forked.child_areas, flatMap_append, flatMap_singleton]

theorem parent_records : parent.records = set.records := by
  unfold records
  rw [forks.forked.parent_areas]

/-- The records of the child are those of shared areas and new ones. -/
theorem child_record {key : Nat} {frame : Frame} (member : (key, frame) ∈ child.records) :
    ((key, frame) ∈ set.records /\ key ∈ shared.flatMap MapArea.slots) \/ (key, frame) ∈ own.records := by
  rcases mem_records_iff.mp member with ⟨area, present, recorded⟩
  rw [forks.forked.child_areas] at present
  rcases mem_append.mp present with old | new
  · refine .inl ⟨mem_records_iff.mpr ⟨area, ?_, recorded⟩, ?_⟩
    · rw [forks.forked.areas_eq]
      exact mem_append_left _ old
    · exact mem_flatMap.mpr ⟨area, old, MapArea.mem_slots_of_mem_records recorded⟩
  · rw [mem_singleton.mp new] at recorded
    exact .inr recorded

/-- The page of its own that the child has is in a frame that the allocator gave. -/
theorem own_record {key : Nat} {frame : Frame} (member : (key, frame) ∈ own.records) :
    ∃ ppn, ppn ∈ frames /\ frame = .inMemory ppn := by
  rcases MapArea.mem_records.mp member with ⟨vpn, _, record⟩
  rcases forks.forked.own_entry vpn (MapArea.holds_of_frame? record) with ⟨ppn, given, recorded, _⟩
  rw [recorded] at record
  exact ⟨ppn, given, (some.inj record).symm⟩

theorem own_single {first second : Nat} (here : first ∈ own.slots) (there : second ∈ own.slots) : second = first := by
  have short : own.slots.length <= 1 := by
    rw [forks.own_slots]
    unfold MapArea.slots MapArea.pages
    rw [length_map, length_range']
    exact forks.forked.one_page
  cases listed : own.slots with
  | nil =>
    rw [listed] at here
    cases here
  | cons head rest =>
    rw [listed, length_cons] at short
    have bare : rest = [] := eq_nil_of_length_eq_zero (by omega)
    rw [listed, bare, mem_singleton] at here there
    exact there.trans here.symm

theorem refers_cases (refers : after.Refers place cell) :
    world.Refers place cell \/ ∃ key, place = .page world.spaces.length key /\ (key, cell) ∈ child.records := by
  cases place with
  | outside =>
    rw [forks.after_eq] at refers
    exact .inl refers
  | page other key =>
    rcases refers_page_iff.mp refers with ⟨found, present, member⟩
    rcases forks.getElem_cases present with ⟨rfl, rfl⟩ | ⟨rfl, rfl⟩ | ⟨_, old⟩
    · exact .inr ⟨key, rfl, member⟩
    · rw [forks.parent_records] at member
      exact .inl (refers_page_iff.mpr ⟨set, forks.found, member⟩)
    · exact .inl (refers_page_iff.mpr ⟨found, old, member⟩)

/-- What may be written after a fork: what could be before and is not shared, and the
page of its own that the child has. -/
theorem writes_cases (writes : after.Writes place cell) :
    (world.Writes place cell /\ ∀ key, place = .page space key -> key ∉ shared.flatMap MapArea.slots) \/
      ∃ key, place = .page world.spaces.length key /\ (key, cell) ∈ own.records := by
  cases place with
  | outside => cases writes
  | page other key =>
    rcases writes with ⟨found, vpn, pte, present, rfl, mapped, writable, rfl⟩
    rcases forks.getElem_cases present with ⟨rfl, rfl⟩ | ⟨rfl, rfl⟩ | ⟨different, old⟩
    · by_cases owned : slot vpn ∈ found.slots
      · rw [forks.child_slots, forks.set_slots, <- forks.own_slots, mem_append] at owned
        rcases owned with within | here
        · rcases mem_flatMap.mp within with ⟨area, member, inside⟩
          rw [forks.forked.shared_entry area member vpn inside] at mapped
          rcases map_eq_some_iff.mp mapped with ⟨_, _, rfl⟩
          cases writable
        · rcases MapArea.mem_slots.mp here with ⟨page, held, same⟩
          rcases forks.forked.own_entry page held with ⟨_, _, recorded, entry⟩
          rw [found.pageTable.findPte_of_slot same, mapped] at entry
          cases entry
          exact .inr ⟨slot vpn, rfl, MapArea.mem_records.mpr ⟨page, same, recorded⟩⟩
      · rw [forks.forked.other_entry vpn owned] at mapped
        rw [(findPte_newUser mapped).2.1] at writable
        cases writable
    · rw [forks.forked.parent_entry] at mapped
      by_cases within : slot vpn ∈ shared.flatMap MapArea.slots
      · rw [if_pos within] at mapped
        rcases map_eq_some_iff.mp mapped with ⟨_, _, rfl⟩
        cases writable
      · rw [if_neg within] at mapped
        refine .inl ⟨⟨set, vpn, pte, forks.found, rfl, mapped, writable, rfl⟩, ?_⟩
        rintro _ same
        cases same
        exact within
    · refine .inl ⟨⟨found, vpn, pte, old, rfl, mapped, writable, rfl⟩, ?_⟩
      rintro _ same
      cases same
      cases different rfl

end Forks

include valid in
theorem Valid.fork (free : ∀ ppn ∈ frames, world.Free ppn)
    (done : world.fork space frames = some after) : Valid after := by
  rcases valid.forks done with ⟨set, _, _, shared, _, own, _, forks⟩
  have enclosed := valid.enclosed space set forks.found
  have trampoline_eq : after.trampolinePpn = world.trampolinePpn := by rw [forks.after_eq]
  have signal_eq : after.signalPpn = world.signalPpn := by rw [forks.after_eq]
  refine ⟨?_, ?_, ?_⟩
  · intro other found present
    rw [trampoline_eq, signal_eq]
    rcases forks.getElem_cases present with ⟨rfl, rfl⟩ | ⟨rfl, rfl⟩ | ⟨_, old⟩
    · refine ⟨forks.forked.child_consistent, ?_, ?_⟩
      · rw [forks.child_slots]
        exact enclosed.vacant
      · intro vpn pte mapped outside
        rw [forks.forked.other_entry vpn outside] at mapped
        exact (findPte_newUser mapped).2
    · have slots_eq : found.slots = set.slots := by
        unfold slots
        rw [forks.forked.parent_areas]
      refine ⟨forks.forked.parent_consistent, ?_, ?_⟩
      · rw [slots_eq]
        exact enclosed.vacant
      · intro vpn pte mapped outside
        rw [slots_eq] at outside
        have missed : slot vpn ∉ shared.flatMap MapArea.slots := by
          intro within
          rw [forks.set_slots] at outside
          exact outside (mem_append_left _ within)
        rw [forks.forked.parent_entry, if_neg missed] at mapped
        exact enclosed.closed vpn pte mapped outside
    · exact valid.enclosed other found old
  · intro ppn used
    rw [trampoline_eq, signal_eq]
    rcases used with held | ⟨other, key, refers⟩
    · rw [forks.after_eq] at held
      exact valid.apart ppn (.inl held)
    · rcases forks.refers_cases refers with old | ⟨_, _, member⟩
      · exact valid.apart ppn (.inr ⟨other, key, old⟩)
      · rcases forks.child_record member with ⟨old, _⟩ | new
        · exact valid.apart ppn (.inr ⟨space, _, refers_page_iff.mpr ⟨set, forks.found, old⟩⟩)
        · rcases forks.own_record new with ⟨_, allocated, same⟩
          cases same
          exact (free _ allocated).apart
  · apply Exclusive.clone
      (fun place cell => ∃ key, place = .page world.spaces.length key /\ (key, cell) ∈ own.records)
      valid.exclusive valid.backed
    · rintro place cell ⟨key, rfl, member⟩ other refers
      rcases forks.own_record member with ⟨ppn, allocated, rfl⟩
      exact free ppn allocated other refers
    · rintro place cell ⟨key, rfl, member⟩ other ⟨_, rfl, also⟩
      rw [forks.own_single (MapArea.mem_slots_of_mem_records member) (MapArea.mem_slots_of_mem_records also)]
    · intro place cell writes
      rcases forks.writes_cases writes with ⟨before, _⟩ | new
      · exact .inr before
      · exact .inl new
    · intro place cell refers
      rcases forks.refers_cases refers with old | ⟨key, rfl, member⟩
      · exact .inr (.inl old)
      · rcases forks.child_record member with ⟨old, within⟩ | new
        · refine .inr (.inr ⟨.page space key, refers_page_iff.mpr ⟨set, forks.found, old⟩, ?_⟩)
          intro writes
          rcases forks.writes_cases writes with ⟨_, kept⟩ | ⟨other, same, _⟩
          · exact kept key rfl within
          · cases same
            exact absurd (List.getElem?_eq_some_iff.mp forks.found).1 (lt_irrefl _)
        · exact .inl ⟨key, rfl, new⟩

/-! ## Runs -/

theorem fill_eq_some (done : world.fill content = some after) :
    after = { world with memory := after.memory } := by
  cases content with
  | unzip id ppn =>
    rcases map_eq_some_iff.mp done with ⟨_, _, rfl⟩
    rfl
  | none | zero ppn | copy source target | swapIn id ppn | file ino offset ppn =>
    cases done
    rfl

theorem release_eq_some {frames : List Frame} (done : world.release frames = some after) :
    world.devices.drop (world.trackers.map Prod.snd) frames = some after.devices /\
      after = world.withDevices after.devices := by
  rcases map_eq_some_iff.mp done with ⟨devices, dropped, rfl⟩
  exact ⟨dropped, rfl⟩

/-- The parts of a page fault: the handler, the content of the frame, and the trackers
that are given up. -/
structure Faulted (world : World) (space addr : Nat) (env : FaultEnv) (set next : MemorySet) (content : Fill)
    (filled after : World) : Prop where
  found : world.spaces[space]? = some set
  handled : ∃ result, set.doPageFault addr env = .ok (result, next, content)
  filled_eq : (world.withSpace space next).fill content = some filled
  released : filled.release content.dropped = some after

theorem fault_eq_some (done : world.fault space addr env = some after) :
    ∃ set next content filled,
      Faulted world space addr env set next content filled after := by
  rcases bind_eq_some_iff.mp done with ⟨set, found, handled⟩
  cases outcome : set.doPageFault addr env with
  | error panic => simp [outcome] at handled
  | ok triple =>
    rcases triple with ⟨result, next, content⟩
    simp only [outcome] at handled
    rcases bind_eq_some_iff.mp handled with ⟨filled, filled_eq, released⟩
    exact ⟨set, next, content, filled, found, ⟨result, outcome⟩, filled_eq, released⟩

theorem Faulted.replaces {filled : World}
    (faulted : Faulted world space addr env set next content filled after) : Replaces world space set next after := by
  have kept := (release_eq_some faulted.released).2
  have written := fill_eq_some faulted.filled_eq
  rw [written] at kept
  rw [kept]
  exact ⟨faulted.found, rfl, rfl, rfl, rfl⟩

include valid in
theorem Valid.fault
    (truthful : world.Truthful (.fault space addr env)) (done : world.fault space addr env = some after) :
    Valid after := by
  rcases fault_eq_some done with ⟨set, _, _, _, faulted⟩
  rcases faulted.handled with ⟨_, handled⟩
  have consistent := (valid.enclosed space set faulted.found).consistent
  rcases truthful with ⟨free, cached, counted⟩
  rcases consistent.doPageFault_cases handled with ⟨_, _, rearranged⟩ | ⟨_, _, _, _, _, _, _, placed, update⟩
  · exact valid.rearranged faulted.replaces rearranged
  · exact valid.placed faulted.replaces update placed free cached (fun pte => counted set pte faulted.found)

theorem reclaim_eq_some (done : world.reclaim space pass = some after) :
    ∃ set, world.spaces[space]? = some set /\
      world.devices.putAside world.memory (pass set).2.2 = some after.devices /\
      after = (world.withSpace space (pass set).2.1).withDevices after.devices := by
  rcases bind_eq_some_iff.mp done with ⟨set, found, passed⟩
  rcases map_eq_some_iff.mp passed with ⟨devices, put, rfl⟩
  exact ⟨set, found, put, rfl⟩

theorem withSpace_withSpace (world : World) (space : Nat) (first second : MemorySet) :
    (world.withSpace space first).withSpace space second = world.withSpace space second := by
  unfold withSpace
  simp only [List.set_set]

theorem Replaces.withSpace (found : world.spaces[space]? = some set) (next : MemorySet) :
    Replaces world space set next (world.withSpace space next) :=
  ⟨found, rfl, rfl, rfl, rfl⟩

include valid

/-- A reclaim pass is a sequence of steps on single pages. -/
theorem Valid.cleaned {stores : List Store} (found : world.spaces[space]? = some set)
    (cleaned : Cleaned set stores next) : Valid (world.withSpace space next) := by
  induction cleaned generalizing world with
  | refl set =>
    have unchanged : world.withSpace space set = world := by
      rcases List.getElem?_eq_some_iff.mp found with ⟨_, rfl⟩
      unfold World.withSpace
      rw [set_getElem_self]
    rw [unchanged]
    exact valid
  | @step set middle final stores rest first later ih =>
    have replaces := Replaces.withSpace found middle
    have moved : Valid (world.withSpace space middle) := by
      have consistent := (valid.enclosed space set found).consistent
      rcases consistent.cleanStep_cases first with ⟨_, rearranged⟩ | ⟨_, _, _, _, _, evicted, update⟩
      · exact valid.rearranged replaces rearranged
      · exact valid.evict replaces update evicted
    have finished := ih moved replaces.getElem_self
    rw [withSpace_withSpace] at finished
    exact finished

/-- What is recorded about memory and stores has no part in being well formed. -/
theorem Valid.of_eq (spaces_eq : after.spaces = world.spaces) (held_eq : after.held = world.held)
    (trampoline_eq : after.trampolinePpn = world.trampolinePpn) (signal_eq : after.signalPpn = world.signalPpn) :
    Valid after := by
  rcases world with ⟨spaces, _, _, held, _, trampolinePpn, signalPpn⟩
  rcases after with ⟨_, _⟩
  cases spaces_eq
  cases held_eq
  cases trampoline_eq
  cases signal_eq
  exact ⟨valid.enclosed, valid.apart, valid.exclusive⟩

theorem Valid.reclaim
    (cleans : ∀ set, Cleaned set (pass set).2.2 (pass set).2.1) (done : world.reclaim space pass = some after) :
    Valid after := by
  rcases reclaim_eq_some done with ⟨set, found, _, same⟩
  have cleaned := valid.cleaned found (cleans set)
  rw [same]
  exact cleaned.of_eq rfl rfl rfl rfl

omit valid in
theorem exit_eq_some (done : world.exit space = some after) :
    ∃ set, world.spaces[space]? = some set /\
      (world.withSpace space gone).release (set.records.map Prod.snd) = some after :=
  bind_eq_some_iff.mp done

theorem Valid.exit (done : world.exit space = some after) : Valid after := by
  rcases exit_eq_some done with ⟨_, found, released⟩
  have replaces := Replaces.withSpace found gone
  have bare : Valid (world.withSpace space gone) := by
    refine valid.fewer replaces ⟨⟨nodup_nil, nofun⟩, ⟨not_mem_nil, not_mem_nil⟩, ?_⟩ (nil_subset _) ?_
    · intro vpn pte mapped
      cases mapped
    · intro vpn pte mapped
      cases mapped
  rw [(release_eq_some released).2]
  exact bare.of_eq rfl rfl rfl rfl

omit valid in
theorem store_eq_some {byte : Nat} (done : world.store space addr byte = some after) :
    ∃ set pte, world.spaces[space]? = some set /\
      set.pageTable.findPte (floor addr) = some pte /\ pte.perm.u = true /\ pte.perm.w = true /\
      after = world.write pte.ppn ((world.memory pte.ppn).set (pageOffset addr) byte) := by
  rcases bind_eq_some_iff.mp done with ⟨set, found, walked⟩
  rcases bind_eq_some_iff.mp walked with ⟨pte, mapped, stored⟩
  split at stored
  · next allowed =>
    rw [Bool.and_eq_true] at allowed
    exact ⟨set, pte, found, mapped, allowed.1, allowed.2, (some.inj stored).symm⟩
  · cases stored

/-- The page cache takes up a frame that nothing refers to. -/
theorem Valid.cacheIn {page : Page} (free : world.Free ppn) :
    Valid { world.write ppn page with held := ppn :: world.held } := by
  have refers_or : ∀ place cell, World.Refers { world.write ppn page with held := ppn :: world.held } place cell ->
      (place = .outside /\ cell = .inMemory ppn) \/ world.Refers place cell := by
    intro place cell refers
    cases place with
    | page space key => exact .inr refers
    | outside =>
      rcases refers with ⟨other, rfl, held | trampoline⟩
      · rcases mem_cons.mp held with rfl | before
        · exact .inl ⟨rfl, rfl⟩
        · exact .inr ⟨other, rfl, .inl before⟩
      · exact .inr ⟨other, rfl, .inr trampoline⟩
  refine ⟨valid.enclosed, ?_, ?_⟩
  · rintro other (held | refers)
    · rcases mem_cons.mp held with rfl | before
      · exact free.apart
      · exact valid.apart other (.inl before)
    · exact valid.apart other (.inr refers)
  · apply valid.exclusive.move (fun _ _ writes => .inr writes) refers_or
    · intro other writes
      cases free other (valid.backed other _ writes)
    · nofun

theorem Valid.cacheOut : Valid { world with held := world.held.erase ppn } := by
  refine ⟨valid.enclosed, ?_, ?_⟩
  · rintro other (held | refers)
    · exact valid.apart other (.inl (mem_of_mem_erase held))
    · exact valid.apart other (.inr refers)
  · apply valid.exclusive.mono (fun _ _ writes => writes)
    intro place cell refers
    cases place with
    | page space key => exact refers
    | outside =>
      rcases refers with ⟨other, rfl, held | trampoline⟩
      · exact ⟨other, rfl, .inl (mem_of_mem_erase held)⟩
      · exact ⟨other, rfl, .inr trampoline⟩

/-- Every event leaves a world well formed. -/
theorem Valid.step {event : Event} (taken : Step world event after) : Valid after := by
  rcases taken with ⟨truthful, done⟩
  cases event with
  | fork space frames => exact valid.fork truthful done
  | fault space addr env => exact valid.fault truthful done
  | store space addr byte =>
    rcases store_eq_some done with ⟨_, _, _, _, _, _, rfl⟩
    exact valid.of_eq rfl rfl rfl rfl
  | load space addr byte =>
    dsimp only [exec] at done
    split at done
    · cases done
      exact valid
    · cases done
  | exit space => exact valid.exit done
  | shallowClean space envs => exact valid.reclaim (fun set => doShallowClean_cleaned set envs) done
  | deepClean space envs => exact valid.reclaim (fun set => doDeepClean_cleaned set envs) done
  | cacheIn ppn page =>
    cases done
    exact valid.cacheIn truthful
  | cacheOut ppn =>
    dsimp only [exec] at done
    split at done
    · cases done
      exact valid.cacheOut
    · cases done

end World

end GCore.Mm
