import GCore.Mm.World

namespace GCore.Mm

open Library Option List

/-!
# Copy on write keeps spaces apart

One user space is forked again and again.  The spaces store and load, fault and exit in
any order, while the reclaim passes and the page cache do their work.  A frame that some
space may write is then used by no other space: a fork takes the permission away on both
sides, and the handler gives it back to the last tracker of a frame or to the owner of a
new copy.  So neither a store nor the fault that comes before it changes a byte that
another space can load.
-/

/-- The frame that a content is written to. -/
def Fill.target : Fill -> Option Nat
  | .none => Option.none
  | .zero ppn | .copy _ ppn | .unzip _ ppn | .swapIn _ ppn | .file _ _ ppn => some ppn

variable {vpn ppn : Nat} {env : FaultEnv} {content : Fill}

/-- Contents go into the frame that the allocator gave. -/
theorem MapArea.Placed.target_eq {table : PageTable} {area : MapArea} {target : Nat} {old : Frame}
    (placed : area.Placed table vpn env old ppn content) (written : content.target = some target) :
    env.frame = some target := by
  cases placed with
  | upgraded _ _ | cached _ _ _ => cases written
  | copied _ _ given | zeroed _ given | loaded _ _ given | unzipped _ given | swappedIn _ given =>
    exact given.trans written

namespace World

open MemorySet

variable {world after : World} {space : Nat} {set : MemorySet}

/-! ## The start -/

/-- A world with one user space.  Its table and areas agree, and a frame that it may
write belongs to one of its pages alone. -/
structure Starts (world : World) (set : MemorySet) : Prop where
  alone : world.spaces = [set]
  enclosed : Enclosed world.trampolinePpn world.signalPpn set
  apart : ∀ ppn, (ppn ∈ world.held \/ ∃ key, (key, Frame.inMemory ppn) ∈ set.records) ->
    ppn ≠ world.trampolinePpn /\ ppn ≠ world.signalPpn
  owned : ∀ vpn pte, set.pageTable.findPte vpn = some pte -> pte.perm.w = true ->
    pte.ppn ∉ world.held /\ ∀ key, (key, Frame.inMemory pte.ppn) ∈ set.records -> key = slot vpn

theorem Starts.getElem_iff (starts : Starts world set) {found : MemorySet} :
    world.spaces[space]? = some found ↔ space = 0 /\ set = found := by
  rw [starts.alone, getElem?_singleton]
  by_cases first : space = 0
  · rw [if_pos first, some.injEq]
    exact ⟨fun same => ⟨first, same⟩, fun both => both.2⟩
  · rw [if_neg first]
    exact ⟨nofun, fun both => False.elim (first both.1)⟩

variable {trampolinePpn signalPpn other addr : Nat} {pte : Pte} {next : MemorySet}

theorem Enclosed.record_of_writable
    (enclosed : Enclosed trampolinePpn signalPpn set) (mapped : set.pageTable.findPte vpn = some pte)
    (writable : pte.perm.w = true) : (slot vpn, Frame.inMemory pte.ppn) ∈ set.records := by
  apply enclosed.consistent.record_of_entry _ mapped
  by_contra outside
  rw [(enclosed.closed vpn pte mapped outside).1] at writable
  cases writable

theorem Starts.valid (starts : Starts world set) : Valid world := by
  refine ⟨?_, ?_, ?_⟩
  · intro space found present
    rcases starts.getElem_iff.mp present with ⟨_, rfl⟩
    exact starts.enclosed
  · rintro ppn (held | ⟨space, key, refers⟩)
    · exact starts.apart ppn (.inl held)
    · rcases refers_page_iff.mp refers with ⟨found, present, member⟩
      rcases starts.getElem_iff.mp present with ⟨_, rfl⟩
      exact starts.apart ppn (.inr ⟨key, member⟩)
  · intro place cell writes other refers
    cases place with
    | outside => cases writes
    | page space key =>
      rcases writes with ⟨found, vpn, pte, present, rfl, mapped, writable, rfl⟩
      rcases starts.getElem_iff.mp present with ⟨rfl, rfl⟩
      have sole := starts.owned vpn pte mapped writable
      cases other with
      | page otherSpace otherKey =>
        rcases refers_page_iff.mp refers with ⟨found, also, member⟩
        rcases starts.getElem_iff.mp also with ⟨rfl, rfl⟩
        rw [sole.2 otherKey member]
      | outside =>
        have separate := starts.apart pte.ppn (.inr ⟨_, starts.enclosed.record_of_writable mapped writable⟩)
        rcases refers with ⟨ppn, same, held | trampoline | signal⟩
        · cases same
          cases sole.1 held
        · cases same
          cases separate.1 trampoline
        · cases same
          cases separate.2 signal

/-! ## Spaces as they are loaded -/

/-- A space as `from_elf` and `alloc_user_res` build it, over known trampolines. -/
structure Loaded (trampolinePpn signalPpn : Nat) (set : MemorySet) : Prop where
  enclosed : Enclosed trampolinePpn signalPpn set
  populated : Populated set
  trampoline_mapped : set.pageTable.findPte (floor trampoline) ≠ none
  signal_mapped : set.pageTable.findPte (floor signalTrampoline) ≠ none

theorem Loaded.newUser (trampolinePpn signalPpn : Nat) :
    Loaded trampolinePpn signalPpn (MemorySet.newUser trampolinePpn signalPpn) := by
  refine ⟨⟨⟨nodup_nil, nofun⟩, ⟨not_mem_nil, not_mem_nil⟩, ?_⟩, nofun, nofun, nofun⟩
  intro vpn pte mapped _
  exact (findPte_newUser mapped).2

theorem Loaded.push {area : MapArea} {frames : List Nat}
    (loaded : Loaded trampolinePpn signalPpn set) (pushed : set.push area frames = .ok next) :
    Loaded trampolinePpn signalPpn next := by
  rcases loaded.enclosed.consistent.push loaded.populated pushed with ⟨consistent, populated⟩
  rcases push_eq_ok pushed with ⟨_, areas_eq, maps⟩
  -- what is mapped already is not among the pages of the new area
  have missed : ∀ vpn, set.pageTable.findPte vpn ≠ none -> slot vpn ∉ area.slots := by
    intro vpn mapped shared
    rcases MapArea.mem_slots.mp shared with ⟨page, held, same⟩
    apply mapped
    rw [<- set.pageTable.findPte_of_slot same]
    exact maps.unmapped page (MapArea.mem_pages.mpr held)
  have slots_eq : next.slots = set.slots ++ area.slots := by
    unfold MemorySet.slots
    rw [areas_eq, flatMap_append, flatMap_singleton, maps.slots_eq]
  have kept : ∀ vpn, slot vpn ∉ area.slots -> next.pageTable.findPte vpn = set.pageTable.findPte vpn :=
    maps.entry_eq
  refine ⟨⟨consistent, ?_, ?_⟩, populated, ?_, ?_⟩
  · rw [slots_eq, mem_append, mem_append, not_or, not_or]
    exact ⟨⟨loaded.enclosed.vacant.1, missed _ loaded.trampoline_mapped⟩,
      loaded.enclosed.vacant.2, missed _ loaded.signal_mapped⟩
  · intro vpn pte mapped outside
    rw [slots_eq, mem_append, not_or] at outside
    rw [kept vpn outside.2] at mapped
    exact loaded.enclosed.closed vpn pte mapped outside.1
  · rw [kept _ (missed _ loaded.trampoline_mapped)]
    exact loaded.trampoline_mapped
  · rw [kept _ (missed _ loaded.signal_mapped)]
    exact loaded.signal_mapped

theorem Loaded.of_foldlM {parts : List (MapArea × List Nat)} (loaded : Loaded trampolinePpn signalPpn set)
    (pushed : parts.foldlM (fun set part => set.push part.1 part.2) set = .ok next) :
    Loaded trampolinePpn signalPpn next :=
  (Reached.of_foldlM pushed).invariant loaded fun _ _ _ kept taken => kept.push taken

/-- A loaded space may start, if its frames are different ones. -/
theorem Loaded.starts (loaded : Loaded world.trampolinePpn world.signalPpn set) (alone : world.spaces = [set])
    (different : (set.records.map Prod.snd).Nodup) (apart : ∀ record ∈ set.records,
      record.2 ≠ .inMemory world.trampolinePpn /\ record.2 ≠ .inMemory world.signalPpn)
    (unheld : world.held = []) : Starts world set := by
  refine ⟨alone, loaded.enclosed, ?_, ?_⟩
  · rintro ppn (held | ⟨key, member⟩)
    · rw [unheld] at held
      cases held
    · have separate := apart _ member
      exact ⟨fun same => separate.1 (congrArg _ same), fun same => separate.2 (congrArg _ same)⟩
  · intro vpn pte mapped writable
    have here := loaded.enclosed.record_of_writable mapped writable
    refine ⟨unheld ▸ not_mem_nil, ?_⟩
    intro key member
    have same := inj_on_of_nodup_map different member here rfl
    cases same
    rfl

/-! ## Isolation -/

/-- A space has a tracker of the frame or an entry that leads to it. -/
def Uses (world : World) (space ppn : Nat) : Prop :=
  (∃ key, world.Refers (.page space key) (.inMemory ppn)) \/
    ∃ set vpn, world.spaces[space]? = some set /\ set.pageTable.translate vpn = some ppn

/-- A frame that a page of an area may be written to is used by one space, and what a
space stores or has brought in changes nothing that another space can load. -/
structure Isolated (world : World) : Prop where
  sole : ∀ (space : Nat) (set : MemorySet) (area : MapArea) (vpn : Nat) (pte : Pte),
    world.spaces[space]? = some set -> area ∈ set.areas -> area.Holds vpn ->
    set.pageTable.findPte vpn = some pte -> pte.perm.w = true ->
    ∀ other, world.Uses other pte.ppn ↔ other = space
  stores : ∀ (space addr byte : Nat) (after : World), world.store space addr byte = some after ->
    ∀ other ≠ space, ∀ address, after.load other address = world.load other address
  faults : ∀ (space addr : Nat) (env : FaultEnv) (after : World), Step world (.fault space addr env) after ->
    ∀ other ≠ space, ∀ address, after.load other address = world.load other address

/-- What an entry leads to is referred to by the page, or is a trampoline. -/
theorem Valid.refers_of_entry (valid : Valid world) (found : world.spaces[space]? = some set)
    (mapped : set.pageTable.findPte vpn = some pte) :
    world.Refers (.page space (slot vpn)) (.inMemory pte.ppn) \/ world.Refers .outside (.inMemory pte.ppn) := by
  have enclosed := valid.enclosed space set found
  by_cases owned : slot vpn ∈ set.slots
  · exact .inl (refers_page_iff.mpr ⟨set, found, enclosed.consistent.record_of_entry owned mapped⟩)
  · exact .inr ⟨pte.ppn, rfl, .inr (enclosed.closed vpn pte mapped owned).2⟩

theorem Valid.uses_iff (valid : Valid world) (found : world.spaces[space]? = some set)
    (mapped : set.pageTable.findPte vpn = some pte) (writable : pte.perm.w = true) (other : Nat) :
    world.Uses other pte.ppn ↔ other = space := by
  have writes : world.Writes (.page space (slot vpn)) (.inMemory pte.ppn) :=
    ⟨set, vpn, pte, found, rfl, mapped, writable, rfl⟩
  constructor
  · rintro (⟨_, refers⟩ | ⟨_, page, present, translated⟩)
    · exact (Place.page.inj (valid.exclusive _ _ writes _ refers)).1
    · rcases Option.map_eq_some_iff.mp translated with ⟨_, also, same⟩
      have refers := valid.refers_of_entry present also
      rw [same] at refers
      rcases refers with here | outside
      · exact (Place.page.inj (valid.exclusive _ _ writes _ here)).1
      · cases valid.exclusive _ _ writes _ outside
  · rintro rfl
    exact .inl ⟨slot vpn, valid.backed _ _ writes⟩

/-- A space loads what it did before, if its table and the frames in it are the same. -/
theorem load_congr (spaces_eq : after.spaces[other]? = world.spaces[other]?)
    (kept : ∀ (set : MemorySet) (vpn : Nat) (pte : Pte), world.spaces[other]? = some set ->
      set.pageTable.findPte vpn = some pte -> after.memory pte.ppn = world.memory pte.ppn) (address : Nat) :
    after.load other address = world.load other address := by
  unfold load
  rw [spaces_eq]
  cases found : world.spaces[other]? with
  | none => rfl
  | some set =>
    dsimp only [bind_some]
    cases mapped : set.pageTable.findPte (floor address) with
    | none => rfl
    | some pte => rw [bind_some, bind_some, kept set _ pte found mapped]

theorem Valid.load_store {byte : Nat} (valid : Valid world)
    (done : world.store space addr byte = some after) (different : other ≠ space) (address : Nat) :
    after.load other address = world.load other address := by
  rcases store_eq_some done with ⟨_, pte, found, mapped, _, writable, rfl⟩
  refine load_congr (by rfl) ?_ address
  intro owner vpn entry present leads
  apply Function.update_of_ne
  intro same
  have uses : world.Uses other pte.ppn := by
    refine .inr ⟨owner, vpn, present, ?_⟩
    rw [PageTable.translate, leads, <- same]
    rfl
  exact different ((valid.uses_iff found mapped writable other).mp uses)

theorem fill_memory (done : world.fill content = some after)
    (untouched : content.target ≠ some ppn) : after.memory ppn = world.memory ppn := by
  have elsewhere : ∀ target page, some target ≠ some ppn -> (world.write target page).memory ppn = world.memory ppn := by
    intro target page different
    exact Function.update_of_ne (fun same => different (congrArg some same.symm)) _ _
  cases content with
  | none =>
    cases done
    rfl
  | unzip id target =>
    rcases Option.map_eq_some_iff.mp done with ⟨page, _, rfl⟩
    exact elsewhere target page untouched
  | zero target | copy source target | swapIn id target | file ino offset target =>
    cases done
    exact elsewhere target _ untouched

theorem Faulted.memory_eq {filled : World}
    (faulted : Faulted world space addr env set next content filled after) (untouched : content.target ≠ some ppn) :
    after.memory ppn = world.memory ppn := by
  have filled_eq := fill_memory faulted.filled_eq untouched
  rw [(release_eq_some faulted.released).2]
  exact filled_eq

theorem Valid.load_fault (valid : Valid world)
    (taken : Step world (.fault space addr env) after) (different : other ≠ space) (address : Nat) :
    after.load other address = world.load other address := by
  rcases taken with ⟨⟨free, _⟩, done⟩
  rcases fault_eq_some done with ⟨set, _, _, _, faulted⟩
  rcases faulted.handled with ⟨_, handled⟩
  have consistent := (valid.enclosed space set faulted.found).consistent
  apply load_congr (faulted.replaces.getElem_other different)
  intro owner vpn pte present mapped
  apply faulted.memory_eq
  intro written
  have given : env.frame = some pte.ppn := by
    rcases consistent.doPageFault_cases handled with ⟨_, nothing, _⟩ | ⟨_, _, _, _, _, ppn, _, placed, _⟩
    · rw [nothing] at written
      cases written
    · exact placed.target_eq written
  rcases valid.refers_of_entry present mapped with here | outside
  · exact free _ given _ here
  · exact free _ given _ outside

/-- In every world that is reached from a single user space, a frame that may be written
is used by one space, and no space changes what another one loads. -/
theorem isolated_in_every_run {start : World} (starts : Starts start set) (run : Reached Step start world) :
    Isolated world := by
  have valid : Valid world := by
    apply run.invariant starts.valid
    intro before event after kept taken
    exact kept.step taken
  refine ⟨?_, ?_, ?_⟩
  · intro space set area vpn pte found _ _ mapped writable
    exact valid.uses_iff found mapped writable
  · intro space addr byte after done other different
    exact valid.load_store done different
  · intro space addr env after taken other different
    exact valid.load_fault taken different

theorem Step.fork_one (free : world.Free ppn) (done : world.exec (.fork space [ppn]) = some after) :
    Step world (.fork space [ppn]) after := by
  refine ⟨?_, done⟩
  intro other given
  rw [mem_singleton.mp given]
  exact free

/-- The strong count of the frame at an address. -/
def mappedCount (world : World) (space addr : Nat) : Option Nat :=
  world.spaces[space]?.bind (fun set => (set.pageTable.findPte (floor addr)).map (fun pte => world.strongCount pte.ppn))

/-- A fault without a file is answered truthfully by a free frame and the right count. -/
theorem Step.fault_one {count : Nat} (free : world.Free ppn)
    (counted : (world.mappedCount space addr).getD count = count)
    (done : world.exec (.fault space addr ⟨some ppn, count, 0, none⟩) = some after) :
    Step world (.fault space addr ⟨some ppn, count, 0, none⟩) after := by
  refine ⟨⟨?_, nofun, ?_⟩, done⟩
  · intro other given
    cases given
    exact free
  · intro set pte found mapped
    unfold mappedCount at counted
    rw [found, bind_some, mapped] at counted
    exact counted.symm

/-- A world of one space, with empty stores of four and two pages. -/
def single (set : MemorySet) : World where
  spaces := [set]
  memory := fun _ => Page.zero
  devices := ⟨Zram.new 4, ⟨true, [false, false], fun _ => Page.zero⟩⟩
  held := []
  files := fun _ _ => Page.zero
  trampolinePpn := 1
  signalPpn := 2

theorem Starts.of_loaded {set : MemorySet} (loaded : loadSmallProgram = .ok set) : Starts (single set) set := by
  have evaluated : ∃ set, loadSmallProgram = .ok set /\ (set.records.map Prod.snd).Nodup /\
      ∀ record ∈ set.records, record.2 ≠ .inMemory 1 /\ record.2 ≠ .inMemory 2 :=
    ⟨_, rfl, of_decide_eq_true rfl⟩
  rcases evaluated with ⟨_, same, different, apart⟩
  rw [loaded] at same
  cases same
  exact ((Loaded.newUser 1 2).of_foldlM loaded).starts rfl different apart rfl

theorem isolated_after_fork_and_store :
    ∃ set world, Starts (single set) set /\ Reached Step (single set) world /\
      world.load 0 0xbff00000 = some 0 /\ world.load 1 0xbff00000 = some 7 /\ Isolated world := by
  have running : ∃ set forked copied world,
      loadSmallProgram = .ok set /\
      Step (single set) (.fork 0 [20]) forked /\
      Step forked (.fault 1 0xbff00000 ⟨some 21, 2, 0, none⟩) copied /\
      Step copied (.store 1 0xbff00000 7) world /\
      world.load 0 0xbff00000 = some 0 /\ world.load 1 0xbff00000 = some 7 :=
    ⟨_, _, _, _, rfl, .fork_one (of_decide_eq_true rfl) rfl, .fault_one (of_decide_eq_true rfl) rfl rfl,
      ⟨trivial, rfl⟩, rfl, rfl⟩
  rcases running with ⟨set, forked, copied, world, loaded, fork, fault, store, parent, child⟩
  have starts : Starts (single set) set := .of_loaded loaded
  have run : Reached Step (single set) world := ((Reached.refl.next fork).next fault).next store
  exact ⟨set, world, starts, run, parent, child, isolated_in_every_run starts run⟩

/-! ## Frames in use -/

/-- No entry leads to a free frame, and an exit frees what only that space refers to. -/
structure Accounted (world : World) : Prop where
  mapped : ∀ (space : Nat) (set : MemorySet) (vpn : Nat) (pte : Pte), world.spaces[space]? = some set ->
    set.pageTable.findPte vpn = some pte -> ¬ world.Free pte.ppn
  exited : ∀ (space ppn : Nat) (after : World), world.exit space = some after ->
    (after.Free ppn ↔ ∀ place, world.Refers place (.inMemory ppn) -> ∃ key, place = .page space key)

theorem free_exit_iff (done : world.exit space = some after) (ppn : Nat) :
    after.Free ppn ↔ ∀ place, world.Refers place (.inMemory ppn) -> ∃ key, place = .page space key := by
  rcases exit_eq_some done with ⟨set, found, released⟩
  have replaces : Replaces world space set gone after := by
    rw [(release_eq_some released).2]
    exact ⟨found, rfl, rfl, rfl, rfl⟩
  constructor
  · intro free place refers
    rcases replaces.place_cases place with here | elsewhere
    · exact here
    · cases free place ((elsewhere _).1.mpr refers)
  · intro only place refers
    rcases only place (replaces.refers_of_fewer (nil_subset _) refers) with ⟨key, rfl⟩
    cases (replaces.refers_self key _).mp refers

theorem accounted_in_every_run {start : World} (starts : Starts start set) (run : Reached Step start world) :
    Accounted world := by
  have valid : Valid world := run.invariant starts.valid fun _ _ _ kept taken => kept.step taken
  refine ⟨?_, fun space ppn after done => free_exit_iff done ppn⟩
  intro space set vpn pte found mapped free
  rcases valid.refers_of_entry found mapped with here | outside
  · exact free _ here
  · exact free _ outside

theorem accounted_after_fork : ∃ set world, Starts (single set) set /\ Reached Step (single set) world /\
    world.spaces.length = 2 /\ Accounted world := by
  have running : ∃ set world, loadSmallProgram = .ok set /\ Step (single set) (.fork 0 [20]) world /\
      world.spaces.length = 2 := ⟨_, _, rfl, .fork_one (of_decide_eq_true rfl) rfl, rfl⟩
  rcases running with ⟨set, world, loaded, fork, two⟩
  have starts : Starts (single set) set := .of_loaded loaded
  have run := Reached.refl.next fork
  exact ⟨set, world, starts, run, two, accounted_in_every_run starts run⟩

end World

end GCore.Mm
