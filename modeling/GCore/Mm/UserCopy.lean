import GCore.Mm.Isolation
import GCore.Mm.Slices

namespace GCore.Mm

open Library List Function Option PageTable

/-!
# Kernel writes into user memory

System calls hand data to a program by writing to its frames.  The kernel finds a frame
by walking the page table of the space itself, and takes a page fault only where the
walk finds no entry.  It never looks at the permissions in the entry.  A page that a
fork has left to two spaces is written in place, and both of them see the bytes.  And the
page fault is one of the running task, whose space need not be the one that is walked: the
page is mapped there then, and the bytes are written there.

A write is therefore invisible to another space exactly if none of the frames that it
goes to can be read there, and its page faults change nothing there.  If the running task
writes to its own space, the frame is known beforehand for a page that has an entry, and for
a page of a read-only mapping of a file, which gets the frame of the page cache.  Any other
page gets a new frame.
-/

namespace World

open MemorySet

/-! ## Translation -/

/-- What the kernel's own page faults meet: the allocator, the sizes of files, the frames in
which the page cache has the pages of a space that are mapped from files, and the space of
the running task, if there is one. -/
structure Surroundings where
  frame : World -> Option Nat
  fileSize : Nat -> Nat -> Nat
  cachePage : Nat -> Nat -> Option Nat
  current : Option Nat

namespace Surroundings

def env (surroundings : Surroundings) (world : World) (space vpn : Nat) : FaultEnv where
  frame := surroundings.frame world
  strongCount :=
    ((world.spaces[space]?.bind (fun set => set.pageTable.translate vpn)).map world.strongCount).getD 0
  fileSize := surroundings.fileSize space vpn
  cachePage := surroundings.cachePage space vpn

/-- The allocator hands out frames that nothing refers to, and the page cache frames that
it holds. -/
structure Honest (surroundings : Surroundings) (held : List Nat) : Prop where
  free : ∀ world ppn, surroundings.frame world = some ppn -> world.Free ppn
  cached : ∀ space vpn ppn, surroundings.cachePage space vpn = some ppn -> ppn ∈ held

/-- A task of the space runs. -/
def within (surroundings : Surroundings) (space : Nat) : Surroundings := { surroundings with current := some space }

theorem Honest.within {surroundings : Surroundings} {held : List Nat} (honest : surroundings.Honest held) (space : Nat) :
    (surroundings.within space).Honest held := ⟨honest.free, honest.cached⟩

end Surroundings

section Translation

variable (world : World) (surroundings : Surroundings) (space : Nat)

def translate (vpn : Nat) : Option Nat := world.spaces[space]?.bind (fun set => set.pageTable.translate vpn)

def translateVa (va : Nat) : Option Nat := world.spaces[space]?.bind (fun set => set.pageTable.translateVa va)

/-- The page fault of a space; errors that are not expected are a panic. -/
def faultIn (addr : Nat) : Option (Except Int Nat × World) :=
  world.spaces[space]?.bind (fun set =>
    match set.doPageFault addr (surroundings.env world space (floor addr)) with
    | .error _ => none
    | .ok (result, _, _) =>
      (world.fault space addr (surroundings.env world space (floor addr))).bind (fun after =>
        match result with
        | .ok pa => some (.ok pa, after)
        | .error .beyondEOF => some (.error EFAULT, after)
        | .error .noPermission => some (.error EFAULT, after)
        | .error .badAddress => some (.error EFAULT, after)
        | .error _ => none))

/-- `check_page_fault`, which is one of the running task, whatever space is walked. -/
def checkPageFault (addr : Nat) : Option (Except Int Nat × World) :=
  match surroundings.current with
  | none => some (.error EFAULT, world)
  | some current => world.faultIn surroundings current addr

/-- The physical address that the reference points to. -/
def translatedRefmut (ptr : Nat) : Option (Except Int Nat × World) :=
  match world.translateVa space ptr with
  | some pa => some (.ok pa, world)
  | none => world.checkPageFault surroundings ptr

/-- The frame of one page, in a round of `translated_byte_buffer`. -/
def translatedPage (vpn : Nat) : Option (Except Int Nat × World) :=
  match world.translate space vpn with
  | some ppn => some (.ok ppn, world)
  | none =>
    (world.checkPageFault surroundings (startAddr vpn)).map (fun outcome => (outcome.1.map floor, outcome.2))

end Translation

section CopyOut

variable (world : World) (surroundings : Surroundings) (space : Nat)

def translatedByteBuffer (ptr len : Nat) : Option (Except Int (List Slice) × World) :=
  bufferLoop (fun world vpn => world.translatedPage surroundings space vpn) ((ptr + len) % usizeRange) len world ptr

def withMemory (memory : Nat -> Page) : World := { world with memory := memory }

/-- Write through what a translation has found. -/
def writeThrough {Target : Type} (write : Target -> (Nat -> Page) -> Nat -> Page) :
    Except Int Target × World -> Except Int Unit × World
  | (.ok target, after) => (.ok (), after.withMemory (write target after.memory))
  | (.error code, after) => (.error code, after)

variable (ptr : Nat) (data : List Nat)

/-- The bytes of a value are assigned through the reference of `translated_refmut`. -/
def assign : Option (Except Int Unit × World) :=
  (world.translatedRefmut surroundings space ptr).map (writeThrough (writeBytes data))

/-- Data is written to the slices of `translated_byte_buffer`. -/
def fillBuffer : Option (Except Int Unit × World) :=
  (world.translatedByteBuffer surroundings space ptr data.length).map
    (writeThrough (fun slices memory => (UserBuffer.write writeBytes slices data memory).2))

/-- Data that fits into a page is written at once, and page by page otherwise. -/
def copyBytes : Option (Except Int Unit × World) :=
  if onePage ptr data.length then world.assign surroundings space ptr data
  else world.fillBuffer surroundings space ptr data

/-- `copy_to_user`, of the bytes of a value. -/
def copyToUser : Option (Except Int Unit × World) :=
  world.copyBytes surroundings space ptr data

/-- `copy_to_user_array`, of the bytes of all elements. -/
def copyToUserArray : Option (Except Int Unit × World) :=
  world.copyBytes surroundings space ptr data

end CopyOut

/-- The ways in which the kernel writes to a program. -/
inductive CopyOut where
  | copyToUser
  | copyToUserArray
  | translatedRefmut
  | translatedByteBuffer
  deriving DecidableEq, Repr

def copyOut (world : World) (surroundings : Surroundings) (space ptr : Nat) (data : List Nat) :
    CopyOut -> Option (Except Int Unit × World)
  | .copyToUser => world.copyToUser surroundings space ptr data
  | .copyToUserArray => world.copyToUserArray surroundings space ptr data
  | .translatedRefmut => world.assign surroundings space ptr data
  | .translatedByteBuffer => world.fillBuffer surroundings space ptr data

/-! ## The frames that a write goes to -/

/-- The page would be mapped from the page cache. -/
def cachedIn (set : MemorySet) (vpn : Nat) : Bool :=
  set.areas.any (fun area => decide (area.Holds vpn) && area.mapFile.isSome && !area.mapPerm.w)

section Functions

variable (world : World) (surroundings : Surroundings)

/-- The frame of a page as it is or would be after a fault. -/
def frameOf (space vpn : Nat) : Option Nat :=
  world.spaces[space]?.bind (fun set =>
    match set.pageTable.findPte vpn with
    | some pte => some pte.ppn
    | none => if cachedIn set vpn then surroundings.cachePage space vpn else surroundings.frame world)

/-- The frame that a byte of a write goes to.  A value behind a single reference runs on
into the next frame of memory where it crosses the end of a page. -/
def frameOfByte (space ptr index : Nat) : CopyOut -> Option Nat
  | .translatedRefmut =>
    (world.frameOf surroundings space (floor ptr)).map (fun ppn => ppn + (pageOffset ptr + index) / pageSize)
  | _ => world.frameOf surroundings space (floor (ptr + index))

/-- A space has the frame mapped for reading by the program. -/
def Readable (space ppn : Nat) : Prop :=
  ∃ set vpn pte, world.spaces[space]? = some set /\
    set.pageTable.findPte vpn = some pte /\ pte.perm.u = true /\ pte.perm.r = true /\ pte.ppn = ppn

/-- The frame that a page has or would get is read by another space. -/
def Exposed (space vpn reader : Nat) : Prop :=
  ∃ ppn, world.frameOf surroundings space vpn = some ppn /\ world.Readable reader ppn

end Functions

/-! ## Entries -/

def entry (world : World) (space vpn : Nat) : Option Pte :=
  world.spaces[space]?.bind (fun set => set.pageTable.findPte vpn)

def UserPage (world : World) (space vpn : Nat) : Prop :=
  ∃ pte, world.entry space vpn = some pte /\ pte.perm.u = true

/-- The table has the entries it had, and new ones for the user. -/
def Opens (world : World) (space : Nat) (after : World) : Prop :=
  ∀ vpn, after.entry space vpn = world.entry space vpn \/
    (world.entry space vpn = none /\ after.UserPage space vpn)

variable {world after : World} {surroundings : Surroundings} {space : Nat} {set : MemorySet} {vpn ppn : Nat}

theorem entry_of_found (found : world.spaces[space]? = some set) (vpn : Nat) :
    world.entry space vpn = set.pageTable.findPte vpn := by
  rw [entry, found]
  rfl

variable {result : Except Int Nat} {write : List Nat -> Option (Except Int Unit × World)} {next : MemorySet}
  {data addrs : List Nat} {translate : Nat -> Option Nat} {slices : List Slice} {area : MapArea}
  {address other index : Nat}

variable (world)

theorem entry_of_slot (space : Nat) (same : slot other = slot vpn) :
    world.entry space other = world.entry space vpn := by
  unfold entry
  cases world.spaces[space]? with
  | none => rfl
  | some set => exact findPte_of_slot set.pageTable same

theorem translate_eq_map (space vpn : Nat) : world.translate space vpn = (world.entry space vpn).map Pte.ppn := by
  unfold translate entry
  cases world.spaces[space]? <;> rfl

theorem translateVa_eq_map (space va : Nat) : world.translateVa space va =
    (world.entry space (floor va)).map (fun pte => pte.ppn * pageSize + pageOffset va) := by
  unfold translateVa entry
  cases world.spaces[space]? <;> rfl

theorem translate_of_slot (space : Nat) {page : Nat} (same : slot vpn = slot page) :
    world.translate space vpn = world.translate space page := by
  rw [translate_eq_map, translate_eq_map, entry_of_slot world space same]

/-- An address in a frame. -/
theorem floor_frame (ppn va : Nat) : floor (ppn * pageSize + pageOffset va) = ppn := by
  unfold floor pageOffset pageSize
  omega

theorem pageOffset_frame (ppn va : Nat) : pageOffset (ppn * pageSize + pageOffset va) = pageOffset va := by
  unfold pageOffset pageSize
  omega

variable {world}

theorem translateVa_eq_some_iff {va pa : Nat} : world.translateVa space va = some pa ↔
    ∃ ppn, world.translate space (floor va) = some ppn /\ ppn * pageSize + pageOffset va = pa := by
  rw [translateVa_eq_map, translate_eq_map]
  cases world.entry space (floor va) <;> simp

theorem frameOf_of_translate (walked : world.translate space vpn = some ppn) :
    world.frameOf surroundings space vpn = some ppn := by
  rcases bind_eq_some_iff.mp walked with ⟨_, found, translated⟩
  rcases Option.map_eq_some_iff.mp translated with ⟨_, entry, same⟩
  simp only [frameOf, found, bind_some, entry, same]

variable (world) in
theorem Opens.refl (space : Nat) : Opens world space world := fun _ => .inl rfl

theorem Opens.trans {middle : World} (first : Opens world space middle) (second : Opens middle space after) :
    Opens world space after := by
  intro vpn
  rcases second vpn with same | ⟨absent, user⟩
  · rcases first vpn with kept | ⟨missing, pte, found, allowed⟩
    · exact .inl (same.trans kept)
    · exact .inr ⟨missing, pte, same.trans found, allowed⟩
  · rcases first vpn with kept | ⟨_, pte, found, _⟩
    · exact .inr ⟨kept ▸ absent, user⟩
    · rw [found] at absent
      cases absent

theorem Opens.translate_eq (opens : Opens world space after) (walked : world.translate space vpn = some ppn) :
    after.translate space vpn = some ppn := by
  rw [translate_eq_map] at walked ⊢
  rcases opens vpn with same | ⟨absent, _⟩
  · rw [same]
    exact walked
  · rw [absent] at walked
    cases walked

/-! ## What a translation does -/

/-- What a translation leaves as it was: the other spaces, and the frames that are in use. -/
structure Undisturbed (world : World) (space : Nat) (after : World) : Prop where
  valid : Valid after
  held_eq : after.held = world.held
  spaces_eq : ∀ other ≠ space, after.spaces[other]? = world.spaces[other]?
  kept : ∀ ppn, ¬ world.Free ppn -> ¬ after.Free ppn /\ after.memory ppn = world.memory ppn

variable {addr : Nat} {middle : World}

theorem Readable.congr (spaces_eq : after.spaces[other]? = world.spaces[other]?) :
    after.Readable other ppn ↔ world.Readable other ppn := by
  unfold Readable
  rw [spaces_eq]

variable (valid : Valid world)

include valid in
theorem Undisturbed.refl (space : Nat) : Undisturbed world space world :=
  ⟨valid, rfl, fun _ _ => rfl, fun _ used => ⟨used, rfl⟩⟩

theorem Undisturbed.trans (first : Undisturbed world space middle)
    (second : Undisturbed middle space after) : Undisturbed world space after := by
  refine ⟨second.valid, second.held_eq.trans first.held_eq, ?_, ?_⟩
  · intro other different
    exact (second.spaces_eq other different).trans (first.spaces_eq other different)
  · intro ppn used
    rcases first.kept ppn used with ⟨still, same⟩
    exact ⟨(second.kept ppn still).1, (second.kept ppn still).2.trans same⟩

/-- No entry leads to a free frame. -/
theorem Free.not_mapped {pte : Pte} (free : world.Free pte.ppn) (valid : Valid world)
    (found : world.spaces[space]? = some set) : set.pageTable.findPte vpn ≠ some pte :=
  fun mapped => (valid.refers_of_entry found mapped).elim (free _) (free _)

theorem Free.not_readable (free : world.Free ppn) (valid : Valid world) : ¬ world.Readable space ppn := by
  rintro ⟨_, _, _, found, mapped, _, _, rfl⟩
  exact free.not_mapped valid found mapped

theorem Surroundings.Honest.truthful {surroundings : Surroundings} (honest : surroundings.Honest world.held)
    (space addr : Nat) : world.Truthful (.fault space addr (surroundings.env world space (floor addr))) := by
  refine ⟨honest.free world, honest.cached space (floor addr), ?_⟩
  intro set pte found mapped
  unfold Surroundings.env PageTable.translate
  simp only [found, bind_some, mapped, map_some, getD_some]

theorem cachedIn_of_shapes (shapes_eq : next.shapes = set.shapes) (vpn : Nat) :
    cachedIn next vpn = cachedIn set vpn := by
  have derived : ∀ other : MemorySet, cachedIn other vpn = other.shapes.any (fun shape =>
      decide (shape.start <= vpn /\ vpn < shape.stop) && shape.file.isSome && !shape.perm.w) := by
    intro other
    unfold cachedIn MemorySet.shapes
    rw [List.any_map]
    rfl
  rw [derived, derived, shapes_eq]

theorem cachedIn_eq (consistent : MemorySet.Consistent set) (member : area ∈ set.areas)
    (held : area.Holds vpn) : cachedIn set vpn = (area.mapFile.isSome && !area.mapPerm.w) := by
  rw [Bool.eq_iff_iff]
  unfold cachedIn
  rw [List.any_eq_true]
  constructor
  · rintro ⟨_, present, chosen⟩
    rw [Bool.and_assoc, Bool.and_eq_true, decide_eq_true_eq] at chosen
    exact consistent.eq_of_holds present member chosen.1 held ▸ chosen.2
  · intro chosen
    refine ⟨area, member, ?_⟩
    rw [Bool.and_assoc, Bool.and_eq_true, decide_eq_true_eq]
    exact ⟨held, chosen⟩

include valid in
/-- A page that keeps its entry is exposed as before: a new frame is read by nobody. -/
theorem exposed_congr {reader : Nat} (honest : surroundings.Honest world.held)
    (undisturbed : Undisturbed world space after) (different : reader ≠ space)
    (found : world.spaces[space]? = some set) (later : after.spaces[space]? = some next)
    (entry_eq : next.pageTable.findPte vpn = set.pageTable.findPte vpn) (shapes_eq : next.shapes = set.shapes) :
    after.Exposed surroundings space vpn reader ↔ world.Exposed surroundings space vpn reader := by
  have readable : ∀ ppn, after.Readable reader ppn ↔ world.Readable reader ppn :=
    fun ppn => Readable.congr (undisturbed.spaces_eq reader different)
  unfold Exposed frameOf
  simp only [found, later, bind_some, entry_eq, cachedIn_of_shapes shapes_eq, readable]
  cases set.pageTable.findPte vpn with
  | some pte => exact Iff.rfl
  | none =>
    dsimp only
    split
    · exact Iff.rfl
    · refine iff_of_false ?_ ?_
      · rintro ⟨ppn, given, reads⟩
        exact ((undisturbed.held_eq ▸ honest).free after ppn given).not_readable undisturbed.valid ((readable ppn).mpr reads)
      · rintro ⟨ppn, given, reads⟩
        exact (honest.free world ppn given).not_readable valid reads

/-- Pages are looked up, with a fault where they have no entry.  What is exposed is as
before if the pages are numbered as in the table. -/
structure Looked (low : Prop) (surroundings : Surroundings) (world : World) (space : Nat) (after : World) : Prop where
  undisturbed : Undisturbed world space after
  opens : Opens world space after
  exposed : low -> ∀ vpn < 2 ^ 27, ∀ reader ≠ space,
    (after.Exposed surroundings space vpn reader ↔ world.Exposed surroundings space vpn reader)

section Looked

variable {low : Prop}

include valid in
theorem Looked.refl : Looked low surroundings world space world :=
  ⟨.refl valid space, .refl world space, fun _ _ _ _ _ => Iff.rfl⟩

theorem Looked.trans (first : Looked low surroundings world space middle)
    (second : Looked low surroundings middle space after) : Looked low surroundings world space after where
  undisturbed := first.undisturbed.trans second.undisturbed
  opens := first.opens.trans second.opens
  exposed := fun holds vpn small reader different =>
    (second.exposed holds vpn small reader different).trans (first.exposed holds vpn small reader different)

variable (looked : Looked low surroundings world space after)

include looked

theorem Looked.mono {weaker : Prop} (implies : weaker -> low) : Looked weaker surroundings world space after :=
  ⟨looked.undisturbed, looked.opens, fun holds => looked.exposed (implies holds)⟩

theorem Looked.honest (honest : surroundings.Honest world.held) : surroundings.Honest after.held :=
  looked.undisturbed.held_eq ▸ honest

end Looked

/-- One page is looked up. -/
structure Visited (surroundings : Surroundings) (world : World) (space vpn : Nat) (after : World) : Prop
    extends Looked (vpn < 2 ^ 27) surroundings world space after where
  elsewhere : ∀ other, slot other ≠ slot vpn -> after.entry space other = world.entry space other

include valid

theorem Faulted.frameOf_eq {old : Frame} {content : Fill} {filled : World}
    (faulted : Faulted world space addr (surroundings.env world space (floor addr)) set next content filled after)
    (member : area ∈ set.areas) (held : area.Holds (floor addr))
    (placed : area.Placed set.pageTable (floor addr) (surroundings.env world space (floor addr)) old ppn content)
    (absent : set.pageTable.findPte (floor addr) = none) :
    world.frameOf surroundings space (floor addr) = some ppn := by
  have backing := cachedIn_eq (valid.enclosed space set faulted.found).consistent member held
  unfold frameOf
  simp only [faulted.found, bind_some, absent, backing]
  cases placed with
  | upgraded entry _ | copied entry _ _ =>
    rw [absent] at entry
    cases entry
  | zeroed anonymous given | unzipped anonymous given | swappedIn anonymous given =>
    rw [anonymous]
    exact given
  | loaded backed writable given =>
    rw [backed, writable]
    exact given
  | cached backed readOnly given =>
    rw [backed, readOnly]
    exact given

/-- The page that is faulted in had no frame, so no frame is given up. -/
theorem Valid.undisturbed_fault (honest : surroundings.Honest world.held)
    (unmapped : world.entry space (floor addr) = none)
    (done : world.fault space addr (surroundings.env world space (floor addr)) = some after) :
    Undisturbed world space after := by
  have taken : Step world (.fault space addr (surroundings.env world space (floor addr))) after :=
    ⟨honest.truthful space addr, done⟩
  rcases fault_eq_some done with ⟨set, next, content, _, faulted⟩
  rcases faulted.handled with ⟨_, handled⟩
  have consistent := (valid.enclosed space set faulted.found).consistent
  rw [entry_of_found faulted.found] at unmapped
  have kept : (∀ key ppn, (key, Frame.inMemory ppn) ∈ set.records -> (key, Frame.inMemory ppn) ∈ next.records) /\
      ∀ ppn, content.target = some ppn -> world.Free ppn := by
    rcases consistent.doPageFault_cases handled with
      ⟨_, nothing, rearranged⟩ | ⟨_, _, _, _, _, _, _, placed, update⟩
    · rw [nothing]
      exact ⟨fun key ppn member => (rearranged.mem_iff key _).mpr member, fun _ written => by cases written⟩
    · refine ⟨fun key ppn member => ?_, fun ppn written => honest.free world ppn (placed.target_eq written)⟩
      rw [update.mem_iff, if_neg]
      · exact member
      · rintro rfl
        have leads := consistent.translate_eq member
        rw [PageTable.translate, unmapped] at leads
        cases leads
  refine ⟨valid.step taken, faulted.replaces.held_eq, fun _ => faulted.replaces.getElem_other, ?_⟩
  intro ppn used
  refine ⟨fun free => used ?_, faulted.memory_eq fun written => used (kept.2 ppn written)⟩
  intro place refers
  rcases faulted.replaces.place_cases place with ⟨key, rfl⟩ | elsewhere
  · have member := kept.1 key ppn ((faulted.replaces.refers_before key _).mp refers)
    exact free _ ((faulted.replaces.refers_self key _).mpr member)
  · exact free place ((elsewhere _).1.mpr refers)

omit valid in
/-- The success of a page fault of the kernel is the success of the handler. -/
theorem faultIn_eq_some (done : world.faultIn surroundings space addr = some (result, after)) :
    ∃ set next content filled answer,
      world.fault space addr (surroundings.env world space (floor addr)) = some after /\
      Faulted world space addr (surroundings.env world space (floor addr)) set next content filled after /\
      set.doPageFault addr (surroundings.env world space (floor addr)) = .ok (answer, next, content) /\
      ∀ pa, result = .ok pa -> answer = .ok pa := by
  rcases bind_eq_some_iff.mp done with ⟨set, found, handling⟩
  cases outcome : set.doPageFault addr (surroundings.env world space (floor addr)) with
  | error panic => simp [outcome] at handling
  | ok triple =>
    rcases triple with ⟨answer, next, content⟩
    simp only [outcome] at handling
    rcases bind_eq_some_iff.mp handling with ⟨reached, faulting, answered⟩
    have answers : reached = after /\ ∀ pa, result = .ok pa -> answer = .ok pa := by
      cases answer with
      | ok value =>
        cases answered
        exact ⟨rfl, fun _ same => congrArg Except.ok (Except.ok.inj same)⟩
      | error error => cases error <;> cases answered <;> exact ⟨rfl, nofun⟩
    rcases answers with ⟨rfl, given⟩
    rcases fault_eq_some faulting with ⟨_, _, _, filled, faulted⟩
    rcases faulted.handled with ⟨_, handled⟩
    have same := faulted.found.symm.trans found
    cases same
    rw [outcome] at handled
    cases handled
    exact ⟨set, next, content, filled, answer, faulting, faulted, outcome, given⟩

variable (honest : surroundings.Honest world.held) (own : surroundings.current = some space)

include honest own

theorem Valid.checkPageFault_visited (unmapped : world.entry space (floor addr) = none)
    (done : world.checkPageFault surroundings addr = some (result, after)) :
    Visited surroundings world space (floor addr) after /\ ∀ pa, result = .ok pa ->
      after.translateVa space addr = some pa /\ world.frameOf surroundings space (floor addr) = some (floor pa) := by
  rw [checkPageFault, own] at done
  rcases faultIn_eq_some done with ⟨set, next, _, _, _, faulting, faulted, handled, given⟩
  have consistent := (valid.enclosed space set faulted.found).consistent
  have present := faulted.replaces.getElem_self
  have before := entry_of_found faulted.found
  have later := entry_of_found present
  have undisturbed := valid.undisturbed_fault honest unmapped faulting
  rcases consistent.doPageFault_cases handled with
    ⟨⟨_, refused⟩, _, rearranged⟩ | ⟨area, member, user, held, _, ppn, value, placed, update⟩
  · have kept : ∀ vpn, after.entry space vpn = world.entry space vpn := by
      intro vpn
      rw [later, before, rearranged.table_eq]
    refine ⟨⟨⟨undisturbed, fun vpn => .inl (kept vpn), ?_⟩, fun vpn _ => kept vpn⟩, ?_⟩
    · intro _ vpn _ reader different
      exact exposed_congr valid honest undisturbed different faulted.found present
        (congrArg (findPte · vpn) rearranged.table_eq) rearranged.shapes_eq
    · intro pa succeeds
      rw [given pa succeeds] at refused
      cases refused
  · have here : after.entry space (floor addr) = some ⟨ppn, area.mapPerm⟩ := by
      rw [later, update.table_eq, findPte_set_same]
    have entry_eq : ∀ vpn, slot vpn ≠ slot (floor addr) ->
        next.pageTable.findPte vpn = set.pageTable.findPte vpn := by
      intro vpn apart
      rw [update.table_eq, findPte_set_of_ne apart]
    have frame := faulted.frameOf_eq valid member held placed ((before _).symm.trans unmapped)
    refine ⟨⟨⟨undisturbed, fun vpn => ?_, ?_⟩, fun vpn apart => ?_⟩, ?_⟩
    · by_cases same : slot vpn = slot (floor addr)
      · right
        rw [UserPage, entry_of_slot after space same, entry_of_slot world space same]
        exact ⟨unmapped, _, here, user⟩
      · rw [later, before]
        exact .inl (entry_eq vpn same)
    · intro low vpn small reader different
      by_cases same : slot vpn = slot (floor addr)
      · have page : vpn = floor addr := by
          unfold slot at same
          omega
        have leads : after.translate space (floor addr) = some ppn := by
          rw [translate_eq_map, here]
          rfl
        unfold Exposed
        rw [page, frame, frameOf_of_translate leads]
        simp only [Readable.congr (undisturbed.spaces_eq reader different)]
      · exact exposed_congr valid honest undisturbed different faulted.found present (entry_eq vpn same)
          update.shapes_eq
    · rw [later, before]
      exact entry_eq vpn apart
    · intro pa succeeds
      rw [given pa succeeds] at value
      cases value
      rw [translateVa_eq_map, here, floor_frame]
      exact ⟨rfl, frame⟩

theorem Valid.translatedRefmut_visited {ptr : Nat}
    (done : world.translatedRefmut surroundings space ptr = some (result, after)) :
    Visited surroundings world space (floor ptr) after /\ ∀ pa, result = .ok pa ->
      after.translateVa space ptr = some pa /\ world.frameOf surroundings space (floor ptr) = some (floor pa) := by
  unfold translatedRefmut at done
  cases walked : world.translateVa space ptr with
  | none =>
    rw [walked] at done
    rw [translateVa_eq_map, map_eq_none_iff] at walked
    exact valid.checkPageFault_visited honest own walked done
  | some found =>
    rw [walked] at done
    cases done
    refine ⟨⟨.refl valid, fun _ _ => rfl⟩, ?_⟩
    rintro pa ⟨⟩
    rcases translateVa_eq_some_iff.mp walked with ⟨_, leads, rfl⟩
    rw [floor_frame]
    exact ⟨walked, frameOf_of_translate leads⟩

theorem Valid.translatedPage_looked (done : world.translatedPage surroundings space vpn = some (result, after)) :
    Looked (vpn < 2 ^ 27) surroundings world space after /\
      ∀ ppn, result = .ok ppn -> after.translate space vpn = some ppn := by
  unfold translatedPage at done
  cases walked : world.translate space vpn with
  | some found =>
    rw [walked] at done
    cases done
    refine ⟨.refl valid, ?_⟩
    rintro ppn ⟨⟩
    exact walked
  | none =>
    have aligned : slot (floor (startAddr vpn)) = slot vpn /\ (vpn < 2 ^ 27 -> floor (startAddr vpn) < 2 ^ 27) := by
      unfold slot floor startAddr pageSize usizeRange
      omega
    rw [walked] at done
    rw [translate_eq_map, map_eq_none_iff] at walked
    rcases Option.map_eq_some_iff.mp done with ⟨⟨answer, reached⟩, faulted, same⟩
    cases same
    rcases valid.checkPageFault_visited honest own ((entry_of_slot world space aligned.1).trans walked) faulted with
      ⟨visited, found⟩
    refine ⟨visited.toLooked.mono aligned.2, ?_⟩
    intro ppn succeeds
    cases answer with
    | error code => cases succeeds
    | ok pa =>
      cases succeeds
      rcases translateVa_eq_some_iff.mp (found pa rfl).1 with ⟨ppn, leads, rfl⟩
      rw [floor_frame, <- translate_of_slot reached space aligned.1]
      exact leads

omit honest own

omit valid

variable (world) in
theorem translateVa_eq_locate (space : Nat) : world.translateVa space = locate (world.translate space) := by
  funext va
  rw [translateVa_eq_map, locate, translate_eq_map, Option.map_map]
  rfl

include valid honest own

/-- The loop looks pages up until one cannot be mapped. -/
theorem Valid.bufferLoop_looked {fuel start stop : Nat} {result : Except Int (List Slice)}
    (done : bufferLoop (fun world vpn => world.translatedPage surroundings space vpn) stop fuel world start =
      some (result, after)) :
    Ran (Looked (stop <= 2 ^ 39) surroundings world space) (fun reached vpn ppn => reached.translate space vpn = some ppn)
      world start stop result after := by
  refine .of_rounds (fun reached start answer later looked more page => ?_) (.refl valid) done
  rcases looked.undisturbed.valid.translatedPage_looked (looked.honest honest) own page with ⟨next, found⟩
  have low : stop <= 2 ^ 39 -> floor start < 2 ^ 27 := by
    unfold floor pageSize
    omega
  exact ⟨looked.trans (next.mono low), fun _ _ walked => next.opens.translate_eq walked, found⟩

theorem Valid.translatedByteBuffer_located {ptr len : Nat} (small : ptr + len < usizeRange)
    (done : world.translatedByteBuffer surroundings space ptr len = some (.ok slices, after)) :
    Looked (ptr + len <= 2 ^ 39) surroundings world space after /\
      (UserBuffer.addrs slices).map some = (range' ptr len).map (after.translateVa space) /\
      UserBuffer.len slices = len := by
  unfold translatedByteBuffer at done
  rw [Nat.mod_eq_of_lt small] at done
  have ran := valid.bufferLoop_looked honest own done
  have range := locate_eq_of_placed (ran.placed slices rfl).2
  rw [Nat.add_sub_cancel_left, <- translateVa_eq_locate] at range
  have length_eq := congrArg length range
  rw [length_map, length_map, length_range', UserBuffer.length_addrs] at length_eq
  exact ⟨ran.holds, range, length_eq⟩

/-! ## What other spaces see of a write -/

variable {reader ptr len : Nat}

omit valid honest own

theorem load_of_entry {pte : Pte} (found : world.entry space (floor address) = some pte) :
    world.load space address =
      if pte.perm.u && pte.perm.r then some (byteAt world.memory (pte.ppn * pageSize + pageOffset address)) else none := by
  rcases bind_eq_some_iff.mp found with ⟨_, present, mapped⟩
  unfold load byteAt
  rw [present, bind_some, mapped, bind_some, floor_frame, pageOffset_frame]

theorem load_of_unmapped (absent : world.entry space (floor address) = none) :
    world.load space address = none := by
  unfold load
  unfold entry at absent
  cases found : world.spaces[space]? with
  | none => rfl
  | some set =>
    rw [found, bind_some] at absent
    rw [bind_some, absent]
    rfl

theorem readable_iff : world.Readable space ppn ↔ ∃ vpn pte,
    world.entry space vpn = some pte /\ pte.perm.u = true /\ pte.perm.r = true /\ pte.ppn = ppn := by
  unfold Readable entry
  simp only [bind_eq_some_iff]
  constructor
  · rintro ⟨set, vpn, pte, found, mapped, rest⟩
    exact ⟨vpn, pte, ⟨set, found, mapped⟩, rest⟩
  · rintro ⟨vpn, pte, ⟨set, found, mapped⟩, rest⟩
    exact ⟨set, vpn, pte, found, mapped, rest⟩

/-- Another space reads what it did, whatever data of a length is written. -/
def Unseen (world : World) (reader len : Nat) (write : List Nat -> Option (Except Int Unit × World)) : Prop :=
  ∀ data, data.length = len -> ∀ after, write data = some (.ok (), after) ->
    ∀ address, after.load reader address = world.load reader address

/-- Data of a length is put at addresses. -/
def Puts (len : Nat) (write : List Nat -> Option (Except Int Unit × World)) (addrs : List Nat) (middle : World) : Prop :=
  ∀ data, data.length = len -> ∃ memory, write data = some (.ok (), middle.withMemory memory) /\
    byteAt memory = scatter addrs data (byteAt middle.memory)

/-- A byte that a space cannot read may change. -/
theorem load_of_apart {memory : Nat -> Page} (apart : ∀ pa ∈ addrs, ¬ middle.Readable reader (floor pa))
    (scattered : byteAt memory = scatter addrs data (byteAt middle.memory)) (address : Nat) :
    (middle.withMemory memory).load reader address = middle.load reader address := by
  have entry_eq : ∀ vpn, (middle.withMemory memory).entry reader vpn = middle.entry reader vpn := fun _ => rfl
  cases mapped : middle.entry reader (floor address) with
  | none => rw [load_of_unmapped mapped, load_of_unmapped ((entry_eq _).trans mapped)]
  | some pte =>
    rw [load_of_entry mapped, load_of_entry ((entry_eq _).trans mapped)]
    split
    · next allowed =>
      rw [Bool.and_eq_true] at allowed
      have missed : pte.ppn * pageSize + pageOffset address ∉ addrs := by
        intro member
        refine apart _ member ?_
        rw [floor_frame]
        exact readable_iff.mpr ⟨_, pte, mapped, allowed.1, allowed.2, rfl⟩
      change some (byteAt memory _) = _
      rw [scattered, scatter_of_not_mem missed]
    · rfl

/-- A write that may put any data at its addresses is unseen by a space exactly if the space
reads none of their frames and reads otherwise what it did. -/
theorem Puts.unseen_iff (puts : Puts len write addrs middle) (fits : addrs.length <= len) :
    Unseen world reader len write ↔ (∀ address, middle.load reader address = world.load reader address) /\
      ∀ pa ∈ addrs, ¬ middle.Readable reader (floor pa) := by
  constructor
  · intro unseen
    have apart : ∀ pa ∈ addrs, ¬ middle.Readable reader (floor pa) := by
      intro pa member readable
      rcases readable_iff.mp readable with ⟨vpn, pte, mapped, user, allowed, same⟩
      -- one byte, different from what was there, in every place
      let address := vpn * pageSize + pageOffset pa
      let other := ((world.load reader address).map (· + 1)).getD 0
      rcases puts (replicate len other) length_replicate with ⟨memory, written, scattered⟩
      have changed := unseen _ length_replicate _ written address
      have cell : pte.ppn * pageSize + pageOffset pa = pa := by
        rw [same]
        unfold floor pageOffset pageSize
        omega
      have placed : byteAt memory pa = other := by
        rw [scattered]
        exact eq_of_mem_replicate (scatter_mem (by rw [length_replicate]; exact fits) member)
      have later : (middle.withMemory memory).entry reader (floor address) = some pte := by
        rw [floor_frame]
        exact mapped
      rw [load_of_entry later, user, allowed, pageOffset_frame, cell] at changed
      change some (byteAt memory pa) = _ at changed
      rw [placed] at changed
      cases before : world.load reader address with
      | none =>
        rw [before] at changed
        cases changed
      | some byte =>
        simp [other, before] at changed
    refine ⟨fun address => ?_, apart⟩
    rcases puts (replicate len 0) length_replicate with ⟨memory, written, scattered⟩
    rw [<- load_of_apart apart scattered, unseen _ length_replicate _ written]
  · rintro ⟨same, apart⟩ data length_eq after done address
    rcases puts data length_eq with ⟨memory, written, scattered⟩
    rw [written] at done
    cases done
    rw [load_of_apart apart scattered, same]

theorem writeThrough_eq_ok {Target : Type} {translation : Option (Except Int Target × World)}
    {write : Target -> (Nat -> Page) -> Nat -> Page} :
    translation.map (writeThrough write) = some (.ok (), after) ↔ ∃ target middle,
      translation = some (.ok target, middle) /\ after = middle.withMemory (write target middle.memory) := by
  rw [Option.map_eq_some_iff]
  constructor
  · rintro ⟨⟨result, middle⟩, translated, written⟩
    cases result with
    | error code => cases written
    | ok target =>
      cases written
      exact ⟨target, middle, translated, rfl⟩
  · rintro ⟨target, middle, translated, rfl⟩
    exact ⟨_, translated, rfl⟩

section Written

variable (world surroundings space ptr len)

def assigned : Option (Except Int (List Nat) × World) :=
  (world.translatedRefmut surroundings space ptr).map (fun outcome => (outcome.1.map (range' · len), outcome.2))

def filled : Option (Except Int (List Nat) × World) :=
  (world.translatedByteBuffer surroundings space ptr len).map
    (fun outcome => (outcome.1.map (fun slices => (UserBuffer.addrs slices).take len), outcome.2))

/-- The addresses that a write of a length goes to, with the world after their translation. -/
def written : CopyOut -> Option (Except Int (List Nat) × World)
  | .translatedRefmut => world.assigned surroundings space ptr len
  | .translatedByteBuffer => world.filled surroundings space ptr len
  | _ => if onePage ptr len then world.assigned surroundings space ptr len
    else world.filled surroundings space ptr len

end Written

/-- None of the addresses that are found can be read by another space, and the page faults on the way
have changed nothing there. -/
def Separated (world : World) (reader : Nat) (found : Option (Except Int (List Nat) × World)) : Prop :=
  ∀ addrs middle, found = some (.ok addrs, middle) ->
    (∀ address, middle.load reader address = world.load reader address) /\
      ∀ pa ∈ addrs, ¬ middle.Readable reader (floor pa)

/-- A write through what a translation finds is unseen exactly if the addresses are separated. -/
theorem unseen_iff_separated {Target : Type} {translated : Option (Except Int Target × World)}
    {addrOf : Target -> List Nat} (through : List Nat -> Target -> (Nat -> Page) -> Nat -> Page)
    (fits : ∀ target, (addrOf target).length <= len)
    (same : ∀ data, data.length = len -> write data = translated.map (writeThrough (through data)))
    (places : ∀ data, data.length = len -> ∀ target memory,
      byteAt (through data target memory) = scatter (addrOf target) data (byteAt memory)) :
    Unseen world reader len write ↔
      Separated world reader (translated.map (fun outcome => (outcome.1.map addrOf, outcome.2))) := by
  rcases translated with _ | ⟨_ | target, middle⟩
  · refine iff_of_true (fun data length_eq after done => ?_) nofun
    rw [same data length_eq] at done
    cases done
  · refine iff_of_true (fun data length_eq after done => ?_) nofun
    rw [same data length_eq] at done
    cases done
  · have puts : Puts len write (addrOf target) middle := fun data length_eq =>
      ⟨_, same data length_eq, places data length_eq target middle.memory⟩
    rw [puts.unseen_iff (fits target)]
    refine ⟨fun apart addrs after found => ?_, fun separated => separated _ _ rfl⟩
    cases found
    exact apart

theorem copyOut_unseen_iff_separated (way : CopyOut) :
    Unseen world reader len (fun data => world.copyOut surroundings space ptr data way) ↔
      Separated world reader (world.written surroundings space ptr len way) := by
  have assigned : ∀ write, (∀ data, data.length = len -> write data = world.assign surroundings space ptr data) ->
      (Unseen world reader len write ↔ Separated world reader (world.assigned surroundings space ptr len)) := by
    intro write same
    refine unseen_iff_separated writeBytes (fun _ => length_range'.le) same ?_
    rintro data rfl pa memory
    exact byteAt_writeBytes data pa memory
  have filled : ∀ write, (∀ data, data.length = len -> write data = world.fillBuffer surroundings space ptr data) ->
      (Unseen world reader len write ↔ Separated world reader (world.filled surroundings space ptr len)) := by
    intro write same
    refine unseen_iff_separated (fun data slices memory => (UserBuffer.write writeBytes slices data memory).2)
      (fun _ => length_take_le len _) (fun data length_eq => ?_) ?_
    · rw [same data length_eq, fillBuffer, length_eq]
    · rintro data rfl slices memory
      rw [scatter_take]
      exact UserBuffer.write_eq_scatter byteAt_writeBytes slices data memory
  have bytes : Unseen world reader len (world.copyBytes surroundings space ptr) ↔
      Separated world reader (world.written surroundings space ptr len .copyToUser) := by
    change _ ↔ Separated world reader (if onePage ptr len then _ else _)
    split
    · next short => exact assigned _ (fun data length_eq => if_pos (length_eq ▸ short))
    · next long => exact filled _ (fun data length_eq => if_neg (length_eq ▸ long))
  cases way with
  | copyToUser | copyToUserArray => exact bytes
  | translatedRefmut => exact assigned _ fun _ _ => rfl
  | translatedByteBuffer => exact filled _ fun _ _ => rfl

/-! ## Writes to the space of the running task -/

theorem map_eq_ok {Value Result : Type} {call : Option (Except Int Value × World)}
    {change : Except Int Value × World -> Value -> Result} {result : Result}
    (done : call.map (fun outcome => (outcome.1.map (change outcome), outcome.2)) = some (.ok result, after)) :
    ∃ value, call = some (.ok value, after) /\ change (.ok value, after) value = result := by
  rcases Option.map_eq_some_iff.mp done with ⟨⟨answer, _⟩, rfl, same⟩
  cases answer with
  | error code => cases same
  | ok value =>
    cases same
    exact ⟨value, rfl, rfl⟩

/-- No byte of a range within one page leaves it. -/
theorem onePage_page (short : onePage ptr len = true) (inside : ptr + len <= usizeRange) (below : index < len) :
    floor (ptr + index) = floor ptr /\ pageOffset (ptr + index) = pageOffset ptr + index := by
  unfold onePage usizeRange floor pageSize at short
  rw [decide_eq_true_eq] at short
  unfold usizeRange at inside
  unfold floor pageOffset pageSize
  omega

include valid honest own

theorem Valid.written_located {way : CopyOut} (paged : way ≠ .translatedRefmut) (small : ptr + len < usizeRange)
    (found : world.written surroundings space ptr len way = some (.ok addrs, middle)) :
    Looked (ptr + len <= 2 ^ 39 /\ 0 < len) surroundings world space middle /\
      addrs.map some = (range' ptr len).map (middle.translateVa space) := by
  by_cases short : way ≠ .translatedByteBuffer /\ onePage ptr len = true
  · have assigned : world.assigned surroundings space ptr len = some (.ok addrs, middle) := by
      cases way <;> simp_all [written]
    rcases map_eq_ok assigned with ⟨pa, translated, rfl⟩
    rcases valid.translatedRefmut_visited honest own translated with ⟨visited, located⟩
    rcases translateVa_eq_some_iff.mp (located pa rfl).1 with ⟨ppn, leads, rfl⟩
    refine ⟨visited.toLooked.mono ?_, ?_⟩
    · unfold floor pageSize
      omega
    · rw [translateVa_eq_locate]
      exact locate_eq_of_placed (placed_range leads fun index below => onePage_page short.2 small.le below)
  · have filled : world.filled surroundings space ptr len = some (.ok addrs, middle) := by
      cases way <;> simp_all [written]
    rcases map_eq_ok filled with ⟨slices, translated, rfl⟩
    rcases valid.translatedByteBuffer_located honest own small translated with ⟨looked, range, total⟩
    rw [take_of_length_le (UserBuffer.length_addrs slices ▸ total.le)]
    exact ⟨looked.mono And.left, range⟩

/-- The frames that the pages have or would get cannot be read by another space. -/
def FramesApart (world : World) (surroundings : Surroundings) (way : CopyOut) (space reader ptr len : Nat) : Prop :=
  ∀ index < len, ∀ ppn, world.frameOfByte surroundings space ptr index way = some ppn ->
    ¬ world.Readable reader ppn

omit honest own in
/-- A translation leaves other spaces and what they read as it was. -/
theorem Undisturbed.load_eq (undisturbed : Undisturbed world space middle) (different : reader ≠ space) (address : Nat) :
    middle.load reader address = world.load reader address := by
  refine load_congr (undisturbed.spaces_eq reader different) ?_ address
  intro set vpn pte present mapped
  exact (undisturbed.kept pte.ppn fun free => free.not_mapped valid present mapped).2

omit honest own in
theorem Undisturbed.separated_iff {found : Option (Except Int (List Nat) × World)}
    (undisturbed : Undisturbed world space middle) (different : reader ≠ space) (given : found = some (.ok addrs, middle)) :
    Separated world reader found ↔ ∀ pa ∈ addrs, ¬ world.Readable reader (floor pa) := by
  subst given
  simp only [<- Readable.congr (undisturbed.spaces_eq reader different)]
  refine ⟨fun separated => (separated _ _ rfl).2, fun apart addrs after found => ?_⟩
  cases found
  exact ⟨undisturbed.load_eq valid different, apart⟩

omit honest own in
/-- A range is separated exactly if no page of it is exposed. -/
theorem Looked.separated_iff {found : Option (Except Int (List Nat) × World)}
    (looked : Looked (ptr + len <= 2 ^ 39 /\ 0 < len) surroundings world space middle) (inside : ptr + len <= 2 ^ 39)
    (range : addrs.map some = (range' ptr len).map (middle.translateVa space)) (different : reader ≠ space)
    (given : found = some (.ok addrs, middle)) :
    Separated world reader found ↔
      ∀ index < len, ¬ world.Exposed surroundings space (floor (ptr + index)) reader := by
  have exposed_iff : ∀ va pa, ptr <= va -> va < ptr + len -> middle.translateVa space va = some pa ->
      (world.Exposed surroundings space (floor va) reader ↔ world.Readable reader (floor pa)) := by
    intro va pa above below found
    have small : floor va < 2 ^ 27 := by
      unfold floor pageSize
      omega
    rcases translateVa_eq_some_iff.mp found with ⟨_, leads, rfl⟩
    rw [<- looked.exposed ⟨inside, by omega⟩ (floor va) small reader different, Exposed, frameOf_of_translate leads, floor_frame]
    simp only [some.injEq, exists_eq_left', Readable.congr (looked.undisturbed.spaces_eq reader different)]
  rw [looked.undisturbed.separated_iff valid different given]
  constructor
  · intro apart index below exposed
    have member : middle.translateVa space (ptr + index) ∈ addrs.map some := by
      rw [range]
      refine mem_map_of_mem ?_
      rw [mem_range'_1]
      omega
    rcases mem_map.mp member with ⟨pa, written, found⟩
    exact apart pa written ((exposed_iff _ pa (by omega) (by omega) found.symm).mp exposed)
  · intro apart pa member readable
    have found : some pa ∈ (range' ptr len).map (middle.translateVa space) := by
      rw [<- range]
      exact mem_map_of_mem member
    rcases mem_map.mp found with ⟨va, inRange, leads⟩
    rw [mem_range'_1] at inRange
    have exposed := (exposed_iff va pa inRange.1 inRange.2 leads).mpr readable
    rw [show va = ptr + (va - ptr) by omega] at exposed
    exact apart (va - ptr) (by omega) exposed

theorem Valid.separated_iff_framesApart {way : CopyOut} (different : reader ≠ space) (inside : ptr + len <= 2 ^ 39)
    (found : world.written surroundings space ptr len way = some (.ok addrs, middle)) :
    Separated world reader (world.written surroundings space ptr len way) ↔
      FramesApart world surroundings way space reader ptr len := by
  by_cases paged : way = .translatedRefmut
  · subst paged
    rcases map_eq_ok found with ⟨pa, translated, rfl⟩
    rcases valid.translatedRefmut_visited honest own translated with ⟨visited, located⟩
    rcases located pa rfl with ⟨leads, frame⟩
    rcases translateVa_eq_some_iff.mp leads with ⟨ppn, _, rfl⟩
    rw [floor_frame] at frame
    have frames : ∀ index, floor (ppn * pageSize + pageOffset ptr + index) =
        ppn + (pageOffset ptr + index) / pageSize := by
      intro index
      unfold floor pageSize
      omega
    rw [visited.undisturbed.separated_iff valid different found]
    unfold FramesApart frameOfByte
    simp only [frame, map_some, some.injEq, forall_eq', <- frames, mem_range'_1]
    constructor
    · intro apart index below
      exact apart _ ⟨Nat.le_add_right _ _, by omega⟩
    · intro apart pa range
      have here := apart (pa - (ppn * pageSize + pageOffset ptr)) (by omega)
      rw [Nat.add_sub_cancel' range.1] at here
      exact here
  · have small : ptr + len < usizeRange := by
      unfold usizeRange
      omega
    rcases valid.written_located honest own paged small found with ⟨looked, range⟩
    rw [looked.separated_iff valid inside range different found]
    cases way with
    | translatedRefmut => exact absurd rfl paged
    | _ => simp only [FramesApart, frameOfByte, Exposed, not_exists, not_and]

omit valid honest own

/-- No memory to hand out, and no files. -/
def bareSurroundings (current : Nat) : Surroundings := ⟨fun _ => none, fun _ _ => 0, fun _ _ => none, some current⟩

theorem bareSurroundings_honest (current : Nat) (held : List Nat) : (bareSurroundings current).Honest held :=
  ⟨nofun, nofun⟩

end World

end GCore.Mm
