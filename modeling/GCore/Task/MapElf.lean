import GCore.Mm.ProgramArea
import GCore.Task.ElfFile

namespace GCore.Task

open Library Mm List

/-!
# Mapping the segments of a program

`map_elf` goes through the program headers of a file.  Segments are mapped into a new
space; for a header that names an interpreter, the file of the interpreter is mapped into
the kernel's space and `map_elf` calls itself.  An interpreter may name an interpreter
again, so there is a bound on the calls here.

A call panics, or it has used up the bound, or it returns.  If it returns an error, then
the space under construction is dropped, and what is left is the kernel's space.  The
contents of the frames are not recorded.

What a file asks for is collected in a requirement: a condition on the file and on the
kernel's space, the entries of the page table that have to be free, and a number of
frames.  A call gets through if and only if the requirement is met.
-/

/-- `ELF_DYN_BASE` -/
def elfDynBase : Nat := taskSize / 3 * 2

/-- A file with the frames of its page cache. -/
structure CachedFile where
  data : List Byte
  caches : List Nat
  covered : caches.length = (data.length + 4095) / 4096
  small : data.length < 2 ^ 63

theorem CachedFile.caches_ne_nil {file : CachedFile} (nonempty : 0 < file.data.length) : file.caches ≠ [] := by
  rw [<- length_pos_iff, file.covered]
  omega

/-- What `ROOT_FD.open` finds for the bytes of a path.  Devices are files of size zero. -/
abbrev Files := List Byte -> Except Int CachedFile

inductive Attempt (α : Type) where
  | panicked
  /-- the bound on the calls is used up -/
  | unfinished
  | failed (errno : Int) (kernel : MemorySet)
  | done (value : α)

variable {kernel : MemorySet}

namespace Attempt

variable {α β : Type}

def bind : Attempt α -> (α -> Attempt β) -> Attempt β
  | panicked, _ => panicked
  | unfinished, _ => unfinished
  | failed errno kernel, _ => failed errno kernel
  | done value, next => next value

instance : Monad Attempt where
  pure := done
  bind := bind

def unwrap : Option α -> Attempt α
  | none => panicked
  | some value => done value

/-- Unwrap what the parser returns. -/
def unwrapResult : Option (Except String α) -> Attempt α
  | some (.ok value) => done value
  | _ => panicked

variable {result : Option (Except String α)} {next : α -> Attempt β} {outcome : Attempt α} {option : Option α}
  {value : α}

@[simp]
theorem bind_eq_done_iff {value : β} :
    (outcome >>= next) = done value ↔ ∃ first, outcome = done first /\ next first = done value := by
  cases outcome with
  | done first => simp [Bind.bind, bind]
  | _ => exact ⟨nofun, nofun⟩

variable {errno : Int}

@[simp]
theorem bind_eq_failed_iff :
    (outcome >>= next) = failed errno kernel ↔
      outcome = failed errno kernel \/ ∃ first, outcome = done first /\ next first = failed errno kernel := by
  cases outcome <;> simp [Bind.bind, bind]

@[simp]
theorem unwrap_eq_done_iff : unwrap option = done value ↔ option = some value := by
  cases option <;> simp [unwrap]

@[simp]
theorem unwrap_ne_failed : unwrap option ≠ failed errno kernel := by
  cases option <;> nofun

@[simp]
theorem unwrapResult_eq_done_iff : unwrapResult result = done value ↔ result = some (.ok value) := by
  rcases result with _ | _ | other <;> simp [unwrapResult]

@[simp]
theorem unwrapResult_ne_failed : unwrapResult result ≠ failed errno kernel := by
  rcases result with _ | _ | other <;> nofun

end Attempt

open Attempt

/-- The kernel's space, the space that is built, and the free frames. -/
structure Loader where
  kernel : MemorySet
  user : MemorySet
  frames : List Nat

structure ElfInfo where
  entry : Nat
  interpEntry : Option Nat
  base : Nat
  phnum : Nat
  phent : Nat
  phdr : Nat
  deriving DecidableEq, Repr

/-- The variables of the loop over the program headers. -/
structure Progress where
  loader : Loader
  programBreak : Option Nat
  interpEntry : Option Nat
  interpBase : Option Nat
  loadAddr : Option Nat

namespace ProgramHeader

variable (ph : ProgramHeader) (bias : Nat)

def startVa : Nat := (ph.virtualAddr + bias) % usizeRange

def endVa : Nat := ((ph.virtualAddr + ph.memSize) % usizeRange + bias) % usizeRange

/-- `MapPermission::from_ph_flags` -/
def mapPerm : MapPermission := ⟨ph.isRead, ph.isWrite, ph.isExecute, true⟩

/-- The pages of the segment are taken over from the page cache. -/
def Shared : Prop :=
  pageOffset (ph.startVa bias) = 0 /\ pageOffset ph.offset = 0 /\ ph.fileSize ≠ 0 /\ ph.mapPerm.w = false

instance : Decidable (ph.Shared bias) := inferInstanceAs (Decidable (_ /\ _ /\ _ /\ _))

end ProgramHeader

namespace Loader

variable (loader : Loader)

/-- Push an area with new frames. -/
def pushArea (area : MapArea) : Attempt Loader :=
  match loader.user.push area loader.frames with
  | .error _ => .panicked
  | .ok user => .done { loader with user := user, frames := loader.frames.drop (area.stop - area.start) }

def insertFramedArea (startVa endVa : Nat) (perm : MapPermission) : Attempt Loader := do
  let area <- unwrap (MapArea.new startVa endVa perm none)
  loader.pushArea area

/-- The branch of `map_elf` for a segment to load. -/
def mapSegment (elf : ElfFile) (addr bias : Nat) (ph : ProgramHeader) : Attempt Loader := do
  let area <- unwrap (MapArea.new (ph.startVa bias) (ph.endVa bias) ph.mapPerm none)
  if ph.Shared bias then
    if ceil ph.fileSize = area.stop - area.start then do
      let (area, table) <- unwrap (area.mapFromKernelArea loader.user.pageTable loader.kernel.areas
        (floor ((addr + ph.offset) % usizeRange)))
      pure { loader with user := ⟨table, loader.user.areas ++ [area]⟩ }
    else .panicked
  else
    -- the slice of the file
    let stop := (ph.offset + ph.fileSize) % usizeRange
    if ph.offset <= stop /\ stop <= elf.input.length then loader.pushArea area else .panicked

/-- With the file, the address where it is mapped now. -/
def loadElfInterp (files : Files) (path : List Byte) : Attempt (CachedFile × Nat × Loader) :=
  match files path with
  | .error errno => .failed errno loader.kernel
  | .ok file =>
    if file.data.length < 4 then .failed ELIBBAD loader.kernel
    else if file.data.take 4 ≠ magic then .failed ELIBBAD loader.kernel
    else do
      let page <- unwrap loader.kernel.highestPage
      let kernel <- unwrap (loader.kernel.insertProgramArea (page * pageSize) MemorySet.readWrite
        (file.caches.map .inMemory))
      pure (file, page * pageSize, { loader with kernel := kernel })

end Loader

/-- The slice of the file with the path of the interpreter, without its last byte. -/
def interpPath (elf : ElfFile) (ph : ProgramHeader) : Option (List Byte) :=
  let stop := (ph.offset + ph.fileSize + usizeRange - 1) % usizeRange
  if ph.offset <= stop /\ stop <= elf.input.length then some ((elf.input.drop ph.offset).take (stop - ph.offset))
  else none

section Loops

variable (files : Files)

/-- The branch of `map_elf` for an interpreter, which calls `map_elf` again. -/
def mapInterp (mapElf : ElfFile -> Nat -> Loader -> Attempt (Nat × ElfInfo × Loader)) (elf : ElfFile)
    (progress : Progress) (ph : ProgramHeader) : Attempt Progress := do
  let path <- unwrap (interpPath elf ph)
  let (file, addr, loader) <- progress.loader.loadElfInterp files path
  let interp <- unwrapResult (ElfFile.new file.data)
  let (_, info, loader) <- mapElf interp addr loader
  let kernel <- unwrap (loader.kernel.removeAreaWithStartVpn ((addr + 4095) / pageSize))
  pure { progress with
    loader := { loader with kernel := kernel }
    interpEntry := some info.entry
    interpBase := some info.base }

/-- The body of the loop over the program headers. -/
def mapHeader (mapElf : ElfFile -> Nat -> Loader -> Attempt (Nat × ElfInfo × Loader)) (elf : ElfFile)
    (addr bias : Nat) (progress : Progress) (ph : ProgramHeader) : Attempt Progress :=
  match ph.getType with
  | .error _ => .panicked
  | .ok .load => do
      let loader <- progress.loader.mapSegment elf addr bias ph
      pure { progress with
        loader := loader
        programBreak := some (startAddr (ceil (ph.endVa bias)))
        loadAddr := some (progress.loadAddr.getD (ph.startVa bias)) }
  | .ok .interp => mapInterp files mapElf elf progress ph
  | .ok _ => .done progress

/-- Count a header that names an interpreter. -/
def countInterp (count : Nat) (ph : ProgramHeader) : Attempt Nat :=
  match ph.getType with
  | .error _ => .panicked
  | .ok type_ => .done (if type_ = .interp then count + 1 else count)

/-- A loop over `program_iter`, which reads each header when it comes to it. -/
def forHeaders {σ : Type} (elf : ElfFile) (body : σ -> ProgramHeader -> Attempt σ) (start : σ) : Attempt σ :=
  (List.range elf.phNumber).foldlM (fun state index => do
    let ph <- unwrap (elf.programHeader index)
    body state ph) start

/-- The address that is added to the addresses of the file. -/
def biasOf (elf : ElfFile) (kernel : MemorySet) : Attempt Nat :=
  if elf.header.type_ = 2 then .done 0
  else if elf.header.type_ = 3 then do
    match <- forHeaders elf countInterp 0 with
    | 0 => .done elfDynBase
    | 1 => .done 0
    | _ => .failed EINVAL kernel
  else .failed ENOEXEC kernel

def elfInfo (elf : ElfFile) (bias : Nat) (progress : Progress) (loadAddr : Nat) : ElfInfo where
  entry := (elf.header.entryPoint + bias) % usizeRange
  interpEntry := progress.interpEntry
  base := progress.interpBase.getD bias
  phnum := elf.header.phCount
  phent := elf.header.phEntrySize
  phdr := (loadAddr + elf.header.phOffset) % usizeRange

def mapElf : Nat -> ElfFile -> Nat -> Loader -> Attempt (Nat × ElfInfo × Loader)
  | 0, _, _, _ => .unfinished
  | calls + 1, elf, addr, loader => do
      let bias <- biasOf elf loader.kernel
      let progress <- forHeaders elf (mapHeader files (mapElf calls) elf addr bias) ⟨loader, none, none, none, none⟩
      match progress.programBreak, progress.loadAddr with
      | some programBreak, some loadAddr => .done (programBreak, elfInfo elf bias progress loadAddr, progress.loader)
      | _, _ => .failed ENOEXEC progress.loader.kernel

end Loops

/-! ## Requirements -/

structure Requirement where
  sound : Prop
  /-- the pages to map, none of which may share an entry with another or be mapped -/
  pages : List Nat
  /-- how many of them need a new frame -/
  frames : Nat

namespace Requirement

/-- A condition alone. -/
def check (condition : Prop) : Requirement := ⟨condition, [], 0⟩

def and (first second : Requirement) : Requirement :=
  ⟨first.sound /\ second.sound, first.pages ++ second.pages, first.frames + second.frames⟩

def all : List Requirement -> Requirement
  | [] => check True
  | first :: rest => first.and (all rest)

structure Met (need : Requirement) (loader : Loader) : Prop where
  sound : need.sound
  nodup : (need.pages.map slot).Nodup
  unmapped : ∀ vpn ∈ need.pages, loader.user.pageTable.findPte vpn = none
  enough : need.frames <= loader.frames.length

/-- What has been required is taken, and nothing else. -/
structure Took (need : Requirement) (before after : Loader) : Prop where
  kernel_eq : after.kernel = before.kernel
  entry_iff : ∀ vpn, after.user.pageTable.findPte vpn = none ↔
    slot vpn ∉ need.pages.map slot /\ before.user.pageTable.findPte vpn = none
  frames_eq : after.frames = before.frames.drop need.frames

variable {need first second : Requirement} {before middle after loader : Loader}

theorem Took.and_met_iff (took : first.Took before middle) :
    (first.and second).Met before ↔ first.Met before /\ second.Met middle := by
  constructor
  · intro met
    have nodup := met.nodup
    change ((first.pages ++ second.pages).map slot).Nodup at nodup
    rw [map_append, nodup_append] at nodup
    have enough : first.frames + second.frames <= before.frames.length := met.enough
    refine ⟨⟨met.sound.1, nodup.1, ?_, ?_⟩, ⟨met.sound.2, nodup.2.1, ?_, ?_⟩⟩
    · exact fun vpn member => met.unmapped vpn (mem_append_left _ member)
    · omega
    · intro vpn member
      rw [took.entry_iff]
      refine ⟨?_, met.unmapped vpn (mem_append_right _ member)⟩
      intro taken
      exact nodup.2.2 (slot vpn) taken (slot vpn) (mem_map_of_mem member) rfl
    · rw [took.frames_eq, length_drop]
      omega
  · rintro ⟨one, two⟩
    have enough := two.enough
    rw [took.frames_eq, length_drop] at enough
    have own := one.enough
    refine ⟨⟨one.sound, two.sound⟩, ?_, ?_, ?_⟩
    · change ((first.pages ++ second.pages).map slot).Nodup
      rw [map_append, nodup_append]
      refine ⟨one.nodup, two.nodup, ?_⟩
      intro key taken other member same
      subst same
      rcases mem_map.mp member with ⟨vpn, inside, rfl⟩
      exact ((took.entry_iff vpn).mp (two.unmapped vpn inside)).1 taken
    · intro vpn member
      rcases mem_append.mp member with early | late
      · exact one.unmapped vpn early
      · exact ((took.entry_iff vpn).mp (two.unmapped vpn late)).2
    · change first.frames + second.frames <= _
      omega

theorem Took.and (one : first.Took before middle) (two : second.Took middle after) :
    (first.and second).Took before after := by
  refine ⟨two.kernel_eq.trans one.kernel_eq, ?_, ?_⟩
  · intro vpn
    change _ ↔ slot vpn ∉ (first.pages ++ second.pages).map slot /\ _
    rw [two.entry_iff, one.entry_iff, map_append, mem_append, not_or]
    tauto
  · rw [two.frames_eq, one.frames_eq, drop_drop]
    rfl

theorem Met.left (met : (first.and second).Met loader) : first.Met loader :=
  ⟨met.sound.1, (nodup_append.mp (map_append ▸ met.nodup)).1,
    fun vpn member => met.unmapped vpn (mem_append_left _ member),
    le_trans (Nat.le_add_right _ _) met.enough⟩

/-- The kernel's space does not matter for what is required of the new one. -/
theorem Met.withKernel (met : need.Met loader) (kernel : MemorySet) : need.Met { loader with kernel := kernel } :=
  ⟨met.sound, met.nodup, met.unmapped, met.enough⟩

theorem took_check (condition : Prop) (loader : Loader) : (check condition).Took loader loader :=
  ⟨rfl, fun _ => ⟨fun free => ⟨not_mem_nil, free⟩, fun both => both.2⟩, rfl⟩

theorem check_met_iff {condition : Prop} : (check condition).Met loader ↔ condition :=
  ⟨fun met => met.sound, fun holds => ⟨holds, nodup_nil, nofun, Nat.zero_le _⟩⟩

/-- The step gets through if and only if the requirement is met, and then it takes what is
required.  An error leaves every area of the kernel. -/
structure Served {τ : Type} (need : Requirement) (loader : Loader) (out : τ -> Loader) (outcome : Attempt τ) : Prop where
  done_iff : (∃ value, outcome = .done value) ↔ need.Met loader
  took : ∀ value, outcome = .done value -> need.Took loader (out value)
  leaky : ∀ errno kernel, outcome = .failed errno kernel -> loader.kernel.areas.length <= kernel.areas.length

variable {τ υ : Type} {out : τ -> Loader} {outcome : Attempt τ} {condition : Prop}

theorem served_unwrap {option : Option τ} (passes : (∃ value, option = some value) ↔ condition) :
    (check condition).Served loader (fun _ => loader) (unwrap option) where
  done_iff := by
    simp only [unwrap_eq_done_iff, passes, check_met_iff]
  took := fun _ _ => took_check condition loader
  leaky := fun _ _ failure => absurd failure unwrap_ne_failed

theorem served_done {value : τ} (holds : condition) (same : out value = loader) :
    (check condition).Served loader out (.done value) where
  done_iff := ⟨fun _ => check_met_iff.mpr holds, fun _ => ⟨value, rfl⟩⟩
  took := by
    rintro _ ⟨⟩
    rw [same]
    exact took_check condition loader
  leaky := nofun

/-- A call that never returns a result is served if nothing can meet the requirement. -/
theorem served_of_unsound (unsound : ¬ need.sound) (never : ∀ value, outcome ≠ .done value)
    (leaky : ∀ errno kernel, outcome = .failed errno kernel -> loader.kernel.areas.length <= kernel.areas.length) :
    need.Served loader out outcome :=
  ⟨⟨fun ⟨value, finished⟩ => absurd finished (never value), fun met => absurd met.sound unsound⟩,
    fun value finished => absurd finished (never value), leaky⟩

theorem served_panicked (unsound : ¬ need.sound) : need.Served loader out .panicked :=
  served_of_unsound unsound nofun nofun

theorem served_failed (errno : Int) (unsound : ¬ need.sound) : need.Served loader out (.failed errno loader.kernel) :=
  served_of_unsound unsound nofun fun _ _ failure => by cases failure; exact le_rfl

/-- An assertion adds its condition. -/
theorem Served.guard [Decidable condition] (served : need.Served loader out outcome) :
    (Requirement.mk (condition /\ need.sound) need.pages need.frames).Served loader out
      (if condition then outcome else .panicked) := by
  by_cases holds : condition
  · simpa only [holds, true_and, if_true] using served
  · rw [if_neg holds]
    exact served_panicked (fun both => holds both.1)

variable {finish : υ -> Loader}

theorem Served.bind {next : τ -> Attempt υ} (one : first.Served loader out outcome)
    (two : ∀ value, outcome = .done value -> second.Served (out value) finish (next value)) :
    (first.and second).Served loader finish (outcome >>= next) := by
  refine ⟨⟨?_, ?_⟩, ?_, ?_⟩
  · rintro ⟨result, finished⟩
    rcases bind_eq_done_iff.mp finished with ⟨value, early, late⟩
    exact (one.took value early).and_met_iff.mpr
      ⟨one.done_iff.mp ⟨value, early⟩, (two value early).done_iff.mp ⟨result, late⟩⟩
  · intro met
    rcases one.done_iff.mpr met.left with ⟨value, early⟩
    have met_second := ((one.took value early).and_met_iff.mp met).2
    rcases (two value early).done_iff.mpr met_second with ⟨result, late⟩
    exact ⟨result, bind_eq_done_iff.mpr ⟨value, early, late⟩⟩
  · intro result finished
    rcases bind_eq_done_iff.mp finished with ⟨value, early, late⟩
    exact (one.took value early).and ((two value early).took result late)
  · intro errno kernel failure
    rcases bind_eq_failed_iff.mp failure with early | ⟨value, early, late⟩
    · exact one.leaky errno kernel early
    · rw [<- (one.took value early).kernel_eq]
      exact (two value early).leaky errno kernel late

theorem Served.congr (served : first.Served loader out outcome) (sound_iff : first.sound ↔ second.sound)
    (pages_eq : first.pages = second.pages) (frames_eq : first.frames = second.frames) :
    second.Served loader out outcome := by
  rcases first with ⟨sound, pages, frames⟩
  rcases second with ⟨other, _⟩
  subst pages_eq
  subst frames_eq
  have same : sound = other := propext sound_iff
  subst same
  exact served

/-- Where a requirement is not sound, it does not matter what it asks for. -/
theorem Served.congr_of_sound (served : first.Served loader out outcome) (sound_iff : first.sound ↔ second.sound)
    (pages_eq : second.sound -> first.pages = second.pages)
    (frames_eq : second.sound -> first.frames = second.frames) : second.Served loader out outcome := by
  by_cases sound : second.sound
  · exact served.congr sound_iff (pages_eq sound) (frames_eq sound)
  · refine served_of_unsound sound ?_ served.leaky
    exact fun value finished => sound (sound_iff.mp (served.done_iff.mp ⟨value, finished⟩).sound)

/-- A value computed from the result changes nothing. -/
theorem Served.map {next : τ -> υ} (served : need.Served loader out outcome)
    (same : ∀ value, finish (next value) = out value) :
    need.Served loader finish (outcome >>= fun value => pure (next value)) :=
  (served.bind fun value _ => served_done trivial (same value)).congr (and_iff_left trivial) (append_nil _) rfl

/-- A step in a larger space of the kernel, which is given up again. -/
theorem Served.withKernel (served : need.Served { loader with kernel := kernel } out outcome)
    (grown : loader.kernel.areas.length <= kernel.areas.length) :
    need.Served loader (fun value => { out value with kernel := loader.kernel }) outcome where
  done_iff := served.done_iff.trans ⟨fun met => met.withKernel loader.kernel, fun met => met.withKernel kernel⟩
  took := fun value finished =>
    ⟨rfl, (served.took value finished).entry_iff, (served.took value finished).frames_eq⟩
  leaky := fun errno left failure => grown.trans (served.leaky errno left failure)

/-- A loop over a list in which every round is served. -/
theorem served_foldlM {σ ι : Type} {out : σ -> Loader} {needOf : ι -> Requirement}
    {body : σ -> ι -> Attempt σ} {items : List ι} (each : ∀ item ∈ items, ∀ state, (out state).kernel = kernel ->
      (needOf item).Served (out state) out (body state item))
    (state : σ) (kernel_eq : (out state).kernel = kernel) :
    (all (items.map needOf)).Served (out state) out (items.foldlM body state) := by
  induction items generalizing state with
  | nil => exact served_done trivial rfl
  | cons item rest ih =>
    have one := each item mem_cons_self state kernel_eq
    refine Served.bind one ?_
    intro value early
    exact ih (fun other member => each other (mem_cons_of_mem _ member)) value
      ((one.took value early).kernel_eq.trans kernel_eq)

theorem and_check (first second : Prop) : (check first).and (check second) = check (first /\ second) := rfl

theorem all_check {ι : Type} (items : List ι) (condition : ι -> Prop) :
    all (items.map fun item => check (condition item)) = check (∀ item ∈ items, condition item) := by
  induction items with
  | nil => exact congrArg check (propext (iff_of_true trivial nofun))
  | cons first rest ih =>
    rw [map_cons, all, ih, and_check, forall_mem_cons]

theorem sound_all_iff {needs : List Requirement} : (all needs).sound ↔ ∀ need ∈ needs, need.sound := by
  induction needs with
  | nil => exact iff_of_true trivial nofun
  | cons first rest ih =>
    rw [forall_mem_cons, <- ih]
    rfl

end Requirement

end GCore.Task
