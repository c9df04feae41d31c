import GCore.Fs.FdTable
import GCore.Task.ElfRequirement

namespace GCore.Task

open Library Mm Requirement MemorySet Attempt List Option MapArea PageTable ElfFile Loader

/-!
# Replacing the program of a task

`load_elf` maps the file of the program into the kernel's space, builds a new space from
it, unmaps the file, and only then changes the task.  If the new space cannot be built,
then the file stays mapped, and the next program cannot be mapped in its place.  So the
call is harmless if and only if it succeeds.

A program that can be loaded has a complete header of a known class and type, a table of
program headers that lies in the file, and segments that lie in the file and do not
overlap; all this holds of its interpreter as well.  Beyond that there have to be frames
enough, and the arguments have to fit into one page of the stack.
-/

def userStackBase : Nat := taskSize - pageSize

def userStackSize : Nat := pageSize * 0x40

def ustackBottomFromTid (tid : Nat) : Nat := userStackBase - tid * (pageSize + userStackSize)

def alignUp (addr align : Nat) : Nat := (addr + align - 1) % usizeRange / align * align

/-- The size of the user heap that is mapped behind the program. -/
def heapSize : Nat := 0x20000

structure OpenFile where
  ino : Nat
  cloexec : Bool
  deriving DecidableEq, Repr

/-- What the program starts with. -/
structure StartContext where
  pc : Nat
  sp : Int
  deriving DecidableEq, Repr

/-- The task, as far as `load_elf` changes it.  Every thread has a kernel stack of 32 pages,
so the memory ends long before thread 12000. -/
structure ExecTask (Action : Type) where
  tid : Nat
  bounded : tid < 12000
  vm : MemorySet
  files : Fs.FdTable OpenFile
  sighand : List (Option Action)
  exe : CachedFile
  heapBottom : Nat
  heapPt : Nat
  clearChildTid : Nat
  trapCxPpn : Nat
  trapCx : StartContext

structure Machine (Action : Type) where
  kernel : MemorySet
  task : ExecTask Action

/-- What `load_elf` finds around it: the files, the free frames, and where the trampolines
are. -/
structure ExecEnv where
  files : Files
  frames : List Nat
  trampolinePpn : Nat
  signalPpn : Nat

/-- Strings are copied downwards, with a terminator each. -/
def pushStrings (sp : Int) (strings : List (List Byte)) : Int :=
  strings.foldl (fun sp string => sp - ((string.length + 1 : Nat) : Int)) sp

def userData : MapPermission := ⟨true, true, false, true⟩

namespace Loader

variable (loader : Loader)

def allocUserRes (tid : Nat) : Attempt Loader := do
  let loader <- loader.insertFramedArea (ustackBottomFromTid tid - userStackSize) (ustackBottomFromTid tid) userData
  loader.insertFramedArea (trapCxBottomFromTid tid) (trapCxBottomFromTid tid + pageSize) MemorySet.readWrite

/-- `create_elf_tables`, without what is written.  The stack is written at its physical
addresses, down from the top of a page; in the end it has to be the same page. -/
def createElfTables (userSp : Nat) (argv envp : List (List Byte)) : Option Int :=
  (loader.user.pageTable.translateVa (userSp - 16)).bind (fun physStart =>
    let start : Int := physStart
    let sp := pushStrings (pushStrings start envp) argv
    let sp := sp / 8 * 8
    -- random bytes and padding
    let sp := sp - 16 - 8
    -- seventeen entries of the auxiliary vector
    let sp := sp - 17 * 16
    let sp := sp - (envp.length + 1) * 8
    let sp := sp - (argv.length + 1) * 8
    let sp := sp - 8
    if start / 4096 = sp / 4096 then some (sp + (((userSp - 16 : Nat) : Int) - start)) else none)

/-- The stack and the trap context of the new program. -/
def prepareUser (tid : Nat) (argv envp : List (List Byte)) : Attempt (Loader × Int × Nat) := do
  let loader <- loader.allocUserRes tid
  let userSp <- Attempt.unwrap (loader.createElfTables (ustackBottomFromTid tid) argv envp)
  let trapCxPpn <- Attempt.unwrap (loader.user.pageTable.translate (floor (trapCxBottomFromTid tid)))
  pure (loader, userSp, trapCxPpn)

end Loader

section LoadElf

variable {Action : Type} (env : ExecEnv)

/-- `from_elf` and the heap behind the program, with the file mapped. -/
def fromElf (calls : Nat) (kernel : MemorySet) (file : CachedFile) : Attempt (Nat × ElfInfo × Loader) := do
  let elf <- Attempt.unwrapResult (ElfFile.new file.data)
  let (programBreak, info, loader) <- mapElf env.files calls elf mmapBase
    ⟨kernel, MemorySet.newUser env.trampolinePpn env.signalPpn, env.frames⟩
  let heapStart := alignUp programBreak 0x1000
  let loader <- loader.insertFramedArea heapStart ((heapStart + heapSize) % usizeRange) userData
  pure (programBreak, info, loader)

/-- The task with its new program.  The list of robust futexes, the futexes and the other
threads of the process are left out. -/
def ExecTask.restart (task : ExecTask Action) (file : CachedFile) (programBreak : Nat) (info : ElfInfo)
    (user : MemorySet) (userSp : Int) (trapCxPpn : Nat) : ExecTask Action :=
  { task with
    vm := user
    files := task.files.closeOnExec OpenFile.cloexec
    sighand := task.sighand.map (fun _ => none)
    exe := file
    heapBottom := programBreak
    heapPt := programBreak
    clearChildTid := 0
    trapCxPpn := trapCxPpn
    trapCx := ⟨info.interpEntry.getD info.entry, userSp⟩ }

def execute (calls : Nat) (machine : Machine Action) (file : CachedFile) (argv envp : List (List Byte)) :
    Attempt (Machine Action) := do
  let kernel <- Attempt.unwrap (machine.kernel.insertProgramArea mmapBase MemorySet.readWrite
    (file.caches.map .inMemory))
  let (programBreak, info, loader) <- fromElf env calls kernel file
  let kernel <- Attempt.unwrap (loader.kernel.removeAreaWithStartVpn (floor mmapBase))
  let (loader, userSp, trapCxPpn) <- { loader with kernel := kernel }.prepareUser machine.task.tid argv envp
  pure
    { kernel := loader.kernel
      task := machine.task.restart file programBreak info loader.user userSp trapCxPpn }

/-- How the call ends for the task, which is changed last. -/
def settle (machine : Machine Action) : Attempt (Machine Action) -> Option (Option (Except Int Unit × Machine Action))
  | .panicked => none
  | .unfinished => some none
  | .failed errno kernel => some (some (.error errno, { machine with kernel := kernel }))
  | .done machine => some (some (.ok (), machine))

/-- With a bound on the calls of `map_elf`; `some none` means that it has not returned yet. -/
def loadElf (calls : Nat) (machine : Machine Action) (file : CachedFile) (argv envp : List (List Byte)) :
    Option (Option (Except Int Unit × Machine Action)) :=
  settle machine (execute env calls machine file argv envp)

end LoadElf

/-- The call returns, and if it fails, then the task and the areas of the kernel are as they
were before. -/
def Harmless {Action : Type} (before : Machine Action) : Option (Option (Except Int Unit × Machine Action)) -> Prop
  | some (some (.ok _, _)) => True
  | some (some (.error _, after)) => after.kernel.areas = before.kernel.areas /\ after.task = before.task
  | _ => False

/-! ## Programs that can be loaded -/

/-- The bytes of strings with their terminators. -/
def stringBytes (strings : List (List Byte)) : Nat := (strings.map (fun string => string.length + 1)).sum

/-- The strings, their addresses and the tables fit into a page of the stack. -/
def ArgumentsFit (argv envp : List (List Byte)) : Prop :=
  320 + 8 * (argv.length + envp.length) <= (4080 - (stringBytes argv + stringBytes envp)) / 8 * 8

/-- The first page of the heap, behind the last segment. -/
def heapPage (file : CachedFile) : Nat := floor ((ofInput file.data).programBreak.getD 0)

/-- The pages of the user stack. -/
def stackPages (tid : Nat) : List Nat :=
  pages (floor (ustackBottomFromTid tid) - 0x40) (floor (ustackBottomFromTid tid))

/-- The program can be loaded, with interpreters up to a depth. -/
structure Loadable {Action : Type} (env : ExecEnv) (calls : Nat) (machine : Machine Action) (file : CachedFile)
    (argv envp : List (List Byte)) : Prop where
  /-- the place of the file in the kernel's space is free -/
  unused : machine.kernel.Unused (floor mmapBase) file.caches.length
  parses : ElfFile.Parses file.data
  /-- the headers and segments of the file and of its interpreter are good -/
  sound : (fileNeed env.files calls (machine.kernel.withProgram (floor mmapBase) file.caches) (floor mmapBase) file).sound
  heap : heapPage file * pageSize + heapSize < usizeRange
  /-- no two pages of the new space have the same entry in the page table -/
  apart : (([floor trampoline, floor signalTrampoline] ++
    (fileNeed env.files calls (machine.kernel.withProgram (floor mmapBase) file.caches) (floor mmapBase) file).pages ++
    pages (heapPage file) (heapPage file + 0x20) ++ stackPages machine.task.tid ++
    [floor (trapCxBottomFromTid machine.task.tid)]).map slot).Nodup
  /-- a frame for each page that is not taken over from the page cache -/
  enough : (fileNeed env.files calls (machine.kernel.withProgram (floor mmapBase) file.caches)
    (floor mmapBase) file).frames + 0x20 + 0x40 + 1 <= env.frames.length
  /-- the arguments and tables fit into a page -/
  fits : ArgumentsFit argv envp

section Proof

variable {Action : Type} {env : ExecEnv} {calls : Nat} {machine : Machine Action} {file : CachedFile}
  {argv envp : List (List Byte)} {loader : Loader} {tid programBreak : Nat}

theorem pushStrings_eq (sp : Int) (strings : List (List Byte)) : pushStrings sp strings = sp - stringBytes strings := by
  induction strings generalizing sp with
  | nil => simp [pushStrings, stringBytes]
  | cons first rest ih =>
    have step : pushStrings sp (first :: rest) = pushStrings (sp - ((first.length + 1 : Nat) : Int)) rest := rfl
    have sum : stringBytes (first :: rest) = first.length + 1 + stringBytes rest := rfl
    rw [step, ih, sum]
    omega

/-- The stack stays in the page if and only if the arguments fit. -/
theorem createElfTables_isSome_iff {userSp ppn : Nat}
    (mapped : loader.user.pageTable.translateVa (userSp - 16) = some (ppn * pageSize + 4080)) :
    (∃ sp, loader.createElfTables userSp argv envp = some sp) ↔ ArgumentsFit argv envp := by
  unfold ArgumentsFit
  have page : pageSize = 4096 := rfl
  rw [createElfTables, mapped, bind_some]
  dsimp only
  rw [pushStrings_eq, pushStrings_eq, page]
  split
  · refine ⟨fun _ => ?_, fun _ => ⟨_, rfl⟩⟩
    omega
  · rename_i different
    refine ⟨nofun, fun fits => absurd ?_ different⟩
    omega

variable (small : tid < 12000)

include small

theorem ustackBottomFromTid_eq :
    ustackBottomFromTid tid = (786431 - tid * 65) * 4096 /\ 64 < 786431 - tid * 65 := by
  unfold ustackBottomFromTid userStackBase userStackSize taskSize pageSize
  omega

theorem trapCxBottomFromTid_eq : trapCxBottomFromTid tid = (2 ^ 52 - 3 - tid) * 4096 := by
  unfold trapCxBottomFromTid trapContextBase signalTrampoline trampoline usizeRange pageSize
  omega

/-- The area of the stack and that of the trap context, by their pages. -/
theorem userRes_pages :
    (floor (ustackBottomFromTid tid - userStackSize) = floor (ustackBottomFromTid tid) - 0x40 /\
      ceil (ustackBottomFromTid tid) = floor (ustackBottomFromTid tid) /\ 0x40 < floor (ustackBottomFromTid tid)) /\
    (ceil (trapCxBottomFromTid tid + pageSize) = floor (trapCxBottomFromTid tid) + 1) := by
  rcases ustackBottomFromTid_eq small with ⟨bottom, _⟩
  rw [bottom, trapCxBottomFromTid_eq small]
  unfold floor ceil userStackSize pageSize usizeRange
  omega

theorem allocUserRes_served :
    (Requirement.mk True (stackPages tid ++ [floor (trapCxBottomFromTid tid)]) (0x40 + 1)).Served loader
      (fun after => after) (loader.allocUserRes tid) := by
  rcases userRes_pages small with ⟨⟨stack_start, stack_end, _⟩, trap_end⟩
  refine Served.congr ((insertFramedArea_served _ _ _).bind fun _ _ => insertFramedArea_served _ _ _) ?_ ?_ ?_
  · simp [Requirement.and, stack_start, stack_end, trap_end]
  · simp [Requirement.and, stack_start, stack_end, trap_end, stackPages, MapArea.pages]
  · simp only [Requirement.and, stack_start, stack_end, trap_end]
    omega

theorem prepareUser_served :
    (Requirement.mk (ArgumentsFit argv envp) (stackPages tid ++ [floor (trapCxBottomFromTid tid)]) (0x40 + 1)).Served
      loader (fun result => result.1) (loader.prepareUser tid argv envp) := by
  have taken := @allocUserRes_served loader tid small
  have tables : ∀ after, loader.allocUserRes tid = .done after ->
      (check (ArgumentsFit argv envp)).Served after (fun result => result.1) (do
        let userSp <- unwrap (after.createElfTables (ustackBottomFromTid tid) argv envp)
        let trapCxPpn <- unwrap (after.user.pageTable.translate (floor (trapCxBottomFromTid tid)))
        pure (after, userSp, trapCxPpn)) := by
    intro after allocated
    have entries := (taken.took after allocated).entry_iff
    rcases ustackBottomFromTid_eq small with ⟨_, _⟩
    have top : floor (ustackBottomFromTid tid - 16) ∈ stackPages tid := by
      refine mem_pages.mpr ?_
      unfold floor pageSize
      omega
    have offset : pageOffset (ustackBottomFromTid tid - 16) = 4080 := by
      unfold pageOffset pageSize
      omega
    have mapped : ∃ ppn,
        after.user.pageTable.translateVa (ustackBottomFromTid tid - 16) = some (ppn * pageSize + 4080) := by
      cases entry : after.user.pageTable.findPte (floor (ustackBottomFromTid tid - 16)) with
      | none =>
        exact absurd (mem_map_of_mem (mem_append_left _ top)) ((entries _).mp entry).1
      | some pte =>
        refine ⟨pte.ppn, ?_⟩
        rw [translateVa, entry, map_some, offset]
    have translated : ∃ ppn,
        after.user.pageTable.translate (floor (trapCxBottomFromTid tid)) = some ppn := by
      cases entry : after.user.pageTable.findPte (floor (trapCxBottomFromTid tid)) with
      | none =>
        exact absurd (mem_map_of_mem (mem_append_right _ (mem_singleton.mpr rfl)))
          ((entries _).mp entry).1
      | some pte =>
        refine ⟨pte.ppn, ?_⟩
        rw [PageTable.translate, entry, map_some]
    rcases mapped with ⟨ppn, mapped⟩
    rcases translated with ⟨trapCxPpn, translated⟩
    have place : (check True).Served after (fun _ => after)
        (unwrap (after.user.pageTable.translate (floor (trapCxBottomFromTid tid)))) :=
      served_unwrap (iff_of_true ⟨trapCxPpn, translated⟩ trivial)
    exact ((served_unwrap (createElfTables_isSome_iff mapped)).bind fun _ _ => place.map fun _ => rfl).congr
      (and_iff_left trivial) rfl rfl
  refine (taken.bind tables).congr ⟨fun both => both.2, fun fits => ⟨trivial, fits⟩⟩ ?_ rfl
  exact append_nil _

omit small

theorem breakOf_eq_some {bias programBreak : Nat} {headers : List ProgramHeader} {before : Option Nat}
    (found : breakOf bias headers before = some programBreak) :
    before = some programBreak \/ ∃ page, programBreak = startAddr page := by
  induction headers generalizing before with
  | nil => exact .inl found
  | cons first rest ih =>
    rcases ih found with same | later
    · dsimp only at same
      split at same
      · cases same
        exact .inr ⟨_, rfl⟩
      · exact .inl same
    · exact .inr later

def heapNeed (file : CachedFile) : Requirement :=
  ⟨heapPage file * pageSize + heapSize < usizeRange, pages (heapPage file) (heapPage file + 0x20), 0x20⟩

/-- The heap begins at a page, and it ends before the addresses do. -/
theorem heap_served (found : (ofInput file.data).programBreak = some programBreak) :
    (heapNeed file).Served loader (fun after => after)
      (loader.insertFramedArea (alignUp programBreak 0x1000) ((alignUp programBreak 0x1000 + heapSize) % usizeRange)
        userData) := by
  rcases (breakOf_eq_some found).resolve_left nofun with ⟨page, rfl⟩
  have place : heapPage file = floor (startAddr page) := by
    rw [heapPage, found]
    rfl
  have aligned : alignUp (startAddr page) 0x1000 = heapPage file * pageSize := by
    rw [place]
    unfold alignUp startAddr floor pageSize usizeRange
    omega
  have below : heapPage file * pageSize < usizeRange := by
    rw [place]
    unfold startAddr floor pageSize usizeRange
    omega
  rw [aligned]
  unfold heapNeed
  generalize heapPage file = first at below
  unfold heapSize usizeRange pageSize at *
  have first_eq : floor (first * 4096) = first := by
    unfold floor pageSize
    omega
  have last_eq : first * 4096 + 0x20000 < 18446744073709551616 ->
      ceil ((first * 4096 + 0x20000) % 18446744073709551616) = first + 0x20 := by
    intro fits
    unfold ceil usizeRange pageSize
    omega
  refine (insertFramedArea_served _ _ _).congr_of_sound ?_ ?_ ?_
  · rw [first_eq]
    constructor
    · intro ordered
      by_contra wraps
      have early : ceil ((first * 4096 + 0x20000) % 18446744073709551616) <= 0x20 := by
        unfold ceil usizeRange pageSize
        omega
      omega
    · intro fits
      rw [last_eq fits]
      exact Nat.le_add_right _ _
  · intro fits
    rw [first_eq, last_eq fits]
  · intro fits
    dsimp only
    omega

variable {kernel : MemorySet} {errno : Int}

/-- The space of a program, up to the heap. -/
theorem fromElf_served (orderly : kernel.Orderly) :
    ((check (ElfFile.Parses file.data)).and ((fileNeed env.files calls kernel (floor mmapBase) file).and (heapNeed file))).Served
      ⟨kernel, newUser env.trampolinePpn env.signalPpn, env.frames⟩ (fun result => result.2.2)
      (fromElf env calls kernel file) := by
  refine (parse_served file.data _).bind ?_
  intro elf found
  rcases new_eq_ok_iff.mp (unwrapResult_eq_done_iff.mp found) with ⟨_, rfl⟩
  have mapped := mapElf_served env.files calls
    ⟨kernel, newUser env.trampolinePpn env.signalPpn, env.frames⟩ (floor mmapBase) file orderly
  refine Served.bind mapped ?_
  rintro ⟨_, _⟩ finished
  have broken := @programBreak_of_mapElf _ _ _ file (floor mmapBase) _ orderly finished
  exact Served.map (heap_served broken) (fun _ => rfl)

/-- What the whole program requires. -/
def programNeed (env : ExecEnv) (calls : Nat) (machine : Machine Action) (file : CachedFile)
    (argv envp : List (List Byte)) : Requirement :=
  ((check (ElfFile.Parses file.data)).and
    ((fileNeed env.files calls (machine.kernel.withProgram (floor mmapBase) file.caches) (floor mmapBase) file).and
      (heapNeed file))).and
    (Requirement.mk (ArgumentsFit argv envp)
      (stackPages machine.task.tid ++ [floor (trapCxBottomFromTid machine.task.tid)]) (0x40 + 1))

theorem insert_at_mmapBase {set next : MemorySet} {caches : List Nat} :
    set.insertProgramArea mmapBase readWrite (caches.map .inMemory) = some next ↔
      set.Unused (floor mmapBase) caches.length /\ next = set.withProgram (floor mmapBase) caches := by
  have place : mmapBase = floor mmapBase * pageSize := by decide
  conv =>
    lhs
    rw [place]
  exact insertProgramArea_eq_some_iff

/-- The call succeeds if and only if the file can be mapped and the requirement is met. -/
theorem execute_isDone_iff (orderly : machine.kernel.Orderly) :
    (∃ after, execute env calls machine file argv envp = .done after) ↔
      machine.kernel.Unused (floor mmapBase) file.caches.length /\
        (programNeed env calls machine file argv envp).Met
          ⟨machine.kernel.withProgram (floor mmapBase) file.caches,
            newUser env.trampolinePpn env.signalPpn, env.frames⟩ := by
  have filled : ElfFile.Parses file.data -> file.caches ≠ [] := fun parses =>
    CachedFile.caches_ne_nil (lt_of_lt_of_le (by decide) (length_of_magic parses.magical))
  simp only [execute, bind_eq_done_iff, unwrap_eq_done_iff, insert_at_mmapBase]
  constructor
  · rintro ⟨after, _, ⟨unused, rfl⟩, ⟨programBreak, info, loader⟩, built, kernel, removed, prepared, ready, _⟩
    have parses : ElfFile.Parses file.data := by
      rcases bind_eq_done_iff.mp built with ⟨_, parsed, _⟩
      exact (new_eq_ok_iff.mp (unwrapResult_eq_done_iff.mp parsed)).1
    have served := @fromElf_served env calls file _ (orderly.withProgram unused (filled parses))
    refine ⟨unused, (served.took _ built).and_met_iff.mpr ⟨served.done_iff.mp ⟨_, built⟩, ?_⟩⟩
    exact ((prepareUser_served machine.task.bounded).done_iff.mp ⟨prepared, ready⟩).withKernel loader.kernel
  · rintro ⟨unused, met⟩
    have parses : ElfFile.Parses file.data := met.sound.1.1
    have served := @fromElf_served env calls file _ (orderly.withProgram unused (filled parses))
    rcases served.done_iff.mpr met.left with ⟨⟨programBreak, info, loader⟩, built⟩
    have took := served.took _ built
    have kernel_eq : loader.kernel = machine.kernel.withProgram (floor mmapBase) file.caches := took.kernel_eq
    have rest := (took.and_met_iff.mp met).2.withKernel machine.kernel
    rcases (prepareUser_served machine.task.bounded).done_iff.mpr rest with ⟨prepared, ready⟩
    have removed : loader.kernel.removeAreaWithStartVpn (floor mmapBase) = some machine.kernel := by
      rw [kernel_eq]
      exact orderly.remove_withProgram unused (filled parses)
    exact ⟨_, _, ⟨unused, rfl⟩, _, built, machine.kernel, removed, prepared, ready, rfl⟩

@[simp]
theorem insertFramedArea_ne_failed {startVa endVa : Nat} {perm : MapPermission} :
    loader.insertFramedArea startVa endVa perm ≠ .failed errno kernel := by
  simp [insertFramedArea, pushArea_ne_failed]

/-- A call that returns an error has left the file of the program mapped. -/
theorem execute_eq_failed (orderly : machine.kernel.Orderly)
    (failure : execute env calls machine file argv envp = .failed errno kernel) :
    machine.kernel.areas.length < kernel.areas.length := by
  simp only [execute, fromElf, prepareUser, allocUserRes, bind_eq_failed_iff,
    unwrap_ne_failed, unwrapResult_ne_failed, unwrap_eq_done_iff,
    unwrapResult_eq_done_iff, insertFramedArea_ne_failed, reduceCtorEq, and_false,
    exists_const, exists_false, false_or, or_false, insert_at_mmapBase, new_eq_ok_iff] at failure
  rcases failure with ⟨_, ⟨unused, rfl⟩, _, ⟨parses, rfl⟩, mapping⟩
  have filled := CachedFile.caches_ne_nil (lt_of_lt_of_le (by decide) (length_of_magic parses.magical))
  have kept := (mapElf_served env.files calls
    ⟨machine.kernel.withProgram (floor mmapBase) file.caches,
      newUser env.trampolinePpn env.signalPpn, env.frames⟩ (floor mmapBase) file
    (orderly.withProgram unused filled)).leaky errno kernel mapping
  change (machine.kernel.areas ++ [_]).length <= _ at kept
  rw [length_append] at kept
  exact kept

theorem findPte_newUser_eq_none_iff {trampolinePpn signalPpn vpn : Nat} :
    (newUser trampolinePpn signalPpn).pageTable.findPte vpn = none ↔
      slot vpn ≠ slot (floor trampoline) /\ slot vpn ≠ slot (floor signalTrampoline) := by
  unfold newUser
  by_cases signal : slot vpn = slot (floor signalTrampoline)
  · rw [findPte_set_of_slot signal]
    exact ⟨nofun, fun both => absurd signal both.2⟩
  · rw [findPte_set_of_ne signal]
    by_cases first : slot vpn = slot (floor trampoline)
    · rw [findPte_set_of_slot first]
      exact ⟨nofun, fun both => absurd first both.1⟩
    · rw [findPte_set_of_ne first]
      exact ⟨fun _ => ⟨first, signal⟩, fun _ => rfl⟩

/-- The pages are free in a new space if and only if they keep off the trampolines. -/
theorem nodup_trampolines_iff (trampolinePpn signalPpn : Nat) (pages : List Nat) :
    (([floor trampoline, floor signalTrampoline] ++ pages).map slot).Nodup ↔
      (pages.map slot).Nodup /\ ∀ vpn ∈ pages,
        (newUser trampolinePpn signalPpn).pageTable.findPte vpn = none := by
  have different : slot (floor trampoline) ≠ slot (floor signalTrampoline) := by decide
  rw [cons_append, cons_append, nil_append, map_cons, map_cons, nodup_cons, nodup_cons, mem_cons, not_or]
  constructor
  · rintro ⟨⟨_, first⟩, signal, nodup⟩
    refine ⟨nodup, fun vpn member => findPte_newUser_eq_none_iff.mpr ⟨?_, ?_⟩⟩
    · exact fun same => first (same ▸ mem_map_of_mem member)
    · exact fun same => signal (same ▸ mem_map_of_mem member)
  · rintro ⟨nodup, unmapped⟩
    refine ⟨⟨different, ?_⟩, ?_, nodup⟩
    · intro member
      rcases mem_map.mp member with ⟨vpn, inside, same⟩
      exact (findPte_newUser_eq_none_iff.mp (unmapped vpn inside)).1 same
    · intro member
      rcases mem_map.mp member with ⟨vpn, inside, same⟩
      exact (findPte_newUser_eq_none_iff.mp (unmapped vpn inside)).2 same

theorem loadable_iff :
    Loadable env calls machine file argv envp ↔
      machine.kernel.Unused (floor mmapBase) file.caches.length /\
        (programNeed env calls machine file argv envp).Met
          ⟨machine.kernel.withProgram (floor mmapBase) file.caches,
            newUser env.trampolinePpn env.signalPpn, env.frames⟩ := by
  have pages := nodup_trampolines_iff env.trampolinePpn env.signalPpn
    (programNeed env calls machine file argv envp).pages
  have listed : [floor trampoline, floor signalTrampoline] ++ (programNeed env calls machine file argv envp).pages =
      [floor trampoline, floor signalTrampoline] ++
        (fileNeed env.files calls (machine.kernel.withProgram (floor mmapBase) file.caches) (floor mmapBase) file).pages ++
        MapArea.pages (heapPage file) (heapPage file + 0x20) ++ stackPages machine.task.tid ++
        [floor (trapCxBottomFromTid machine.task.tid)] := by
    change _ ++ (([] ++ (_ ++ _)) ++ (_ ++ _)) = _
    simp only [nil_append, append_assoc, heapNeed]
  have frames : (programNeed env calls machine file argv envp).frames =
      (fileNeed env.files calls (machine.kernel.withProgram (floor mmapBase) file.caches)
        (floor mmapBase) file).frames + 0x20 + 0x40 + 1 := by
    change 0 + (_ + 0x20) + (0x40 + 1) = _
    omega
  rw [listed] at pages
  constructor
  · intro loadable
    refine ⟨loadable.unused, ⟨⟨loadable.parses, loadable.sound, loadable.heap⟩, loadable.fits⟩, ?_, ?_, ?_⟩
    · exact (pages.mp loadable.apart).1
    · exact (pages.mp loadable.apart).2
    · rw [frames]
      exact loadable.enough
  · rintro ⟨unused, met⟩
    have enough := met.enough
    rw [frames] at enough
    rcases met.sound with ⟨⟨parses, sound, heap⟩, fits⟩
    have apart := pages.mpr ⟨met.nodup, met.unmapped⟩
    exact ⟨unused, parses, sound, heap, apart, enough, fits⟩

/-- Where every error leaves an area behind, only success is harmless. -/
theorem harmless_settle_iff {outcome : Attempt (Machine Action)}
    (leaky : ∀ errno kernel, outcome = .failed errno kernel ->
      machine.kernel.areas.length < kernel.areas.length) :
    Harmless machine (settle machine outcome) ↔ ∃ after, outcome = .done after := by
  cases outcome with
  | panicked | unfinished => exact ⟨nofun, nofun⟩
  | failed errno kernel =>
    have grown := leaky errno kernel rfl
    refine ⟨?_, nofun⟩
    rintro ⟨same, _⟩
    rw [same] at grown
    exact absurd grown (lt_irrefl _)
  | done after => exact ⟨fun _ => ⟨after, rfl⟩, fun _ => trivial⟩

/-- Loading a program is harmless if and only if the program can be loaded. -/
theorem failed_execve_is_harmless_iff (env : ExecEnv) (machine : Machine Action) (orderly : machine.kernel.Orderly)
    (file : CachedFile) (argv envp : List (List Byte)) :
    (∃ calls, Harmless machine (loadElf env calls machine file argv envp)) ↔
      ∃ calls, Loadable env calls machine file argv envp :=
  exists_congr fun _ => (harmless_settle_iff fun _ _ failure => execute_eq_failed orderly failure).trans
    ((execute_isDone_iff orderly).trans loadable_iff.symm)

end Proof

/-! ## A small program

The call is left to the kernel to evaluate. -/

attribute [irreducible] execute

/-- The bytes of a file with one segment, of a given type. -/
def smallBytes (type_ : Byte) : List Byte :=
  magic ++ [2, 1, 1, 0, 0, 0, 0, 0, 0, 0, 0, 0] ++ [type_, 0, 0xf3, 0, 1, 0, 0, 0] ++
    [0x78, 0, 1, 0, 0, 0, 0, 0] ++ [64, 0, 0, 0, 0, 0, 0, 0] ++ replicate 12 0 ++
    [64, 0, 56, 0, 1, 0, 0, 0, 0, 0, 0, 0] ++
    -- the program header
    [1, 0, 0, 0, 7, 0, 0, 0] ++ replicate 8 0 ++ [0, 0, 1, 0, 0, 0, 0, 0] ++ [0, 0, 1, 0, 0, 0, 0, 0] ++
    [120, 0, 0, 0, 0, 0, 0, 0] ++ [120, 0, 0, 0, 0, 0, 0, 0] ++ [0, 16, 0, 0, 0, 0, 0, 0]

theorem length_smallBytes (type_ : Byte) : (smallBytes type_).length = 120 := by simp [smallBytes, magic]

def smallElf (type_ : Byte) : CachedFile where
  data := smallBytes type_
  caches := [7]
  covered := by rw [length_smallBytes]; rfl
  small := by rw [length_smallBytes]; decide

/-- A kernel with one area, and a task without descriptors. -/
def smallMachine : Machine Unit where
  kernel :=
    { pageTable := PageTable.new.set 256 (some ⟨5, MemorySet.readWrite⟩)
      areas := [fromExistingFrame 0x100000 MemorySet.readWrite [.inMemory 5]] }
  task :=
    { tid := 1, bounded := by decide, vm := MemorySet.newUser 1 2, files := Fs.FdTable.new [], sighand := [none],
      exe := smallElf 2, heapBottom := 0, heapPt := 0, clearChildTid := 0, trapCxPpn := 3, trapCx := ⟨0, 0⟩ }

def smallEnv : ExecEnv where
  files := fun _ => .error ENOEXEC
  frames := range' 100 98
  trampolinePpn := 1
  signalPpn := 2

theorem smallMachine_orderly : smallMachine.kernel.Orderly := by
  have only : ∀ area ∈ smallMachine.kernel.areas,
      area = fromExistingFrame 0x100000 readWrite [.inMemory 5] :=
    fun _ member => mem_singleton.mp member
  refine ⟨?_, ?_, pairwise_singleton _ _⟩
  · intro area member
    rw [only area member]
    decide
  · intro area member vpn held
    rw [only area member] at held
    have place : vpn = 256 := by
      have low : 256 <= vpn := held.1
      have high : vpn < 256 + 1 := held.2
      omega
    rw [place]
    nofun

/-- Whether a call has succeeded. -/
def succeeded {Action : Type} : Option (Option (Except Int Unit × Machine Action)) -> Bool
  | some (some (.ok _, _)) => true
  | _ => false

theorem harmless_of_succeeded {Action : Type} {before : Machine Action}
    {outcome : Option (Option (Except Int Unit × Machine Action))} (good : succeeded outcome = true) :
    Harmless before outcome := by
  unfold succeeded at good
  split at good
  · trivial
  · cases good

theorem small_program_can_be_loaded : ∃ calls, Loadable smallEnv calls smallMachine (smallElf 2) [[0x61]] [] := by
  have good : succeeded (loadElf smallEnv 1 smallMachine (smallElf 2) [[0x61]] []) = true := by decide +kernel
  exact (failed_execve_is_harmless_iff smallEnv smallMachine smallMachine_orderly (smallElf 2) [[0x61]] []).mp
    ⟨1, harmless_of_succeeded good⟩

/-- The error of a call, with what is left of the machine. -/
def refusal {Action : Type} : Option (Option (Except Int Unit × Machine Action)) -> Option (Int × Machine Action)
  | some (some (.error errno, after)) => some (errno, after)
  | _ => none

theorem refusal_eq_some {Action : Type} {outcome : Option (Option (Except Int Unit × Machine Action))}
    {refused : Int × Machine Action} (found : refusal outcome = some refused) :
    outcome = some (some (.error refused.1, refused.2)) := by
  unfold refusal at found
  split at found
  · cases found
    rfl
  · cases found

/-- A file that is not a program is refused, and its pages stay mapped; the next program then
makes the kernel panic. -/
theorem failed_execve_leaves_the_file_mapped :
    (smallElf 1).data.take 4 = magic /\
      (Not (∃ calls, Harmless smallMachine (loadElf smallEnv calls smallMachine (smallElf 1) [[0x61]] []))) /\
      ∃ after, loadElf smallEnv 1 smallMachine (smallElf 1) [[0x61]] [] =
          some (some (.error ENOEXEC, after)) /\
        loadElf smallEnv 1 after (smallElf 2) [[0x61]] [] = none := by
  refine ⟨rfl, ?_, ?_⟩
  · rintro ⟨calls, harmless⟩
    rw [loadElf, harmless_settle_iff fun _ _ failure => execute_eq_failed smallMachine_orderly failure,
      execute_isDone_iff smallMachine_orderly] at harmless
    have sound := harmless.2.sound.1.2.1
    cases calls with
    | zero => exact sound
    | succ calls =>
      have loads : (ofInput (smallElf 1).data).Loads := sound.1.1
      rcases loads with executable | ⟨shared, _⟩
      · exact absurd executable (by decide +kernel)
      · exact absurd shared (by decide +kernel)
  · have checked : (refusal (loadElf smallEnv 1 smallMachine (smallElf 1) [[0x61]] [])).any (fun refused =>
        decide (refused.1 = ENOEXEC) && (loadElf smallEnv 1 refused.2 (smallElf 2) [[0x61]] []).isNone) = true := by
      decide +kernel
    rcases (Option.any_eq_true _ _).mp checked with ⟨⟨errno, after⟩, found, both⟩
    rcases Bool.and_eq_true_iff.mp both with ⟨same, panics⟩
    have number : errno = ENOEXEC := of_decide_eq_true same
    subst number
    exact ⟨after, refusal_eq_some found, isNone_iff_eq_none.mp panics⟩

end GCore.Task
