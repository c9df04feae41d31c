import GCore.Task.MapElf

namespace GCore.Task

open Library Mm Requirement ElfFile Attempt MapArea MemorySet List Served Loader

/-!
# What a program file requires

The requirement of a file is read off its bytes: the program headers can be read and have
known types, segments are in order and lie in the file, the interpreter is found and its
own requirement is part of this one.  Addresses do not wrap around in it where a program
that is loaded cannot make them do so.
-/

/-- The pages of the kernel's space from `first` on are in memory and in one area. -/
def Backed (kernel : MemorySet) (first count : Nat) : Prop :=
  ∃ area, area ∈ kernel.areas /\ area.Holds first /\
    ∀ index < count, (area.getInMemory (first + index)).isSome = true

namespace ProgramHeader

variable (ph : ProgramHeader) (bias : Nat)

def firstPage : Nat := floor (ph.startVa bias)

def endPage : Nat := ceil (ph.endVa bias)

/-- The path of an interpreter. -/
def path (elf : ElfFile) : List Byte := (elf.input.drop ph.offset).take (ph.fileSize - 1)

def need (kernel : MemorySet) (elf : ElfFile) (addr : Nat) : Requirement where
  sound := ph.firstPage bias <= ph.endPage bias /\
    if ph.Shared bias then
      ceil ph.fileSize = ph.endPage bias - ph.firstPage bias /\
        Backed kernel (floor ((addr + ph.offset) % usizeRange)) (ph.endPage bias - ph.firstPage bias)
    else ph.offset + ph.fileSize <= elf.input.length
  pages := MapArea.pages (ph.firstPage bias) (ph.endPage bias)
  frames := if ph.Shared bias then 0 else ph.endPage bias - ph.firstPage bias

end ProgramHeader

variable {ph : ProgramHeader} {elf : ElfFile}

section Areas

variable {loader : Loader} {startVa endVa : Nat} {perm : MapPermission}

theorem new_eq_some_iff {area : MapArea} :
    MapArea.new startVa endVa perm none = some area ↔
      floor startVa <= ceil endVa /\
        area = ⟨LinearMap.new (floor startVa) (ceil endVa - floor startVa), perm, false, none⟩ := by
  unfold MapArea.new
  split
  · rename_i ordered
    rw [Option.some_inj]
    exact ⟨fun same => ⟨ordered, same.symm⟩, fun both => both.2.symm⟩
  · rename_i reversed
    exact ⟨nofun, fun both => absurd both.1 reversed⟩

/-- A new area records no frames yet. -/
structure Blank (first last : Nat) (area : MapArea) : Prop where
  start_eq : area.start = first
  stop_eq : area.stop = last
  unallocated : ∀ vpn ∈ MapArea.pages first last, area.frame? vpn = some .unallocated

theorem blank_of_new {area : MapArea}
    (made : MapArea.new startVa endVa perm none = some area) : Blank (floor startVa) (ceil endVa) area := by
  rcases new_eq_some_iff.mp made with ⟨_, rfl⟩
  have length_eq : (LinearMap.new (floor startVa) (ceil endVa - floor startVa)).stop = ceil endVa := by
    change floor startVa + (replicate _ _).length = _
    rw [length_replicate]
    omega
  refine ⟨rfl, length_eq, ?_⟩
  intro vpn member
  rcases mem_pages.mp member with ⟨low, _⟩
  change (LinearMap.new _ _).frame? vpn = _
  rw [LinearMap.frame?_new, if_pos ⟨low, by omega⟩]

theorem unwrap_new_served :
    (check (floor startVa <= ceil endVa)).Served loader (fun _ => loader)
      (unwrap (MapArea.new startVa endVa perm none)) :=
  served_unwrap (by simp [new_eq_some_iff])

/-- The entries that mapping pages leaves free. -/
theorem entry_iff_of_maps {vpns frames : List Nat} {area after : MapArea} {table afterTable : PageTable}
    (maps : MemorySet.Maps vpns frames area table after afterTable) (vpn : Nat) :
    afterTable.findPte vpn = none ↔ slot vpn ∉ vpns.map slot /\ table.findPte vpn = none := by
  by_cases taken : slot vpn ∈ vpns.map slot
  · rcases mem_map.mp taken with ⟨other, member, same⟩
    rcases maps.mapped other member with ⟨_, _, _, entry⟩
    rw [<- afterTable.findPte_of_slot same, entry]
    exact ⟨nofun, fun both => absurd taken both.1⟩
  · rw [maps.entry_eq vpn taken]
    exact ⟨fun free => ⟨taken, free⟩, fun both => both.2⟩

variable {first last : Nat} {area : MapArea}

variable (blank : Blank first last area)

include blank

theorem Blank.pages_eq : pages area.start area.stop = pages first last := by
  rw [blank.start_eq, blank.stop_eq]

theorem Blank.pushArea_served :
    (Requirement.mk True (pages first last) (last - first)).Served loader (fun after => after)
      (loader.pushArea area) := by
  have number : (pages first last).length = last - first := length_range'
  unfold pushArea
  cases pushed : loader.user.push area loader.frames with
  | error panic =>
    refine ⟨⟨nofun, fun met => ?_⟩, nofun, nofun⟩
    have enough : (pages first last).length <= loader.frames.length := by
      rw [number]
      exact met.enough
    rcases mapPages_isOk enough met.nodup met.unmapped blank.unallocated with ⟨_, mapped⟩
    rw [push, blank.pages_eq, mapped] at pushed
    cases pushed
  | ok user =>
    rcases push_eq_ok pushed with ⟨_, _, maps⟩
    rw [blank.pages_eq] at maps
    refine ⟨iff_of_true ⟨_, rfl⟩ ⟨trivial, maps.nodup, maps.unmapped, ?_⟩, ?_, nofun⟩
    · unfold push at pushed
      split at pushed
      · cases pushed
      · rename_i mapped
        have length := mapPages_length mapped
        rwa [blank.pages_eq, number] at length
    · rintro after ⟨⟩
      refine ⟨rfl, entry_iff_of_maps maps, ?_⟩
      rw [blank.start_eq, blank.stop_eq]

omit blank in
theorem insertFramedArea_served (startVa endVa : Nat) (perm : MapPermission) :
    (Requirement.mk (floor startVa <= ceil endVa) (pages (floor startVa) (ceil endVa))
      (ceil endVa - floor startVa)).Served loader (fun after => after)
      (loader.insertFramedArea startVa endVa perm) :=
  (unwrap_new_served.bind fun _ made =>
    (blank_of_new (unwrap_eq_done_iff.mp made)).pushArea_served).congr (and_iff_left trivial) rfl (Nat.zero_add _)

theorem Blank.mem_pages {vpn : Nat} (member : vpn ∈ pages first last) : area.start <= vpn := by
  rw [blank.start_eq]
  exact (MapArea.mem_pages.mp member).1

/-- Pages are taken over if their source is one area of the kernel. -/
theorem Blank.mapFromKernelArea_served (orderly : loader.kernel.Orderly) (source : Nat) :
    (Requirement.mk (Backed loader.kernel source (last - first)) (pages first last) 0).Served loader
      (fun (result : MapArea × PageTable) => { loader with user := ⟨result.2, loader.user.areas ++ [result.1]⟩ })
      (unwrap (area.mapFromKernelArea loader.user.pageTable loader.kernel.areas source)) := by
  have number : (pages first last).length = last - first := length_range'
  have inversion : ∀ result, area.mapFromKernelArea loader.user.pageTable loader.kernel.areas source = some result ↔
      ∃ kernelArea, (kernelArea ∈ loader.kernel.areas /\ kernelArea.Holds source) /\
        (∀ vpn ∈ range' source (last - first), (kernelArea.getInMemory vpn).isSome = true) /\
        mapPages (pages first last) ((range' source (last - first)).map fun vpn =>
          (kernelArea.getInMemory vpn).getD 0) area loader.user.pageTable = .ok result := by
    intro result
    rw [mapFromKernelArea, Option.bind_eq_some_iff, blank.pages_eq]
    simp only [mapKernelPages_eq_some_iff, number]
    refine exists_congr fun kernelArea => and_congr_left fun _ => ⟨fun found => ⟨?_, ?_⟩, fun held => ?_⟩
    · exact mem_reverse.mp (mem_of_find?_eq_some found)
    · simpa using find?_some found
    · exact orderly.find_reverse held.1 held.2
  have maps : ∀ {ppns result}, mapPages (pages first last) ppns area loader.user.pageTable =
      .ok result -> MemorySet.Maps (pages first last) ppns area loader.user.pageTable result.1 result.2 :=
    mapPages_maps fun _ => blank.mem_pages
  refine ⟨⟨?_, ?_⟩, ?_, fun _ _ failure => absurd failure unwrap_ne_failed⟩
  · rintro ⟨result, finished⟩
    rcases (inversion result).mp (unwrap_eq_done_iff.mp finished) with ⟨kernelArea, held, present, mapped⟩
    refine ⟨⟨kernelArea, held.1, held.2, fun index below => present _ ?_⟩, (maps mapped).nodup, (maps mapped).unmapped,
      Nat.zero_le _⟩
    exact mem_range'_1.mpr ⟨Nat.le_add_right _ _, Nat.add_lt_add_left below _⟩
  · rintro ⟨⟨kernelArea, member, held, present⟩, nodup, unmapped, _⟩
    have enough : (pages first last).length <=
        ((range' source (last - first)).map fun vpn => (kernelArea.getInMemory vpn).getD 0).length := by
      rw [number, length_map, length_range']
    rcases mapPages_isOk enough nodup unmapped blank.unallocated with ⟨result, mapped⟩
    refine ⟨result, unwrap_eq_done_iff.mpr ((inversion result).mpr ⟨kernelArea, ⟨member, held⟩, ?_, mapped⟩)⟩
    intro vpn inside
    rcases mem_range'_1.mp inside with ⟨low, _⟩
    have known := present (vpn - source) (by omega)
    rwa [Nat.add_sub_cancel' low] at known
  · intro result finished
    rcases (inversion result).mp (unwrap_eq_done_iff.mp finished) with ⟨_, _, _, mapped⟩
    exact ⟨rfl, entry_iff_of_maps (maps mapped), rfl⟩

omit blank

/-- The slice of the file stays in its bounds. -/
theorem slice_iff {offset size length : Nat} (low : offset < usizeRange) (bounded : size < usizeRange)
    (small : length < 2 ^ 63) :
    offset <= (offset + size) % usizeRange /\ (offset + size) % usizeRange <= length ↔ offset + size <= length := by
  unfold usizeRange at *
  constructor
  · rintro ⟨_, _⟩
    omega
  · intro fits
    rw [Nat.mod_eq_of_lt (by omega)]
    exact ⟨Nat.le_add_right _ _, fits⟩

theorem mapSegment_served (orderly : loader.kernel.Orderly) (small : elf.input.length < 2 ^ 63)
    (low : ph.offset < usizeRange) (bounded : ph.fileSize < usizeRange) (addr bias : Nat) :
    (ph.need bias loader.kernel elf addr).Served loader (fun after => after) (loader.mapSegment elf addr bias ph) := by
  unfold mapSegment ProgramHeader.need
  by_cases shared : ph.Shared bias
  · simp only [if_pos shared]
    change ((check _).and ⟨_, _, 0⟩).Served _ _ _
    refine unwrap_new_served.bind fun area made => ?_
    have blank := blank_of_new (unwrap_eq_done_iff.mp made)
    rw [blank.start_eq, blank.stop_eq]
    exact (Served.map (blank.mapFromKernelArea_served orderly _) (fun _ => rfl)).guard
  · simp only [if_neg shared, slice_iff low bounded small]
    refine congr (unwrap_new_served.bind fun area made =>
      (blank_of_new (unwrap_eq_done_iff.mp made)).pushArea_served.guard) ?_ rfl (Nat.zero_add _)
    simp [check, Requirement.and, ProgramHeader.firstPage, ProgramHeader.endPage]

end Areas

/-! ## The loop over the program headers -/

section Loops

variable {σ : Type} {data : List Byte} {body : σ -> ProgramHeader -> Attempt σ} {start : σ}
  {read : Nat -> Option ProgramHeader} {items : List Nat}

theorem foldlM_unwrap_eq {entry : Nat -> ProgramHeader}
    (known : ∀ index ∈ items, read index = some (entry index)) :
    items.foldlM (fun state index => unwrap (read index) >>= fun ph => body state ph) start =
      (items.map entry).foldlM body start := by
  induction items generalizing start with
  | nil => rfl
  | cons first rest ih =>
    have later : ∀ state, rest.foldlM (fun state index =>
        unwrap (read index) >>= fun ph => body state ph) state = (rest.map entry).foldlM body state :=
      fun state => ih (fun index member => known index (mem_cons_of_mem _ member))
    rw [foldlM_cons, map_cons, foldlM_cons, known first mem_cons_self]
    exact congrArg (Attempt.bind (body start (entry first))) (funext later)

theorem forHeaders_eq (readable : (ofInput data).Readable) (small : data.length < 2 ^ 63) :
    forHeaders (ofInput data) body start = (ofInput data).table.foldlM body start :=
  foldlM_unwrap_eq fun _ member => readable.programHeader small (mem_range.mp member)

theorem readProgramHeader_lt (input : List Byte) (start : Nat) (kind : Class) :
    (readProgramHeader input start kind).offset < usizeRange /\
      (readProgramHeader input start kind).fileSize < usizeRange := by
  cases kind with
  | thirtyTwo => exact ⟨lt_trans (fieldAt_lt input _ 4) (by decide), lt_trans (fieldAt_lt input _ 4) (by decide)⟩
  | sixtyFour => exact ⟨fieldAt_lt input _ 8, fieldAt_lt input _ 8⟩

theorem programHeader_lt {index : Nat}
    (read : elf.programHeader index = some ph) : ph.offset < usizeRange /\ ph.fileSize < usizeRange := by
  unfold programHeader at read
  dsimp only at read
  split at read
  · cases read
    exact readProgramHeader_lt _ _ _
  · cases read

variable {needOf : ProgramHeader -> Requirement} {out : σ -> Loader} {kernel : MemorySet}

/-- A loop gets through if the table can be read and every round gets through. -/
theorem forHeaders_served (small : data.length < 2 ^ 63)
    (each : ∀ ph, ph.offset < usizeRange /\ ph.fileSize < usizeRange -> ∀ state, (out state).kernel = kernel ->
      (needOf ph).Served (out state) out (body state ph)) (kernel_eq : (out start).kernel = kernel) :
    ((check (ofInput data).Readable).and (all ((ofInput data).table.map needOf))).Served (out start) out
      (forHeaders (ofInput data) body start) := by
  -- a header is known when the loop comes to it
  let lazyNeed := fun index => ((ofInput data).programHeader index).elim (check False) needOf
  have lazy : (Requirement.all ((List.range (ofInput data).phNumber).map lazyNeed)).Served (out start) out
      (forHeaders (ofInput data) body start) := by
    refine served_foldlM (fun index _ state same => ?_) start kernel_eq
    dsimp only [lazyNeed]
    cases read : (ofInput data).programHeader index with
    | none => exact served_panicked id
    | some ph => exact each ph (programHeader_lt read) state same
  have needs_eq : (ofInput data).Readable ->
      (List.range (ofInput data).phNumber).map lazyNeed = (ofInput data).table.map needOf := by
    intro readable
    rw [table, map_map]
    refine map_congr_left fun index member => ?_
    dsimp only [lazyNeed]
    rw [readable.programHeader small (mem_range.mp member)]
    rfl
  refine lazy.congr_of_sound ⟨fun sound => ?_, ?_⟩ ?_ ?_
  · have readable : (ofInput data).Readable := by
      refine readable_of_isSome small fun index inside => ?_
      have own := sound_all_iff.mp sound _ (mem_map_of_mem (mem_range.mpr inside))
      dsimp only [lazyNeed] at own
      cases read : (ofInput data).programHeader index with
      | none =>
        rw [read] at own
        exact own.elim
      | some ph => rfl
    exact ⟨readable, needs_eq readable ▸ sound⟩
  · rintro ⟨readable, sound⟩
    rw [needs_eq readable]
    exact sound
  · rintro ⟨readable, _⟩
    rw [needs_eq readable]
    rfl
  · rintro ⟨readable, _⟩
    rw [needs_eq readable]
    exact (Nat.zero_add _).symm

end Loops

namespace ProgramHeader

/-- The types that the loop treats are those of their numbers. -/
theorem type_of_getType {kind : PhType} (known : ph.getType = .ok kind) :
    (kind = .load ↔ ph.type_ = 1) /\ (kind = .interp ↔ ph.type_ = 3) := by
  unfold getType at known
  split at known
  case h_9 type_ null load dynamic interp note shLib phdr tls =>
    have other : ph.type_ ≠ 1 /\ ph.type_ ≠ 3 := ⟨load, interp⟩
    split at known
    · cases known
      simp [other]
    · split at known
      · cases known
        simp [other]
      · split at known
        · cases known
          simp [other]
        · cases known
  all_goals
    rename_i number
    cases known
    simp [number]

end ProgramHeader

/-! ## The requirement of a file -/

namespace ElfFile

variable (elf : ElfFile)

def interpCount : Nat := elf.table.countP (fun ph => decide (ph.type_ = 3))

/-- A program, or a shared object with at most one interpreter. -/
def Loads : Prop := elf.header.type_ = 2 \/ elf.header.type_ = 3 /\ elf.interpCount <= 1

/-- Where the segments of the file go; a shared object without an interpreter is taken for
an interpreter itself. -/
def bias : Nat := if elf.header.type_ = 3 /\ elf.interpCount = 0 then elfDynBase else 0

/-- The end of the segments to load, which is that of the last header. -/
def breakOf (bias : Nat) (headers : List ProgramHeader) (before : Option Nat) : Option Nat :=
  headers.foldl (fun last ph => if ph.type_ = 1 then some (startAddr (ph.endPage bias)) else last) before

def programBreak : Option Nat := breakOf elf.bias elf.table none

end ElfFile

section Needs

variable (files : Files)

/-- The interpreter is found, its file can be mapped behind the last area of the kernel, and
what it requires itself. -/
def interpNeed (child : MemorySet -> Nat -> CachedFile -> Requirement) (kernel : MemorySet) (elf : ElfFile)
    (ph : ProgramHeader) : Requirement :=
  match files (ph.path elf), kernel.highestPage with
  | .ok file, some page =>
    (check ((0 < ph.fileSize /\ ph.offset + ph.fileSize <= elf.input.length + 1) /\
      kernel.Unused page file.caches.length /\ ElfFile.Parses file.data)).and
      (child (kernel.withProgram page file.caches) page file)
  | _, _ => check False

def headerNeed (child : MemorySet -> Nat -> CachedFile -> Requirement) (kernel : MemorySet) (elf : ElfFile)
    (addr bias : Nat) (ph : ProgramHeader) : Requirement :=
  match ph.getType with
  | .error _ => check False
  | .ok .load => ph.need bias kernel elf addr
  | .ok .interp => interpNeed files child kernel elf ph
  | .ok _ => check True

/-- The requirement of a file that is mapped at a page of the kernel, with a bound on the
depth of interpreters. -/
def imageNeed : Nat -> MemorySet -> Nat -> ElfFile -> Requirement
  | 0, _, _, _ => check False
  | calls + 1, kernel, page, elf =>
    (check (elf.Loads /\ elf.Readable /\ ∃ ph, ph ∈ elf.table /\ ph.type_ = 1)).and
      (all (elf.table.map (headerNeed files
        (fun kernel page file => imageNeed calls kernel page (ElfFile.ofInput file.data)) kernel elf
        (page * pageSize) elf.bias)))

/-- The requirement of a file with its page cache. -/
def fileNeed (calls : Nat) (kernel : MemorySet) (page : Nat) (file : CachedFile) : Requirement :=
  imageNeed files calls kernel page (ElfFile.ofInput file.data)

end Needs

section Served

variable {files : Files} {data path : List Byte} {loader : Loader} {kernel : MemorySet} {addr bias calls : Nat}
  {progress : Progress}

theorem interpPath_eq_some_iff (small : elf.input.length < 2 ^ 63)
    (low : ph.offset < usizeRange) (bounded : ph.fileSize < usizeRange) :
    interpPath elf ph = some path ↔
      (0 < ph.fileSize /\ ph.offset + ph.fileSize <= elf.input.length + 1) /\ path = ph.path elf := by
  have inside : ph.offset <= (ph.offset + ph.fileSize + usizeRange - 1) % usizeRange /\
      (ph.offset + ph.fileSize + usizeRange - 1) % usizeRange <= elf.input.length ↔
      0 < ph.fileSize /\ ph.offset + ph.fileSize <= elf.input.length + 1 := by
    unfold usizeRange at *
    omega
  unfold interpPath
  dsimp only
  split
  · rename_i sliced
    have fits := inside.mp sliced
    have length_eq : (ph.offset + ph.fileSize + usizeRange - 1) % usizeRange - ph.offset = ph.fileSize - 1 := by
      unfold usizeRange at *
      omega
    rw [Option.some_inj, length_eq]
    exact ⟨fun same => ⟨fits, same.symm⟩, fun both => both.2.symm⟩
  · rename_i unsliced
    exact ⟨nofun, fun both => absurd (inside.mpr both.1) unsliced⟩

theorem countInterp_foldlM (headers : List ProgramHeader) (count : Nat) {total : Nat}
    (finished : headers.foldlM countInterp count = .done total) :
    total = count + headers.countP (fun ph => decide (ph.type_ = 3)) := by
  induction headers generalizing count with
  | nil =>
    cases finished
    rfl
  | cons ph rest ih =>
    rcases bind_eq_done_iff.mp finished with ⟨next, early, late⟩
    rw [ih next late, countP_cons]
    unfold countInterp at early
    split at early
    · cases early
    · rename_i kind known
      cases early
      have number := (ProgramHeader.type_of_getType known).2
      by_cases interp : ph.type_ = 3
      · rw [if_pos (number.mpr interp), if_pos (decide_eq_true interp)]
        omega
      · rw [if_neg (mt number.mp interp), if_neg (by simpa using interp)]
        omega

theorem countHeaders_served (small : data.length < 2 ^ 63) (loader : Loader) :
    (check ((ofInput data).Readable /\
      ∀ ph ∈ (ofInput data).table, ∃ kind, ph.getType = .ok kind)).Served loader
      (fun _ => loader) (forHeaders (ofInput data) countInterp 0) := by
  rw [<- and_check, <- all_check]
  refine @forHeaders_served _ _ _ 0 _ (fun _ => loader) _ small (fun ph _ count _ => ?_) rfl
  unfold countInterp
  cases known : ph.getType with
  | error message => exact served_panicked nofun
  | ok kind => exact served_done ⟨kind, rfl⟩ rfl

theorem countHeaders_eq_done (small : data.length < 2 ^ 63) {count : Nat}
    (counted : forHeaders (ofInput data) countInterp 0 = .done count) :
    count = (ofInput data).interpCount := by
  have met := (countHeaders_served small ⟨⟨PageTable.new, []⟩, ⟨PageTable.new, []⟩, []⟩).done_iff.mp ⟨count, counted⟩
  rw [forHeaders_eq met.sound.1 small] at counted
  rw [countInterp_foldlM _ 0 counted, Nat.zero_add, interpCount]

theorem biasOf_served (small : data.length < 2 ^ 63) (loader : Loader) :
    (check ((ofInput data).header.type_ = 2 \/ (ofInput data).header.type_ = 3 /\
      ((ofInput data).Readable /\
        ∀ ph ∈ (ofInput data).table, ∃ kind, ph.getType = .ok kind) /\
      (ofInput data).interpCount <= 1)).Served loader (fun _ => loader)
      (biasOf (ofInput data) loader.kernel) := by
  unfold biasOf
  split
  · rename_i executable
    exact served_done (.inl executable) rfl
  · split
    · rename_i other shared
      refine (show (Requirement.and _ (check ((ofInput data).interpCount <= 1))).Served loader (fun _ => loader) _ from
        (countHeaders_served small loader).bind fun count counted => ?_).congr ?_ rfl rfl
      · rw [<- countHeaders_eq_done small counted]
        rcases count with _ | _ | more
        · exact served_done (Nat.zero_le 1) rfl
        · exact served_done (Nat.le_refl 1) rfl
        · exact served_failed _ fun few : more + 2 <= 1 => by omega
      · simp [check, Requirement.and, shared]
    · exact served_failed _ (by simp_all [check])

theorem biasOf_eq_done (small : data.length < 2 ^ 63) (chosen : biasOf (ofInput data) kernel = .done bias) :
    bias = (ofInput data).bias := by
  unfold biasOf at chosen
  unfold ElfFile.bias
  split at chosen
  · cases chosen
    rw [if_neg (by omega)]
  · split at chosen
    · rename_i shared
      rcases bind_eq_done_iff.mp chosen with ⟨_, counted, chosen⟩
      rw [<- countHeaders_eq_done small counted]
      split at chosen
      · cases chosen
        rw [if_pos ⟨shared, rfl⟩]
      · cases chosen
        rw [if_neg (by omega)]
      · cases chosen
    · cases chosen

theorem length_of_magic {input : List Byte} (magical : input.take 4 = magic) : 4 <= input.length := by
  have taken := congrArg List.length magical
  rw [length_take] at taken
  change min 4 _ = 4 at taken
  omega

theorem parse_served (data : List Byte) (loader : Loader) :
    (check (ElfFile.Parses data)).Served loader (fun _ => loader) (unwrapResult (ElfFile.new data)) where
  done_iff := by simp [check_met_iff, new_eq_ok_iff]
  took := fun _ _ => took_check _ loader
  leaky := fun _ _ failure => absurd failure unwrapResult_ne_failed

/-- `map_elf` is served with what `child` says about a file. -/
def ServesFiles (child : MemorySet -> Nat -> CachedFile -> Requirement)
    (mapElf : ElfFile -> Nat -> Loader -> Attempt (Nat × ElfInfo × Loader)) : Prop :=
  ∀ (loader : Loader) (page : Nat) (file : CachedFile), loader.kernel.Orderly ->
    (child loader.kernel page file).Served loader (fun result => result.2.2)
      (mapElf (ElfFile.ofInput file.data) (page * pageSize) loader)

theorem loadElfInterp_refuses
    (bad : ∀ file page, files path = .ok file -> loader.kernel.highestPage = some page -> file.data.take 4 ≠ magic) :
    loader.loadElfInterp files path = .panicked \/
      ∃ errno, loader.loadElfInterp files path = .failed errno loader.kernel := by
  unfold loadElfInterp
  cases known : files path with
  | error errno => exact .inr ⟨errno, rfl⟩
  | ok file =>
    dsimp only
    split
    · exact .inr ⟨_, rfl⟩
    · split
      · exact .inr ⟨_, rfl⟩
      · rename_i magical
        cases highest : loader.kernel.highestPage with
        | none => exact .inl rfl
        | some page => exact absurd (not_not.mp magical) (bad file page known highest)

theorem loadElfInterp_eq {file : CachedFile} {page : Nat} (known : files path = .ok file)
    (highest : loader.kernel.highestPage = some page) (magical : file.data.take 4 = magic) :
    loader.loadElfInterp files path =
      unwrap (loader.kernel.insertProgramArea (page * pageSize) readWrite
        (file.caches.map .inMemory)) >>= fun kernel => pure (file, page * pageSize, { loader with kernel := kernel }) := by
  have long := length_of_magic magical
  rw [loadElfInterp, known]
  dsimp only
  rw [if_neg (by omega), if_neg (not_not.mpr magical), highest]
  rfl

section Headers

variable {child : MemorySet -> Nat -> CachedFile -> Requirement}
  {mapElf : ElfFile -> Nat -> Loader -> Attempt (Nat × ElfInfo × Loader)}

section Header

variable (serves : ServesFiles child mapElf) {elf : ElfFile} (small : elf.input.length < 2 ^ 63) {progress : Progress}
  (orderly : progress.loader.kernel.Orderly) {ph : ProgramHeader}
  (inRange : ph.offset < usizeRange /\ ph.fileSize < usizeRange)

include serves small orderly inRange

/-- The interpreter's file is unmapped again, so the kernel's space is as it was before. -/
theorem mapInterp_served : (interpNeed files child progress.loader.kernel elf ph).Served progress.loader
    Progress.loader (mapInterp files mapElf elf progress ph) := by
  have named : (check (0 < ph.fileSize /\ ph.offset + ph.fileSize <= elf.input.length + 1)).Served progress.loader
      (fun _ => progress.loader) (unwrap (interpPath elf ph)) :=
    served_unwrap (by simp [interpPath_eq_some_iff small inRange.1 inRange.2])
  have path_eq : ∀ path, unwrap (interpPath elf ph) = .done path -> path = ph.path elf := fun path found =>
    ((interpPath_eq_some_iff small inRange.1 inRange.2).mp (unwrap_eq_done_iff.mp found)).2
  by_cases good : ∃ file page, files (ph.path elf) = .ok file /\
      progress.loader.kernel.highestPage = some page /\ file.data.take 4 = magic
  · rcases good with ⟨file, page, known, highest, magical⟩
    have filled := CachedFile.caches_ne_nil (lt_of_lt_of_le (by decide) (length_of_magic magical))
    have inserted : (check (progress.loader.kernel.Unused page file.caches.length)).Served progress.loader
        (fun _ => progress.loader) (progress.loader.loadElfInterp files (ph.path elf)) := by
      rw [loadElfInterp_eq known highest magical]
      exact (served_unwrap (by simp [insertProgramArea_eq_some_iff])).map fun _ => rfl
    refine congr (@Served.bind _ ((check (progress.loader.kernel.Unused page file.caches.length)).and
      ((check (ElfFile.Parses file.data)).and (child (progress.loader.kernel.withProgram page file.caches) page file)))
        _ _ _ _ _ _ _ named fun path found => ?_)
      (by simp [interpNeed, known, highest, check, Requirement.and, and_assoc])
      (by simp [interpNeed, known, highest, check, Requirement.and])
      (by simp [interpNeed, known, highest, check, Requirement.and])
    rw [path_eq path found]
    refine inserted.bind fun opened stored => ?_
    have opened_eq : progress.loader.kernel.Unused page file.caches.length /\ opened = (file, page * pageSize,
        { progress.loader with kernel := progress.loader.kernel.withProgram page file.caches }) := by
      rw [loadElfInterp_eq known highest magical] at stored
      simp only [bind_eq_done_iff, unwrap_eq_done_iff, insertProgramArea_eq_some_iff] at stored
      rcases stored with ⟨_, ⟨unused, rfl⟩, same⟩
      cases same
      exact ⟨unused, rfl⟩
    rcases opened_eq with ⟨unused, rfl⟩
    refine (parse_served file.data progress.loader).bind fun interp parsed => ?_
    rcases new_eq_ok_iff.mp (unwrapResult_eq_done_iff.mp parsed) with ⟨_, rfl⟩
    have inner := serves { progress.loader with kernel := progress.loader.kernel.withProgram page file.caches } page file
      (orderly.withProgram unused filled)
    have grown : progress.loader.kernel.areas.length <=
        (progress.loader.kernel.withProgram page file.caches).areas.length := by simp [withProgram]
    refine congr (@Served.bind _ (check True) _ _ _ _ _ _ _ (inner.withKernel grown) fun result mapped => ?_)
      (and_iff_left trivial) (append_nil _) rfl
    have page_eq : (page * pageSize + 4095) / pageSize = page := by
      unfold pageSize
      omega
    dsimp only
    rw [page_eq, (inner.took result mapped).kernel_eq, orderly.remove_withProgram unused filled]
    exact served_done trivial rfl
  · have unsound : ¬ (interpNeed files child progress.loader.kernel elf ph).sound := by
      unfold interpNeed
      split
      · rename_i file page known highest
        exact fun sound => good ⟨file, page, known, highest, sound.1.2.2.magical⟩
      · exact id
    refine congr_of_sound (@Served.bind _ (check False) _ _ _ _ _ _ _ named fun path found => ?_)
      (iff_of_false And.right unsound) (absurd · unsound) (absurd · unsound)
    have refused := @loadElfInterp_refuses files path progress.loader fun file page known highest magical =>
      good ⟨file, page, path_eq path found ▸ known, highest, magical⟩
    rcases refused with panicked | ⟨errno, failed⟩
    · rw [panicked]
      exact served_panicked id
    · rw [failed]
      exact served_failed errno id

theorem mapHeader_served (addr bias : Nat) :
    (headerNeed files child progress.loader.kernel elf addr bias ph).Served progress.loader Progress.loader
      (mapHeader files mapElf elf addr bias progress ph) := by
  unfold headerNeed mapHeader
  cases known : ph.getType with
  | error message => exact served_panicked id
  | ok kind =>
    cases kind with
    | load => exact Served.map (mapSegment_served orderly small inRange.1 inRange.2 addr bias) (fun _ => rfl)
    | interp => exact mapInterp_served serves small orderly inRange
    | _ => exact served_done trivial rfl

omit small orderly inRange in
/-- The loop over all headers of a file. -/
theorem mapHeaders_served (short : data.length < 2 ^ 63) (clean : loader.kernel.Orderly) (addr bias : Nat) :
    ((check (ofInput data).Readable).and
      (all ((ofInput data).table.map (headerNeed files child loader.kernel (ofInput data) addr bias)))).Served
      loader Progress.loader (forHeaders (ofInput data) (mapHeader files mapElf (ofInput data) addr bias)
        ⟨loader, none, none, none, none⟩) := by
  refine @forHeaders_served _ _ _ ⟨loader, none, none, none, none⟩ _ Progress.loader loader.kernel short ?_ rfl
  intro ph inRange progress kernel_eq
  have served : (headerNeed files child progress.loader.kernel (ofInput data) addr bias ph).Served progress.loader
      Progress.loader (mapHeader files mapElf (ofInput data) addr bias progress ph) :=
    mapHeader_served serves short (kernel_eq ▸ clean) inRange addr bias
  rwa [kernel_eq] at served

end Header

/-- What a header does to the variables that `map_elf` looks at in the end. -/
theorem mapHeader_variables {after : Progress}
    (finished : mapHeader files mapElf elf addr bias progress ph = .done after) :
    after.programBreak = breakOf bias [ph] progress.programBreak /\
      (after.loadAddr.isSome = true ↔ progress.loadAddr.isSome = true \/ ph.type_ = 1) := by
  unfold mapHeader at finished
  cases known : ph.getType with
  | error message => simp [known] at finished
  | ok kind =>
    rw [known] at finished
    have numbers := ProgramHeader.type_of_getType known
    have idle : ph.type_ ≠ 1 -> after.programBreak = progress.programBreak ->
        after.loadAddr = progress.loadAddr ->
        after.programBreak = breakOf bias [ph] progress.programBreak /\
          (after.loadAddr.isSome = true ↔ progress.loadAddr.isSome = true \/ ph.type_ = 1) := by
      intro other same kept
      refine ⟨?_, ?_⟩
      · rw [same, breakOf, foldl_cons, foldl_nil, if_neg other]
      · rw [kept]
        exact ⟨.inl, fun either => either.resolve_right other⟩
    cases kind with
    | load =>
      rcases bind_eq_done_iff.mp finished with ⟨_, _, rest⟩
      cases rest
      have load := numbers.1.mp rfl
      refine ⟨?_, ?_⟩
      · rw [breakOf, foldl_cons, foldl_nil, if_pos load]
        rfl
      · exact ⟨fun _ => .inr load, fun _ => rfl⟩
    | interp =>
      have other : ph.type_ ≠ 1 := by
        have number := numbers.2.mp rfl
        omega
      simp only [mapInterp, bind_eq_done_iff] at finished
      rcases finished with ⟨_, _, _, _, _, _, _, _, _, _, rest⟩
      cases rest
      exact idle other rfl rfl
    | _ =>
      cases finished
      exact idle (fun number => by cases numbers.1.mpr number) rfl rfl

theorem mapHeaders_variables {after : Progress} {headers : List ProgramHeader}
    (finished : headers.foldlM (mapHeader files mapElf elf addr bias) progress = .done after) :
    after.programBreak = breakOf bias headers progress.programBreak /\
      (after.loadAddr.isSome = true ↔ progress.loadAddr.isSome = true \/ ∃ ph, ph ∈ headers /\ ph.type_ = 1) := by
  induction headers generalizing progress with
  | nil =>
    cases finished
    simp [breakOf]
  | cons first rest ih =>
    rcases bind_eq_done_iff.mp finished with ⟨_, early, late⟩
    rcases mapHeader_variables early with ⟨break_eq, loaded⟩
    rcases ih late with ⟨breaks_eq, later⟩
    refine ⟨?_, ?_⟩
    · rw [breaks_eq, break_eq]
      rfl
    · rw [later, loaded, or_assoc]
      simp only [exists_mem_cons_iff]

theorem isSome_breakOf (bias : Nat) (headers : List ProgramHeader) (before : Option Nat) :
    (breakOf bias headers before).isSome = true ↔
      before.isSome = true \/ ∃ ph, ph ∈ headers /\ ph.type_ = 1 := by
  induction headers generalizing before with
  | nil => simp [breakOf]
  | cons first rest ih =>
    have step : breakOf bias (first :: rest) before = breakOf bias rest
      (if first.type_ = 1 then some (startAddr (first.endPage bias)) else before) := rfl
    rw [step, ih]
    by_cases load : first.type_ = 1
    · simp [load]
    · simp [load]

/-- A loop that has come to its end has found the break of the file, if there is a segment to load. -/
theorem mapHeaders_eq_done (serves : ServesFiles child mapElf)
    (short : data.length < 2 ^ 63) (clean : loader.kernel.Orderly)
    (looped : forHeaders (ofInput data) (mapHeader files mapElf (ofInput data) addr bias)
      ⟨loader, none, none, none, none⟩ = .done progress) :
    progress.programBreak = breakOf bias (ofInput data).table none /\
      (progress.loadAddr.isSome = true ↔ ∃ ph, ph ∈ (ofInput data).table /\ ph.type_ = 1) := by
  have met := (@mapHeaders_served files data loader _ _ serves short clean addr bias).done_iff.mp ⟨progress, looped⟩
  rw [forHeaders_eq met.sound.1 short] at looped
  simpa using mapHeaders_variables looped

end Headers

/-- A call gets through if and only if what the file requires is met. -/
theorem mapElf_served (files : Files) (calls : Nat) : ServesFiles (fileNeed files calls) (mapElf files calls) := by
  induction calls with
  | zero => exact fun _ _ _ _ => served_of_unsound id nofun nofun
  | succ calls ih =>
    intro loader page file orderly
    refine congr (@Served.bind _ (((check (ofInput file.data).Readable).and
      (all ((ofInput file.data).table.map (headerNeed files (fileNeed files calls) loader.kernel
        (ofInput file.data) (page * pageSize) (ofInput file.data).bias)))).and
      (check (∃ ph, ph ∈ (ofInput file.data).table /\ ph.type_ = 1))) _ _ _ _ _ _ _
      (biasOf_served file.small loader) fun bias chosen => ?_) ?_ (append_nil _) (Nat.zero_add _)
    · rw [biasOf_eq_done file.small chosen]
      refine (mapHeaders_served ih file.small orderly _ _).bind fun progress looped => ?_
      rcases mapHeaders_eq_done ih file.small orderly looped with ⟨break_eq, loaded⟩
      cases first : progress.loadAddr with
      | none =>
        have missing : ¬ ∃ ph, ph ∈ (ofInput file.data).table /\ ph.type_ = 1 := by
          rw [<- loaded, first]
          nofun
        cases progress.programBreak <;> exact served_failed _ missing
      | some loadAddr =>
        have found := loaded.mp (by rw [first]; rfl)
        have broken : progress.programBreak.isSome = true := by
          rw [break_eq, isSome_breakOf]
          exact .inr found
        rcases Option.isSome_iff_exists.mp broken with ⟨programBreak, last⟩
        rw [last]
        exact served_done found rfl
    · constructor
      · rintro ⟨known, ⟨readable, sound⟩, loaded⟩
        refine ⟨⟨?_, readable, loaded⟩, sound⟩
        exact known.imp id fun shared => ⟨shared.1, shared.2.2⟩
      · rintro ⟨⟨loads, readable, loaded⟩, sound⟩
        refine ⟨loads.imp id fun shared => ⟨shared.1, ⟨readable, fun ph member => ?_⟩, shared.2⟩, ⟨readable, sound⟩, loaded⟩
        have served := sound_all_iff.mp sound _ (mem_map_of_mem member)
        unfold headerNeed at served
        split at served
        · exact served.elim
        all_goals exact ⟨_, by assumption⟩

theorem programBreak_of_mapElf {file : CachedFile} {page : Nat} {result : Nat × ElfInfo × Loader}
    (orderly : loader.kernel.Orderly)
    (finished : mapElf files calls (ofInput file.data) (page * pageSize) loader = .done result) :
    (ofInput file.data).programBreak = some result.1 := by
  cases calls with
  | zero => cases finished
  | succ calls =>
    rcases bind_eq_done_iff.mp finished with ⟨_, chosen, finished⟩
    rcases bind_eq_done_iff.mp finished with ⟨_, looped, finished⟩
    rcases mapHeaders_eq_done (mapElf_served files calls) file.small orderly looped with ⟨break_eq, _⟩
    rw [biasOf_eq_done file.small chosen] at break_eq
    split at finished
    · rename_i broken _
      cases finished
      exact break_eq.symm.trans broken
    · cases finished

theorem pushArea_ne_failed {area : MapArea} {errno : Int} : loader.pushArea area ≠ .failed errno kernel := by
  unfold pushArea
  split <;> nofun

end Served

end GCore.Task
