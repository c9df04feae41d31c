import GCore.Library.Bytes

namespace GCore.Task

open Library

/-!
# ELF files

The kernel reads program files with a small parser that works on the mapped bytes in
place.  A field is the bytes at its offset, with the lowest first, whatever the file
says about the order of its bytes.  Files of both classes are read.

The parser reports a bad header as an error, but it also takes slices and asserts that
records are large enough and aligned; a failed slice or assertion is a panic, which is
`none` here.  The mapped file begins at a page, so an address is aligned as its offset
is.
-/

/-- The two classes of files that can be read. -/
inductive Class where
  | thirtyTwo
  | sixtyFour
  deriving DecidableEq, Repr

namespace Class

/-- `as_class`; the other two answers are refused at once. -/
def ofByte (byte : Byte) : Option Class :=
  if byte = 1 then some .thirtyTwo else if byte = 2 then some .sixtyFour else none

/-- The size of both parts of the header. -/
def headerEnd : Class -> Nat
  | thirtyTwo => 52
  | sixtyFour => 64

/-- The size of `ProgramHeader32` and `ProgramHeader64`. -/
def phSize : Class -> Nat
  | thirtyTwo => 32
  | sixtyFour => 56

def phAlign : Class -> Nat
  | thirtyTwo => 4
  | sixtyFour => 8

end Class

open GCore.Task.Class

def fieldAt (input : List Byte) (offset width : Nat) : Nat := littleEndian ((input.drop offset).take width)

theorem fieldAt_lt (input : List Byte) (offset width : Nat) : fieldAt input offset width < 256 ^ width :=
  lt_of_lt_of_le (littleEndian_lt _) (Nat.pow_le_pow_right (by decide) (List.length_take_le _ _))

/-- The fields of the header that are used. -/
structure Header where
  kind : Class
  type_ : Nat
  entryPoint : Nat
  phOffset : Nat
  phEntrySize : Nat
  phCount : Nat
  deriving DecidableEq, Repr

def readHeader (input : List Byte) : Class -> Header
  | .thirtyTwo =>
    { kind := .thirtyTwo
      type_ := fieldAt input 16 2
      entryPoint := fieldAt input 24 4
      phOffset := fieldAt input 28 4
      phEntrySize := fieldAt input 42 2
      phCount := fieldAt input 44 2 }
  | .sixtyFour =>
    { kind := .sixtyFour
      type_ := fieldAt input 16 2
      entryPoint := fieldAt input 24 8
      phOffset := fieldAt input 32 8
      phEntrySize := fieldAt input 54 2
      phCount := fieldAt input 56 2 }

def magic : List Byte := [0x7f, 0x45, 0x4c, 0x46]

/-- A file that is too short for the second part of its header is a panic. -/
def parseHeader (input : List Byte) : Option (Except String Header) :=
  if input.length < 16 then some (.error "File is shorter than the first ELF header part")
  else if input.take 4 ≠ magic then some (.error "Did not find ELF magic number")
  else
    match ofByte (input.getD 4 0) with
    | none => some (.error "Invalid ELF class")
    | some kind => if kind.headerEnd <= input.length then some (.ok (readHeader input kind)) else none

/-- The types of program headers. -/
inductive PhType where
  | null
  | load
  | dynamic
  | interp
  | note
  | shLib
  | phdr
  | tls
  | gnuRelro
  | osSpecific (type_ : Nat)
  | processorSpecific (type_ : Nat)
  deriving DecidableEq, Repr

/-- The fields of a program header that are used, of both classes in one. -/
structure ProgramHeader where
  type_ : Nat
  flags : Nat
  offset : Nat
  virtualAddr : Nat
  fileSize : Nat
  memSize : Nat
  deriving DecidableEq, Repr

namespace ProgramHeader

def getType (ph : ProgramHeader) : Except String PhType :=
  match ph.type_ with
  | 0 => .ok .null
  | 1 => .ok .load
  | 2 => .ok .dynamic
  | 3 => .ok .interp
  | 4 => .ok .note
  | 5 => .ok .shLib
  | 6 => .ok .phdr
  | 7 => .ok .tls
  | type_ =>
    if type_ = 0x6474e552 then .ok .gnuRelro
    else if 0x60000000 <= type_ /\ type_ <= 0x6fffffff then .ok (.osSpecific type_)
    else if 0x70000000 <= type_ /\ type_ <= 0x7fffffff then .ok (.processorSpecific type_)
    else .error "Invalid type"

def isExecute (ph : ProgramHeader) : Bool := ph.flags.testBit 0

def isWrite (ph : ProgramHeader) : Bool := ph.flags.testBit 1

def isRead (ph : ProgramHeader) : Bool := ph.flags.testBit 2

end ProgramHeader

def readProgramHeader (input : List Byte) (start : Nat) : Class -> ProgramHeader
  | .thirtyTwo =>
    { type_ := fieldAt input start 4
      offset := fieldAt input (start + 4) 4
      virtualAddr := fieldAt input (start + 8) 4
      fileSize := fieldAt input (start + 16) 4
      memSize := fieldAt input (start + 20) 4
      flags := fieldAt input (start + 24) 4 }
  | .sixtyFour =>
    { type_ := fieldAt input start 4
      flags := fieldAt input (start + 4) 4
      offset := fieldAt input (start + 8) 8
      virtualAddr := fieldAt input (start + 16) 8
      fileSize := fieldAt input (start + 32) 8
      memSize := fieldAt input (start + 40) 8 }

structure ElfFile where
  input : List Byte
  header : Header
  deriving DecidableEq, Repr

namespace ElfFile

def new (input : List Byte) : Option (Except String ElfFile) :=
  (parseHeader input).map (fun parsed => parsed.map (fun header => ⟨input, header⟩))

/-- The number of headers that `program_iter` goes through.  Without an offset or an entry
size it ends before the first one. -/
def phNumber (elf : ElfFile) : Nat :=
  if 0 < elf.header.phOffset /\ 0 < elf.header.phEntrySize then elf.header.phCount else 0

/-- `parse_program_header`, for a header that `program_iter` comes to. -/
def programHeader (elf : ElfFile) (index : Nat) : Option ProgramHeader :=
  let start := (elf.header.phOffset + index * elf.header.phEntrySize) % 2 ^ 64
  let stop := (start + elf.header.phEntrySize) % 2 ^ 64
  if start <= stop /\ stop <= elf.input.length /\ elf.header.kind.phSize <= stop - start /\
      start % elf.header.kind.phAlign = 0 then
    some (readProgramHeader elf.input start elf.header.kind)
  else none

/-! ## Files that can be read -/

/-- The header of a file is complete. -/
structure Parses (input : List Byte) : Prop where
  magical : input.take 4 = magic
  complete : ∃ kind, ofByte (input.getD 4 0) = some kind /\ kind.headerEnd <= input.length

/-- The file as it is read by its class. -/
def ofInput (input : List Byte) : ElfFile :=
  ⟨input, readHeader input ((ofByte (input.getD 4 0)).getD .sixtyFour)⟩

/-- Every header of the table lies in the file, is large enough and aligned. -/
def Readable (elf : ElfFile) : Prop :=
  ∀ index < elf.phNumber,
    elf.header.phOffset + (index + 1) * elf.header.phEntrySize <= elf.input.length /\
      elf.header.kind.phSize <= elf.header.phEntrySize /\
      (elf.header.phOffset + index * elf.header.phEntrySize) % elf.header.kind.phAlign = 0

/-- The program header at a place of the table. -/
def entry (elf : ElfFile) (index : Nat) : ProgramHeader :=
  readProgramHeader elf.input (elf.header.phOffset + index * elf.header.phEntrySize) elf.header.kind

/-- The program headers, if they can be read. -/
def table (elf : ElfFile) : List ProgramHeader := (List.range elf.phNumber).map elf.entry

instance (elf : ElfFile) : Decidable elf.Readable := inferInstanceAs (Decidable (∀ index < _, _))

theorem new_eq_ok_iff {input : List Byte} {elf : ElfFile} :
    new input = some (.ok elf) ↔ Parses input /\ elf = ofInput input := by
  constructor
  · intro parsed
    rcases Option.map_eq_some_iff.mp parsed with ⟨_, found, same⟩
    unfold parseHeader at found
    split at found
    · cases found
      cases same
    · split at found
      · cases found
        cases same
      · rename_i magical
        rw [not_not] at magical
        split at found
        · cases found
          cases same
        · rename_i kind class_eq
          split at found
          · rename_i complete
            cases found
            cases same
            refine ⟨⟨magical, kind, class_eq, complete⟩, ?_⟩
            rw [ofInput, class_eq]
            rfl
          · cases found
  · rintro ⟨⟨magical, kind, class_eq, complete⟩, rfl⟩
    have long : ¬ input.length < 16 := by
      cases kind <;> simp only [headerEnd] at complete <;> omega
    have parsed : parseHeader input = some (.ok (readHeader input kind)) := by
      rw [parseHeader, if_neg long, if_neg (not_not.mpr magical), class_eq]
      exact if_pos complete
    rw [new, parsed, ofInput, class_eq]
    rfl

theorem phOffset_lt (input : List Byte) : (ofInput input).header.phOffset < 2 ^ 64 := by
  unfold ofInput
  cases (ofByte (input.getD 4 0)).getD .sixtyFour with
  | thirtyTwo => exact lt_trans (fieldAt_lt input 28 4) (by decide)
  | sixtyFour => exact fieldAt_lt input 32 8

theorem phEntrySize_lt (input : List Byte) : (ofInput input).header.phEntrySize < 2 ^ 16 := by
  unfold ofInput
  cases (ofByte (input.getD 4 0)).getD .sixtyFour with
  | thirtyTwo => exact fieldAt_lt input 42 2
  | sixtyFour => exact fieldAt_lt input 54 2

theorem phNumber_lt (input : List Byte) : (ofInput input).phNumber < 2 ^ 16 := by
  unfold phNumber
  split
  · unfold ofInput
    cases (ofByte (input.getD 4 0)).getD .sixtyFour with
    | thirtyTwo => exact fieldAt_lt input 44 2
    | sixtyFour => exact fieldAt_lt input 56 2
  · decide

section Reading

variable {input : List Byte}

/-- The first header can only be read where no address wraps around. -/
theorem first_inside (positive : 0 < (ofInput input).phNumber)
    (read : ((ofInput input).programHeader 0).isSome = true) :
    (ofInput input).header.phOffset + (ofInput input).header.phEntrySize <= input.length := by
  have offset := phOffset_lt input
  have size := phEntrySize_lt input
  unfold programHeader at read
  dsimp only at read
  split at read
  · rename_i inside
    rcases inside with ⟨ordered, below, _⟩
    rw [Nat.zero_mul, Nat.add_zero, Nat.mod_eq_of_lt offset] at ordered below
    by_cases fits : (ofInput input).header.phOffset + (ofInput input).header.phEntrySize < 2 ^ 64
    · rwa [Nat.mod_eq_of_lt fits] at below
    · have nonempty : 0 < (ofInput input).header.phEntrySize := by
        unfold phNumber at positive
        split at positive
        · rename_i both
          exact both.2
        · exact absurd positive (by decide)
      omega
  · cases read

/-- Where nothing wraps around, a header is read if its place is good. -/
theorem programHeader_eq (small : input.length < 2 ^ 63) {index : Nat} (inside : index < (ofInput input).phNumber)
    (first : (ofInput input).header.phOffset + (ofInput input).header.phEntrySize <= input.length) :
    (ofInput input).programHeader index =
      if (ofInput input).header.phOffset + (index + 1) * (ofInput input).header.phEntrySize <= input.length /\
          (ofInput input).header.kind.phSize <= (ofInput input).header.phEntrySize /\
          ((ofInput input).header.phOffset + index * (ofInput input).header.phEntrySize) %
            (ofInput input).header.kind.phAlign = 0 then
        some ((ofInput input).entry index)
      else none := by
  have size := phEntrySize_lt input
  have number := phNumber_lt input
  have product : index * (ofInput input).header.phEntrySize < 2 ^ 16 * 2 ^ 16 :=
    Nat.mul_lt_mul_of_lt_of_le (inside.trans number) size.le (by decide)
  have next : (index + 1) * (ofInput input).header.phEntrySize =
      index * (ofInput input).header.phEntrySize + (ofInput input).header.phEntrySize := Nat.succ_mul _ _
  unfold programHeader entry
  rw [next]
  generalize index * (ofInput input).header.phEntrySize = skipped at product
  have start_eq : ((ofInput input).header.phOffset + skipped) % 2 ^ 64 =
      (ofInput input).header.phOffset + skipped := Nat.mod_eq_of_lt (by omega)
  have stop_eq : ((ofInput input).header.phOffset + skipped + (ofInput input).header.phEntrySize) % 2 ^ 64 =
      (ofInput input).header.phOffset + skipped + (ofInput input).header.phEntrySize :=
    Nat.mod_eq_of_lt (by omega)
  have length_eq : (ofInput input).input.length = input.length := rfl
  dsimp only
  rw [start_eq, stop_eq, length_eq, <- Nat.add_assoc, Nat.add_sub_cancel_left]
  exact if_congr (and_iff_right (Nat.le_add_right _ _)) rfl rfl

theorem Readable.programHeader (readable : (ofInput input).Readable) (small : input.length < 2 ^ 63) {index : Nat}
    (inside : index < (ofInput input).phNumber) :
    (ofInput input).programHeader index = some ((ofInput input).entry index) := by
  have first : (ofInput input).header.phOffset + (ofInput input).header.phEntrySize <= input.length := by
    have place := (readable 0 (Nat.zero_lt_of_lt inside)).1
    rwa [Nat.zero_add, Nat.one_mul] at place
  exact (programHeader_eq small inside first).trans (if_pos (readable index inside))

theorem readable_of_isSome (small : input.length < 2 ^ 63) (read : ∀ index < (ofInput input).phNumber,
      ((ofInput input).programHeader index).isSome = true) : (ofInput input).Readable := by
  intro index inside
  have positive := Nat.zero_lt_of_lt inside
  have found := read index inside
  rw [programHeader_eq small inside (first_inside positive (read 0 positive))] at found
  split at found
  · assumption
  · cases found

end Reading

end ElfFile

end GCore.Task
