import Mathlib.Data.BitVec

namespace GCore.Library

open List

/-!
# Memory by bytes

Memory is a map from addresses to bytes.  Data is stored and loaded in one
piece, and a word is eight bytes with the lowest first.
-/

abbrev Byte := BitVec 8

abbrev Memory := Nat -> Byte

variable {index address place : Nat} {memory : Memory}

namespace Memory

def load (memory : Memory) (address len : Nat) : List Byte :=
  (List.range len).map fun index => memory (address + index)

def store (memory : Memory) (address : Nat) (data : List Byte) : Memory :=
  fun place =>
    if address <= place /\ place < address + data.length then data.getD (place - address) 0
    else memory place

@[simp] theorem length_load (memory : Memory) (address len : Nat) : (memory.load address len).length = len := by
  rw [load, length_map, length_range]

variable {len : Nat} {data : List Byte}

theorem getD_load (memory : Memory) (address : Nat) (inside : index < len) :
    (memory.load address len).getD index 0 = memory (address + index) := by
  rw [getD_eq_getElem?_getD, load, getElem?_map, getElem?_range inside]
  rfl

theorem store_inside (memory : Memory) (address : Nat)
    (inside : index < data.length) : memory.store address data (address + index) = data.getD index 0 := by
  rw [store, if_pos ⟨Nat.le_add_right _ _, Nat.add_lt_add_left inside _⟩, Nat.add_sub_cancel_left]

theorem store_outside (memory : Memory) (outside : ¬ (address <= place /\ place < address + data.length)) :
    memory.store address data place = memory place := by
  rw [store, if_neg outside]

/-- A load is determined by the single bytes. -/
theorem load_eq_of_bytes (same : ∀ index < data.length, memory (address + index) = data.getD index 0) :
    memory.load address data.length = data := by
  apply ext_getElem
  · exact length_load memory address data.length
  · intro index _ inside
    have byte := same index inside
    rw [getD_eq_getElem?_getD, getElem?_eq_getElem inside, Option.getD_some] at byte
    simp only [load, getElem_map, getElem_range]
    exact byte

theorem load_store_same (memory : Memory) (address : Nat) (data : List Byte) :
    (memory.store address data).load address data.length = data :=
  load_eq_of_bytes fun _ inside => store_inside memory address inside

theorem load_congr {other : Memory} (same : ∀ index < len, memory (address + index) = other (address + index)) :
    memory.load address len = other.load address len :=
  map_congr_left fun index member => same index (mem_range.mp member)

variable (memory : Memory)

theorem load_add (address first second : Nat) :
    memory.load address (first + second) = memory.load address first ++ memory.load (address + first) second := by
  unfold load
  rw [range_add, map_append, map_map]
  congr 1
  apply map_congr_left
  intro index _
  change memory (address + (first + index)) = memory (address + first + index)
  rw [Nat.add_assoc]

theorem take_load (address : Nat) {taken : Nat} (inside : taken <= len) :
    (memory.load address len).take taken = memory.load address taken := by
  rw [<- Nat.add_sub_cancel' inside, load_add, take_append_of_le_length (by rw [length_load]),
    take_of_length_le (by rw [length_load])]

theorem drop_load (address : Nat) {skipped : Nat} (inside : skipped <= len) :
    (memory.load address len).drop skipped = memory.load (address + skipped) (len - skipped) := by
  conv =>
    lhs
    rw [<- Nat.add_sub_cancel' inside]
  rw [load_add, drop_append_of_le_length (by rw [length_load]), drop_of_length_le (by rw [length_load]),
    nil_append]

theorem store_nil (address : Nat) : memory.store address [] = memory := by
  funext place
  exact store_outside memory (by rw [length_nil]; omega)

/-- Two stores next to each other. -/
theorem store_append (address : Nat) (first second : List Byte) :
    (memory.store address first).store (address + first.length) second = memory.store address (first ++ second) := by
  funext place
  unfold store
  rw [length_append, getD_eq_getElem?_getD, getD_eq_getElem?_getD, getD_eq_getElem?_getD]
  by_cases later : address + first.length <= place /\ place < address + first.length + second.length
  · rw [if_pos later, if_pos (by omega), getElem?_append_right (by omega), Nat.sub_add_eq]
  · rw [if_neg later]
    by_cases earlier : address <= place /\ place < address + first.length
    · rw [if_pos earlier, if_pos (by omega), getElem?_append_left (by omega)]
    · rw [if_neg earlier, if_neg (by omega)]

theorem load_store_apart (apart : place + len <= address \/ address + data.length <= place) :
    (memory.store address data).load place len = memory.load place len := by
  refine load_congr fun index inside => store_outside memory ?_
  omega

end Memory

/-- A part of a record by its offset. -/
theorem getD_part {front part rest : List Byte} (inside : index < part.length) :
    (front ++ (part ++ rest)).getD (front.length + index) 0 = part.getD index 0 := by
  rw [getD_eq_getElem?_getD, getD_eq_getElem?_getD, getElem?_append_right (Nat.le_add_right _ _),
    Nat.add_sub_cancel_left, getElem?_append_left inside]

/-! ## Numbers -/

/-- The number that bytes denote with the lowest first. -/
def littleEndian (bytes : List Byte) : Nat := bytes.foldr (fun byte rest => byte.toNat + 256 * rest) 0

theorem littleEndian_lt (bytes : List Byte) : littleEndian bytes < 256 ^ bytes.length := by
  induction bytes with
  | nil => exact Nat.one_pos
  | cons byte rest ih =>
    have small := byte.isLt
    have value : littleEndian (byte :: rest) = byte.toNat + 256 * littleEndian rest := rfl
    rw [value, length_cons, Nat.pow_succ]
    omega

def littleEndianBytes : Nat -> Nat -> List Byte
  | 0, _ => []
  | count + 1, value => BitVec.ofNat 8 value :: littleEndianBytes count (value / 256)

@[simp] theorem length_littleEndianBytes (count value : Nat) : (littleEndianBytes count value).length = count := by
  induction count generalizing value with
  | zero => rfl
  | succ count ih => rw [littleEndianBytes, length_cons, ih]

/-! ## Words -/

def bytesOfWord (word : BitVec 64) : List Byte :=
  (List.range 8).map fun index => BitVec.ofNat 8 (word.toNat / 256 ^ index)

def wordOfBytes (bytes : List Byte) : BitVec 64 :=
  BitVec.ofNat 64 (bytes.foldr (fun byte rest => byte.toNat + 256 * rest) 0)

@[simp] theorem length_bytesOfWord (word : BitVec 64) : (bytesOfWord word).length = 8 := by
  rw [bytesOfWord, length_map, length_range]

@[simp] theorem wordOfBytes_bytesOfWord (word : BitVec 64) : wordOfBytes (bytesOfWord word) = word := by
  apply BitVec.eq_of_toNat_eq
  have small := word.isLt
  simp only [wordOfBytes, bytesOfWord, BitVec.toNat_ofNat, range, range.loop, map_cons,
    map_nil, foldr_cons, foldr_nil]
  omega

namespace Memory

def loadWord (memory : Memory) (address : Nat) : BitVec 64 := wordOfBytes (memory.load address 8)

def storeWord (memory : Memory) (address : Nat) (word : BitVec 64) : Memory :=
  memory.store address (bytesOfWord word)

variable {word : BitVec 64}

theorem loadWord_of_load (same : memory.load address 8 = bytesOfWord word) : memory.loadWord address = word := by
  rw [loadWord, same, wordOfBytes_bytesOfWord]

theorem storeWord_outside (memory : Memory)
    (outside : ¬ (address <= place /\ place < address + 8)) : memory.storeWord address word place = memory place :=
  store_outside memory (by rwa [length_bytesOfWord])

theorem loadWord_storeWord_same (memory : Memory) (address : Nat) (word : BitVec 64) :
    (memory.storeWord address word).loadWord address = word := by
  refine loadWord_of_load ?_
  have loaded := load_store_same memory address (bytesOfWord word)
  rwa [length_bytesOfWord] at loaded

theorem loadWord_storeWord_apart (memory : Memory) (apart : place + 8 <= address \/ address + 8 <= place) :
    (memory.storeWord address word).loadWord place = memory.loadWord place := by
  rw [loadWord, loadWord, storeWord, load_store_apart]
  rwa [length_bytesOfWord]

end Memory

end GCore.Library
