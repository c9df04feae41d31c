import Mathlib.Order.Interval.Finset.Nat

namespace GCore.Library

open List BitVec Finset

/-!
# Bits in bytes, and counting what is vacant

A map of things that are used or vacant is kept as bits, eight to a byte.  The first
part says what single bits of the bytes are.  The second part forgets the bytes: for a
predicate on numbers it counts the vacant numbers below a bound and says what a search
for a vacant number has to return.
-/

/-! ## Bits -/

def bit (bytes : List (BitVec 8)) (index : Nat) : Bool := (bytes.getD (index / 8) 0).getLsbD (index % 8)

/-- The byte that has one bit. -/
def mask (index : Nat) : BitVec 8 := twoPow 8 (index % 8)

def putBit (bytes : List (BitVec 8)) (index : Nat) (value : Bool) : List (BitVec 8) :=
  bytes.modify (index / 8) (fun byte => if value then byte ||| mask index else byte &&& ~~~ mask index)

variable {bytes : List (BitVec 8)} {index other : Nat}

@[simp]
theorem length_putBit (bytes : List (BitVec 8)) (index : Nat) (value : Bool) :
    (putBit bytes index value).length = bytes.length :=
  length_modify _ _ _

theorem bit_eq_of_getElem {byte : BitVec 8} (found : bytes[index / 8]? = some byte) :
    bit bytes index = byte.getLsbD (index % 8) := by
  rw [bit, getD_eq_getElem?_getD, found, Option.getD_some]

/-- Bits of the same byte differ by their place in it. -/
theorem getLsbD_mask (byte : BitVec 8) (same : other / 8 = index / 8) :
    (byte ||| mask index).getLsbD (other % 8) = (decide (other = index) || byte.getLsbD (other % 8)) /\
      (byte &&& ~~~ mask index).getLsbD (other % 8) = (!decide (other = index) && byte.getLsbD (other % 8)) := by
  have place : (other % 8 = index % 8) ↔ other = index := by omega
  have below : other % 8 < 8 := Nat.mod_lt _ (by decide)
  have masked : (mask index).getLsbD (other % 8) = decide (other = index) := by
    rw [mask, getLsbD_twoPow, decide_eq_true (Nat.mod_lt index (by decide : 0 < 8)), Bool.true_and]
    exact decide_eq_decide.mpr (eq_comm.trans place)
  rw [getLsbD_or, getLsbD_and, getLsbD_not, masked]
  simp [below, Bool.or_comm, Bool.and_comm]

theorem bit_putBit (inside : index / 8 < bytes.length) (value : Bool) :
    bit (putBit bytes index value) other = if other = index then value else bit bytes other := by
  have present : bytes[index / 8]? = some bytes[index / 8] := getElem?_eq_getElem inside
  by_cases same : other / 8 = index / 8
  · have changed : (putBit bytes index value)[other / 8]? = some
        (if value then bytes[index / 8] ||| mask index else bytes[index / 8] &&& ~~~ mask index) := by
      rw [putBit, same, getElem?_modify_eq, present]
      rfl
    have masks := getLsbD_mask bytes[index / 8] same
    have before : bit bytes other = bytes[index / 8].getLsbD (other % 8) := bit_eq_of_getElem (by rw [same, present])
    rw [bit_eq_of_getElem changed, before]
    cases value with
    | true =>
      rw [if_pos rfl, masks.1]
      by_cases equal : other = index <;> simp [equal]
    | false =>
      rw [if_neg Bool.false_ne_true, masks.2]
      by_cases equal : other = index <;> simp [equal]
  · have apart : other ≠ index := fun equal => same (congrArg (· / 8) equal)
    rw [if_neg apart, bit, bit, getD_eq_getElem?_getD, getD_eq_getElem?_getD, putBit,
      getElem?_modify_ne _ _ (Ne.symm same)]

/-! ## Vacant numbers -/

/-- How many numbers below a bound are vacant. -/
def vacancies (used : Nat -> Bool) (bound : Nat) : Nat :=
  ((Finset.range bound).filter (fun index => used index = false)).card

variable {used after : Nat -> Bool} {bound low high : Nat}

theorem vacancies_le (used : Nat -> Bool) (bound : Nat) : vacancies used bound <= bound := by
  have few := card_filter_le (Finset.range bound) (fun index => used index = false)
  rwa [card_range] at few

theorem vacancies_eq_zero_iff : vacancies used bound = 0 ↔ ∀ index < bound, used index = true := by
  unfold vacancies
  rw [card_eq_zero, filter_eq_empty_iff]
  constructor
  · intro none_vacant index below
    exact Bool.eq_true_of_not_eq_false (none_vacant (Finset.mem_range.mpr below))
  · intro all index member vacant
    rw [all index (Finset.mem_range.mp member)] at vacant
    cases vacant

/-- A stretch of used numbers becomes vacant. -/
theorem vacancies_release {count : Nat} (inside : low + count <= bound)
    (taken : ∀ index, low <= index -> index < low + count -> used index = true) (released : ∀ index < bound,
      after index = (used index && !decide (low <= index /\ index < low + count))) :
    vacancies after bound = vacancies used bound + count := by
  have whole : (Finset.range bound).filter (fun index => after index = false) =
      (Finset.range bound).filter (fun index => used index = false) ∪ Finset.Ico low (low + count) := by
    ext index
    rw [mem_union, Finset.mem_filter, Finset.mem_filter, mem_Ico, Finset.mem_range]
    constructor
    · rintro ⟨below, vacant⟩
      rw [released index below, Bool.and_eq_false_iff] at vacant
      rcases vacant with before | within
      · exact .inl ⟨below, before⟩
      · exact .inr (by simpa using within)
    · rintro (⟨below, vacant⟩ | within)
      · exact ⟨below, by rw [released index below, vacant, Bool.false_and]⟩
      · have below : index < bound := by omega
        exact ⟨below, by simp [released index below, within]⟩
  have apart : Disjoint ((Finset.range bound).filter (fun index => used index = false))
      (Finset.Ico low (low + count)) := by
    rw [Finset.disjoint_left]
    intro index vacant within
    rw [mem_Ico] at within
    rw [Finset.mem_filter, taken index within.1 within.2] at vacant
    cases vacant.2
  unfold vacancies
  rw [whole, card_union_of_disjoint apart, Nat.card_Ico]
  omega

/-- One vacant number becomes used. -/
theorem vacancies_take (below : index < bound) (vacant : used index = false)
    (taken : ∀ other < bound, after other = if other = index then true else used other) :
    vacancies used bound = vacancies after bound + 1 := by
  apply @vacancies_release after used bound index 1 (by omega)
  · intro other above within
    rw [taken other (by omega), if_pos (by omega)]
  · intro other inside
    rw [taken other inside]
    by_cases same : other = index
    · subst same
      simp [vacant]
    · have outside : ¬ (index <= other /\ other < index + 1) := by omega
      rw [if_neg same, decide_eq_false outside, Bool.not_false, Bool.and_true]

/-- What a search for the first vacant number of a stretch returns. -/
def FirstVacant (used : Nat -> Bool) (low high : Nat) : Option Nat -> Prop
  | none => ∀ index, low <= index -> index < high -> used index = true
  | some found => low <= found /\ found < high /\ used found = false /\
      ∀ index, low <= index -> index < found -> used index = true

theorem FirstVacant.empty (used : Nat -> Bool) (bound : Nat) : FirstVacant used bound bound none := by
  intro index above below
  omega

/-- A stretch without a vacant number may be put in front. -/
theorem FirstVacant.prepend {middle : Nat} {result : Option Nat} (ordered : low <= middle)
    (taken : ∀ index, low <= index -> index < middle -> used index = true)
    (rest : FirstVacant used middle high result) : FirstVacant used low high result := by
  cases result with
  | none =>
    intro index above below
    by_cases first : index < middle
    · exact taken index above first
    · exact rest index (not_lt.mp first) below
  | some found =>
    rcases rest with ⟨above, below, vacant, before⟩
    refine ⟨ordered.trans above, below, vacant, ?_⟩
    intro index start finish
    by_cases first : index < middle
    · exact taken index start first
    · exact before index (not_lt.mp first) finish

/-- What was found in a stretch is found in a longer one. -/
theorem FirstVacant.extend {middle found : Nat} (part : FirstVacant used low middle (some found))
    (ordered : middle <= high) : FirstVacant used low high (some found) :=
  ⟨part.1, part.2.1.trans_le ordered, part.2.2⟩

end GCore.Library
