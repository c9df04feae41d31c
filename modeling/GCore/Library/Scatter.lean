import Mathlib.Logic.Function.Basic

namespace GCore.Library

open List Function

/-!
# Values at scattered places

Values are put at a list of places, one at each.  A memory is any function of the
places.  What is read back is what was put there if no place is listed twice.
-/

variable {Place Value : Type} [DecidableEq Place]

def scatter : List Place -> List Value -> (Place -> Value) -> Place -> Value
  | place :: places, value :: values, memory => scatter places values (update memory place value)
  | _, _, memory => memory

variable {places first : List Place} {values : List Value} {memory : Place -> Value} {place : Place}

theorem scatter_of_not_mem (apart : place ∉ places) : scatter places values memory place = memory place := by
  induction places generalizing values memory with
  | nil => rfl
  | cons target places ih =>
    rw [mem_cons, not_or] at apart
    cases values with
    | nil => rfl
    | cons value values => rw [scatter, ih apart.2, update_of_ne apart.1]

theorem scatter_mem (fits : places.length <= values.length) (member : place ∈ places) :
    scatter places values memory place ∈ values := by
  induction places generalizing values memory with
  | nil => cases member
  | cons target places ih =>
    cases values with
    | nil => cases fits
    | cons value values =>
      rw [scatter]
      by_cases again : place ∈ places
      · exact mem_cons_of_mem value (ih (Nat.le_of_succ_le_succ fits) again)
      · have here := (mem_cons.mp member).resolve_right again
        rw [scatter_of_not_mem again, here, update_self]
        exact mem_cons_self

theorem map_scatter (distinct : places.Nodup) (fits : places.length = values.length) :
    places.map (scatter places values memory) = values := by
  induction places generalizing values memory with
  | nil => simpa using fits.symm
  | cons target places ih =>
    rcases nodup_cons.mp distinct with ⟨apart, rest⟩
    cases values with
    | nil => cases fits
    | cons value values =>
      rw [map_cons, scatter, ih rest (Nat.succ.inj fits), scatter_of_not_mem apart, update_self]

/-- Places beyond the values are left alone. -/
theorem scatter_take (values : List Value) (places : List Place) (memory : Place -> Value) :
    scatter (places.take values.length) values memory = scatter places values memory := by
  induction values generalizing places memory with
  | nil => cases places <;> rfl
  | cons value values ih =>
    cases places with
    | nil => rfl
    | cons target places => exact ih places (update memory target value)

theorem scatter_append (fits : first.length <= values.length) : scatter (first ++ places) values memory =
    scatter places (values.drop first.length) (scatter first (values.take first.length) memory) := by
  induction first generalizing values memory with
  | nil => rfl
  | cons target first ih =>
    cases values with
    | nil => cases fits
    | cons value values => exact ih (Nat.le_of_succ_le_succ fits)

/-- Values may be put in another form before or after. -/
theorem scatter_map {Other : Type} (form : Value -> Other) (places : List Place) (values : List Value)
    (memory : Place -> Value) : scatter places (values.map form) (form ∘ memory) = form ∘ scatter places values memory := by
  induction places generalizing values memory with
  | nil => rfl
  | cons target places ih =>
    cases values with
    | nil => rfl
    | cons value values => rw [map_cons, scatter, scatter, <- comp_update, ih]

end GCore.Library
