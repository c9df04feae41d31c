import Mathlib.Tactic.Common

namespace GCore.Library

/-!
# Bisection

A search in the stretch of numbers from `low` to `high` for the end of a first part.  It
halves the stretch in each round, with the test for the first part at the middle.
-/

/-- A number that fails the test at 0 ends the search, since nothing is left of it. -/
def bisect (first : Nat -> Bool) : Nat -> Nat -> Nat -> Nat
  | 0, low, _ => low
  | fuel + 1, low, high =>
    if low <= high then
      if first (low + (high - low) / 2) then bisect first fuel (low + (high - low) / 2 + 1) high
      else if low + (high - low) / 2 = 0 then low
      else bisect first fuel low (low + (high - low) / 2 - 1)
    else low

variable {first : Nat -> Bool}

/-- The result lies in the stretch or right behind it, whatever the test is. -/
theorem bisect_bounds (fuel low high : Nat) (start : low <= high + 1) :
    low <= bisect first fuel low high /\ bisect first fuel low high <= high + 1 := by
  induction fuel generalizing low high with
  | zero => exact ⟨Nat.le_refl low, start⟩
  | succ fuel ih =>
    rw [bisect]
    split
    · split
      · have right := ih (low + (high - low) / 2 + 1) high (by omega)
        omega
      · split
        · omega
        · have left := ih low (low + (high - low) / 2 - 1) (by omega)
          omega
    · omega

/-- Only the stretch is looked at. -/
theorem bisect_congr {second : Nat -> Bool} (fuel low high : Nat)
    (same : ∀ index, low <= index -> index <= high -> first index = second index) :
    bisect first fuel low high = bisect second fuel low high := by
  induction fuel generalizing low high with
  | zero => rfl
  | succ fuel ih =>
    rw [bisect, bisect]
    by_cases more : low <= high
    · rw [if_pos more, if_pos more, same (low + (high - low) / 2) (by omega) (by omega),
        ih (low + (high - low) / 2 + 1) high (fun index above below => same index (by omega) below),
        ih low (low + (high - low) / 2 - 1) (fun index above below => same index above (by omega))]
    · rw [if_neg more, if_neg more]

/-- If the numbers with the test are a first part of the stretch, then the result is the
first number behind them. -/
theorem bisect_spec (fuel low high : Nat) (enough : high + 1 <= low + fuel)
    (initial : ∀ index other, low <= index -> index <= other -> other <= high -> first other = true ->
      first index = true) :
    (∀ index, low <= index -> index < bisect first fuel low high -> first index = true) /\
      ∀ index, bisect first fuel low high <= index -> index <= high -> first index = false := by
  induction fuel generalizing low high with
  | zero =>
    rw [bisect]
    constructor
    · intro index above below
      omega
    · intro index above below
      omega
  | succ fuel ih =>
    rw [bisect]
    by_cases more : low <= high
    · rw [if_pos more]
      generalize middle_eq : low + (high - low) / 2 = middle
      by_cases passed : first middle = true
      · rw [if_pos passed]
        have right := ih (middle + 1) high (by omega) (fun index other above => initial index other (by omega))
        refine ⟨?_, right.2⟩
        intro index above below
        by_cases earlier : index <= middle
        · exact initial index middle above earlier (by omega) passed
        · exact right.1 index (by omega) below
      · -- nothing from the middle on is in the first part
        have behind : ∀ index, middle <= index -> index <= high -> first index = false := by
          intro index above below
          apply Bool.eq_false_iff.mpr
          intro holds
          exact passed (initial middle index (by omega) above below holds)
        rw [if_neg passed]
        by_cases zero : middle = 0
        · rw [if_pos zero]
          constructor
          · intro index above below
            omega
          · intro index above below
            exact behind index (by omega) below
        · rw [if_neg zero]
          have left := ih low (middle - 1) (by omega) (fun index other above ordered below =>
            initial index other above ordered (by omega))
          refine ⟨left.1, ?_⟩
          intro index above below
          by_cases earlier : index <= middle - 1
          · exact left.2 index above earlier
          · exact behind index (by omega) below
    · rw [if_neg more]
      constructor
      · intro index above below
        omega
      · intro index above below
        omega

/-- What is known of both sides determines the result. -/
theorem bisect_eq {fuel low high result : Nat} (enough : high + 1 <= low + fuel) (start : low <= high + 1)
    (initial : ∀ index other, low <= index -> index <= other -> other <= high -> first other = true ->
      first index = true)
    (above : low <= result) (below : result <= high + 1) (before : low < result -> first (result - 1) = true)
    (behind : result <= high -> first result = false) : bisect first fuel low high = result := by
  have bounds := @bisect_bounds first fuel low high start
  have sides := bisect_spec fuel low high enough initial
  rcases Nat.lt_trichotomy (bisect first fuel low high) result with less | equal | greater
  · have failed := sides.2 (result - 1) (by omega) (by omega)
    rw [before (by omega)] at failed
    cases failed
  · exact equal
  · have passed := sides.1 result above greater
    rw [behind (by omega)] at passed
    cases passed

end GCore.Library
