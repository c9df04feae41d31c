import Mathlib.Data.List.Range

namespace GCore.Library

open List

/-!
# Windows of a circular array

A circular array of `size` cells is a function on positions.  The window of
`count` cells from `head` lists the cells in the order in which a reader that
wraps around at `size` meets them.  The laws below are what a ring buffer needs:
a window splits at any point, and writing a block just behind a window appends
the block to it.
-/

universe u

variable {Value : Type u}

/-- The `count` cells met from `head` on, wrapping around at `size`. -/
def window (cells : Nat -> Value) (size head count : Nat) : List Value :=
  (List.range count).map (fun offset => cells ((head + offset) % size))

@[simp] theorem length_window (cells : Nat -> Value) (size head count : Nat) :
    (window cells size head count).length = count := by
  simp [window]

/-- A window splits at any point of it. -/
theorem window_add (cells : Nat -> Value) (size head first second : Nat) :
    window cells size head (first + second) =
      window cells size head first ++ window cells size ((head + first) % size) second := by
  simp only [window, range_add, map_append, map_map]
  refine congrArg _ (map_congr_left ?_)
  intro offset _
  simp only [Function.comp, Nat.mod_add_mod, Nat.add_assoc]

/-- A window that does not reach the end of the array is a plain block. -/
theorem window_of_fits (cells : Nat -> Value) {size head count : Nat} (fits : head + count <= size) :
    window cells size head count = (List.range count).map (fun offset => cells (head + offset)) := by
  refine map_congr_left ?_
  intro offset member
  have inside := mem_range.mp member
  rw [Nat.mod_eq_of_lt (by omega)]

/-- Two offsets less than one revolution apart denote different cells. -/
theorem circular_ne {size head low high : Nat} (below : low < high) (close : high - low < size) :
    (head + low) % size ≠ (head + high) % size := by
  intro equal
  have zero := Nat.sub_mod_eq_zero_of_mod_eq equal.symm
  rw [Nat.add_sub_add_left, Nat.mod_eq_of_lt close] at zero
  omega

/-- Replace the block of cells from `start` on by `block`. -/
def overwrite (cells : Nat -> Value) (start : Nat) (block : List Value) : Nat -> Value :=
  fun position =>
    if start <= position then (block[position - start]?).getD (cells position) else cells position

variable (cells : Nat -> Value)

include cells

theorem overwrite_block (block : List Value) (start : Nat) :
    (List.range block.length).map (fun offset => overwrite cells start block (start + offset)) = block := by
  apply ext_getElem
  · simp
  · intro offset _ inside
    simp [overwrite, inside]

/-- Writing a block right behind a window, without passing the end of the array
and without meeting the head, appends the block to the window. -/
theorem window_overwrite {size head count start : Nat} {block : List Value}
    (behind : start = (head + count) % size) (fits : start + block.length <= size)
    (room : count + block.length <= size) :
    window (overwrite cells start block) size head (count + block.length) =
      window cells size head count ++ block := by
  rw [window_add, <- behind]
  congr 1
  · refine map_congr_left fun offset member => ?_
    have inside := mem_range.mp member
    rcases lt_or_ge ((head + offset) % size) start with below | above
    · rw [overwrite, if_neg (not_le.mpr below)]
    · rcases lt_or_ge ((head + offset) % size) (start + block.length) with clash | beyond
      · -- The two positions would lie less than one revolution apart.
        have gap : (head + offset) % size - start < block.length := by omega
        have same : (head + (count + ((head + offset) % size - start))) % size = (head + offset) % size := by
          rw [<- Nat.add_assoc, <- Nat.mod_add_mod, <- behind, Nat.add_sub_cancel' above,
            Nat.mod_eq_of_lt (by omega)]
        cases circular_ne (by omega) (by omega) same.symm
      · rw [overwrite, if_pos above, getElem?_eq_none (by omega), Option.getD_none]
  · rw [window_of_fits _ fits, overwrite_block]

end GCore.Library
