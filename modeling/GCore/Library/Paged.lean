import GCore.Library.Bytes

namespace GCore.Library

/-!
# Bytes in pages

A long row of bytes is kept in pages of one size.  It is read and written page by page: a
round of the loop goes to the end of the page or to the end of the range.  Both loops do
what a load and a store do to the row as a whole.
-/

namespace Paged

variable (pageSize : Nat)

/-- The row of bytes that the pages are made of. -/
def flat (pages : Nat -> Memory) : Memory := fun place => pages (place / pageSize) (place % pageSize)

/-- The end of the page that a place is in, or of the range. -/
def pageEnd (stop place : Nat) : Nat := min ((place / pageSize + 1) * pageSize) stop

def readPages (pages : Nat -> Memory) (stop : Nat) : Nat -> Nat -> Nat -> List Byte
  | 0, _, _ => []
  | rounds + 1, start, page =>
    let last := pageEnd pageSize stop start
    let piece := (pages page).load (start % pageSize) (last - start)
    if last = stop then piece else piece ++ readPages pages stop rounds last (page + 1)

variable {pageSize : Nat} {pages : Nat -> Memory} {stop start : Nat}

theorem pageEnd_bounds (positive : 0 < pageSize) (below : start < stop) :
    start < pageEnd pageSize stop start /\ pageEnd pageSize stop start <= stop /\
      pageEnd pageSize stop start <= (start / pageSize + 1) * pageSize := by
  have behind := Nat.lt_mul_div_succ start positive
  rw [Nat.mul_comm] at behind
  exact ⟨Nat.lt_min.mpr ⟨behind, below⟩, Nat.min_le_right _ _, Nat.min_le_left _ _⟩

/-- Where the range goes on, the next page begins. -/
theorem pageEnd_div (positive : 0 < pageSize) (more : pageEnd pageSize stop start ≠ stop) :
    pageEnd pageSize stop start / pageSize = start / pageSize + 1 := by
  unfold pageEnd at more ⊢
  rcases le_total ((start / pageSize + 1) * pageSize) stop with within | beyond
  · rw [Nat.min_eq_left within, Nat.mul_div_cancel _ positive]
  · exact absurd (Nat.min_eq_right beyond) more

/-- Places of one page. -/
theorem flat_page {index : Nat} (inside : start + index < (start / pageSize + 1) * pageSize) :
    flat pageSize pages (start + index) = pages (start / pageSize) (start % pageSize + index) := by
  have split := Nat.div_add_mod start pageSize
  rw [Nat.add_mul, Nat.one_mul, Nat.mul_comm] at inside
  have small : start % pageSize + index < pageSize := by omega
  have place : start + index = start % pageSize + index + pageSize * (start / pageSize) := by omega
  unfold flat
  rw [place, Nat.add_mul_div_left _ _ (by omega), Nat.div_eq_of_lt small, Nat.zero_add, Nat.add_mul_mod_self_left,
    Nat.mod_eq_of_lt small]

theorem load_page (last : Nat) (inside : last <= (start / pageSize + 1) * pageSize) :
    (pages (start / pageSize)).load (start % pageSize) (last - start) = (flat pageSize pages).load start (last - start) := by
  unfold Memory.load
  apply List.map_congr_left
  intro index member
  have below := List.mem_range.mp member
  exact (flat_page (by omega)).symm

/-- Reading page by page is one load. -/
theorem readPages_eq (positive : 0 < pageSize) (below : start < stop) {rounds : Nat} (enough : stop - start <= rounds) :
    readPages pageSize pages stop rounds start (start / pageSize) = (flat pageSize pages).load start (stop - start) := by
  induction rounds generalizing start with
  | zero => omega
  | succ rounds ih =>
    have bounds := pageEnd_bounds positive below
    rw [readPages, load_page _ bounds.2.2]
    by_cases finished : pageEnd pageSize stop start = stop
    · rw [if_pos finished, finished]
    · have more : pageEnd pageSize stop start < stop := by omega
      rw [if_neg finished, <- pageEnd_div positive finished, ih more (by omega)]
      have parts : stop - start = (pageEnd pageSize stop start - start) + (stop - pageEnd pageSize stop start) := by omega
      rw [parts, Memory.load_add, Nat.add_sub_cancel' bounds.1.le]

/-! ## Loops over pages -/

section Loop

variable {State : Type _} (visit : Nat -> Nat -> Nat -> State -> Option State)

/-- The loop over the pages of a range, with the page, the place and the length for each round.
The length of the last round may be zero. -/
def walkPages (pageSize stop : Nat) : Nat -> Nat -> Nat -> State -> Option State
  | 0, _, _, state => some state
  | rounds + 1, start, page, state =>
    let last := pageEnd pageSize stop start
    (visit page start (last - start) state).bind (fun state =>
      if last = stop then some state else walkPages pageSize stop rounds last (page + 1) state)

/-- What a round takes from one place to the end of its page holds at the end of the range. -/
theorem walkPages_invariant {visit : Nat -> Nat -> Nat -> State -> Option State} {holds : Nat -> State -> Prop}
    (positive : 0 < pageSize) (below : start <= stop) {rounds : Nat} (enough : stop - start < rounds) {state : State}
    (initial : holds start state) (step : ∀ place len state, start <= place -> place + len <= stop ->
      place + len <= (place / pageSize + 1) * pageSize -> holds place state ->
      ∃ after, visit (place / pageSize) place len state = some after /\ holds (place + len) after) :
    ∃ after,
      walkPages visit pageSize stop rounds start (start / pageSize) state = some after /\ holds stop after := by
  induction rounds generalizing start state with
  | zero => omega
  | succ rounds ih =>
    have behind := Nat.lt_mul_div_succ start positive
    rw [Nat.mul_comm] at behind
    have bounds : start <= pageEnd pageSize stop start /\ pageEnd pageSize stop start <= stop /\
        pageEnd pageSize stop start <= (start / pageSize + 1) * pageSize :=
      ⟨Nat.le_min.mpr ⟨behind.le, below⟩, Nat.min_le_right _ _, Nat.min_le_left _ _⟩
    have reach : start + (pageEnd pageSize stop start - start) = pageEnd pageSize stop start :=
      Nat.add_sub_cancel' bounds.1
    have round := step start (pageEnd pageSize stop start - start) state le_rfl
      ((le_of_eq reach).trans bounds.2.1) ((le_of_eq reach).trans bounds.2.2) initial
    rcases round with ⟨middle, visited, held⟩
    rw [reach] at held
    rw [walkPages, visited, Option.bind_some]
    by_cases finished : pageEnd pageSize stop start = stop
    · rw [finished] at held
      rw [if_pos finished]
      exact ⟨middle, rfl, held⟩
    · have more : start < pageEnd pageSize stop start := by
        have ahead : start < stop := by omega
        exact (pageEnd_bounds positive ahead).1
      rw [if_neg finished, <- pageEnd_div positive finished]
      refine ih bounds.2.1 (by omega) held ?_
      intro place len state later
      exact step place len state (bounds.1.trans later)

end Loop

end Paged

end GCore.Library
