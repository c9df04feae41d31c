import Mathlib.Logic.Function.Basic

namespace GCore.Library

open Function

/-!
# Places that share cells

Places refer to cells, a cell has a content, and a place shows the content of the cells
it refers to.  Some places may also write to a cell.  As long as a cell that may be
written is referred to by one place only, a write is seen at that place and nowhere
else.  This is what copy on write is about, and it has two parts: `Exclusive` says who
may write, and `Views` relates the contents to what the places show.

Each part comes with a rule for moving one place to another cell, and with one for
cloning places.
-/

universe u v w

variable {Place : Type u} {Cell : Type v} {Content : Type w}

/-- A cell that a place may write is referred to by no other place. -/
def Exclusive (writes refers : Place -> Cell -> Prop) : Prop :=
  ∀ place cell, writes place cell -> ∀ other, refers other cell -> other = place

/-- Places show the contents of the cells they refer to. -/
def Views (refers : Place -> Cell -> Prop) (content : Cell -> Content) (view : Place -> Content) : Prop :=
  ∀ place cell, refers place cell -> content cell = view place

variable {writes refers nextWrites nextRefers : Place -> Cell -> Prop} {place : Place} {cell : Cell}

namespace Exclusive

/-- Giving up references and permissions does no harm. -/
theorem mono (exclusive : Exclusive writes refers)
    (fewerWrites : ∀ place cell, nextWrites place cell -> writes place cell)
    (fewerRefers : ∀ place cell, nextRefers place cell -> refers place cell) :
    Exclusive nextWrites nextRefers := by
  intro place cell writing other referring
  exact exclusive place cell (fewerWrites place cell writing) other (fewerRefers other cell referring)

/-- One place turns to another cell.  Nobody else may write that cell, and if the place
may write it then nobody else refers to it. -/
theorem move (exclusive : Exclusive writes refers) (writesStep : ∀ other target, nextWrites other target ->
      (other = place /\ target = cell) \/ writes other target)
    (refersStep : ∀ other target, nextRefers other target ->
      (other = place /\ target = cell) \/ refers other target)
    (unwritten : ∀ other, writes other cell -> other = place)
    (sole : nextWrites place cell -> ∀ other, refers other cell -> other = place) :
    Exclusive nextWrites nextRefers := by
  intro writer target writing other referring
  rcases writesStep writer target writing with ⟨rfl, rfl⟩ | before
  · rcases refersStep other target referring with ⟨rfl, _⟩ | old
    · rfl
    · exact sole writing other old
  · rcases refersStep other target referring with ⟨rfl, rfl⟩ | old
    · exact (unwritten writer before).symm
    · exact exclusive writer target before other old

/-- Places are cloned: a cell that gets another reference is not written any more by the
place that had one.  Other new references are to cells that nobody referred to. -/
theorem clone (new : Place -> Cell -> Prop) (exclusive : Exclusive writes refers)
    (backed : ∀ place cell, writes place cell -> refers place cell)
    (fresh : ∀ place cell, new place cell -> ∀ other, ¬ refers other cell)
    (single : ∀ place cell, new place cell -> ∀ other, new other cell -> other = place)
    (writesStep : ∀ place cell, nextWrites place cell -> new place cell \/ writes place cell)
    (refersStep : ∀ place cell, nextRefers place cell ->
      new place cell \/ refers place cell \/ ∃ source, refers source cell /\ ¬ nextWrites source cell) :
    Exclusive nextWrites nextRefers := by
  intro writer cell writing other referring
  rcases writesStep writer cell writing with made | before
  · rcases refersStep other cell referring with also | old | ⟨source, old, _⟩
    · exact single writer cell made other also
    · cases fresh writer cell made other old
    · cases fresh writer cell made source old
  · rcases refersStep other cell referring with made | old | ⟨source, old, revoked⟩
    · cases fresh other cell made writer (backed writer cell before)
    · exact exclusive writer cell before other old
    · have same := exclusive writer cell before source old
      cases revoked (same ▸ writing)

end Exclusive

namespace Views

variable {content nextContent : Cell -> Content} {view : Place -> Content} (views : Views refers content view)

include views

/-- A write to a cell that one place alone refers to is seen at that place alone. -/
theorem write [DecidableEq Place] [DecidableEq Cell]
    (referring : refers place cell) (sole : ∀ other, refers other cell -> other = place)
    (single : ∀ other, refers place other -> other = cell) (new : Content) :
    Views refers (Function.update content cell new) (Function.update view place new) := by
  intro other target refersTo
  by_cases same : target = cell
  · subst same
    have here := sole other refersTo
    rw [here, update_self, update_self]
  · have elsewhere : other ≠ place := by
      rintro rfl
      exact same (single target refersTo)
    rw [update_of_ne same, update_of_ne elsewhere]
    exact views other target refersTo

/-- One place turns to a cell with the content that it shows. -/
theorem move (refersStep : ∀ other target, nextRefers other target ->
      (other = place /\ target = cell) \/ refers other target)
    (kept : ∀ other target, nextRefers other target -> refers other target ->
      nextContent target = content target)
    (filled : nextRefers place cell -> nextContent cell = view place) : Views nextRefers nextContent view := by
  intro other target referring
  rcases refersStep other target referring with ⟨rfl, rfl⟩ | old
  · exact filled referring
  · rw [kept other target referring old]
    exact views other target old

/-- Places that refer to what some source refers to show what the source shows. -/
theorem clone {nextView : Place -> Content} (refersStep : ∀ place cell, nextRefers place cell ->
      ∃ source, refers source cell /\ nextView place = view source)
    (kept : ∀ place cell, refers place cell -> nextContent cell = content cell) :
    Views nextRefers nextContent nextView := by
  intro place cell referring
  rcases refersStep place cell referring with ⟨source, old, same⟩
  rw [same, kept source cell old]
  exact views source cell old

end Views

end GCore.Library
