import Mathlib.Data.List.Nodup

namespace GCore.Library

open List Function Option

/-!
# Forests with links in both directions

Nodes on a heap name their parent and list their children.  `Linked` says that
the two directions agree: a parent is on the heap and lists each of its children
once, and a listed child is on the heap and names its parent.  The operations
are the ones a process table needs: a node is born under a parent or as a root,
all children of a node move to another one, a node is detached from its parent,
and a root without children is freed.
-/

universe u

structure Node (Key : Type u) where
  parent : Option Key
  children : List Key

abbrev Forest (Key : Type u) := Key -> Option (Node Key)

variable {Key : Type u} [DecidableEq Key]

structure Linked (forest : Forest Key) : Prop where
  parent : ∀ {t node p}, forest t = some node -> node.parent = some p ->
    ∃ above, forest p = some above /\ above.children.count t = 1
  child : ∀ {p node c}, forest p = some node -> c ∈ node.children ->
    c ≠ p /\ ∃ below, forest c = some below /\ below.parent = some p

namespace Forest

/-- A new node without children. -/
def born (forest : Forest Key) (new : Key) (parent : Option Key) : Forest Key :=
  Function.update (fun x => (forest x).map fun node =>
    { node with children := if parent = some x then node.children ++ [new] else node.children })
    new (some ⟨parent, []⟩)

/-- The listed nodes become children of another node, which appends them to its list. -/
def give (forest : Forest Key) (heir : Key) (moved : List Key) : Forest Key :=
  fun x => (forest x).map fun node =>
    { parent := if x ∈ moved then some heir else node.parent
      children := if x = heir then node.children ++ moved else node.children }

/-- A node forgets its children. -/
def clear (forest : Forest Key) (t : Key) : Forest Key :=
  fun x => (forest x).map fun node => { node with children := if x = t then [] else node.children }

/-- A node becomes a root and leaves the list of its parent. -/
def detach (forest : Forest Key) (p t : Key) : Forest Key :=
  fun x => (forest x).map fun node =>
    { parent := if x = t then none else node.parent
      children := if x = p then node.children.filter (· ≠ t) else node.children }

def free (forest : Forest Key) (t : Key) : Forest Key := Function.update forest t none

theorem give_nil (forest : Forest Key) (heir : Key) : forest.give heir [] = forest := by
  funext x
  rw [give]
  cases forest x with
  | none => rfl
  | some node => simp

end Forest

namespace Linked

variable {forest : Forest Key} {p c t : Key} {node : Node Key} (linked : Linked forest)

include linked

variable (present : forest p = some node)

include present

theorem nodup : node.children.Nodup := by
  rw [nodup_iff_count_le_one]
  intro c
  by_cases member : c ∈ node.children
  · rcases linked.child present member with ⟨_, _, found, named⟩
    rcases linked.parent found named with ⟨_, same, once⟩
    rw [present] at same
    cases same
    exact Nat.le_of_eq once
  · rw [count_eq_zero_of_not_mem member]
    exact Nat.zero_le 1

theorem not_mem_of_missing (missing : forest c = none) : c ∉ node.children := by
  intro member
  rcases linked.child present member with ⟨_, _, found, _⟩
  rw [missing] at found
  cases found

theorem not_mem_of_root {root : Node Key} (found : forest c = some root) (orphan : root.parent = none) :
    c ∉ node.children := by
  intro member
  rcases linked.child present member with ⟨_, _, same, named⟩
  rw [found] at same
  cases same
  rw [orphan] at named
  cases named

/-- A child is listed by one parent only. -/
theorem parent_unique {q : Key} {other : Node Key} (member : c ∈ node.children) (found : forest q = some other)
    (listed : c ∈ other.children) : p = q := by
  rcases linked.child present member with ⟨_, _, same, named⟩
  rcases linked.child found listed with ⟨_, _, equal, also⟩
  rw [same] at equal
  cases equal
  rw [named] at also
  exact Option.some.inj also

omit present

theorem born {new : Key} (fresh : forest new = none) {parent : Option Key}
    (alive : ∀ p, parent = some p -> ∃ node, forest p = some node) :
    Linked (forest.born new parent) := by
  -- An old node keeps its parent; its list is longer by the new node if it is the parent.
  have old : ∀ {x node}, x ≠ new -> forest.born new parent x = some node ->
      ∃ before, forest x = some before /\ node.parent = before.parent /\
        node.children = if parent = some x then before.children ++ [new] else before.children := by
    intro x node other present
    rw [Forest.born, update_of_ne other] at present
    rcases map_eq_some_iff.mp present with ⟨before, found, rfl⟩
    exact ⟨before, found, rfl, rfl⟩
  have kept : ∀ {x before}, forest x = some before -> x ≠ new /\ forest.born new parent x =
      some { before with children := if parent = some x then before.children ++ [new] else before.children } := by
    intro x before found
    have other : x ≠ new := by
      intro same
      rw [same, fresh] at found
      cases found
    exact ⟨other, by rw [Forest.born, update_of_ne other, found]; rfl⟩
  have born : forest.born new parent new = some ⟨parent, []⟩ := update_self ..
  constructor
  · intro t node p present named
    by_cases isNew : t = new
    · subst isNew
      rw [born] at present
      cases present
      subst named
      rcases alive p rfl with ⟨above, found⟩
      refine ⟨_, (kept found).2, ?_⟩
      rw [if_pos rfl, count_append, count_eq_zero_of_not_mem (linked.not_mem_of_missing found fresh)]
      simp
    · rcases old isNew present with ⟨before, found, sameParent, _⟩
      rcases linked.parent found (sameParent ▸ named) with ⟨above, there, once⟩
      refine ⟨_, (kept there).2, ?_⟩
      have apart : count t [new] = 0 := count_eq_zero_of_not_mem fun member =>
        isNew (mem_singleton.mp member)
      split
      · rw [count_append, once, apart]
      · exact once
  · intro p node c present member
    by_cases isNew : p = new
    · subst isNew
      rw [born] at present
      cases present
      cases member
    · rcases old isNew present with ⟨before, found, _, children⟩
      rw [children] at member
      by_cases isParent : parent = some p
      · rw [if_pos isParent] at member
        rcases mem_append.mp member with listed | newest
        · rcases linked.child found listed with ⟨apart, below, there, named⟩
          exact ⟨apart, _, (kept there).2, named⟩
        · rw [mem_singleton.mp newest]
          exact ⟨fun same => isNew same.symm, _, born, isParent⟩
      · rw [if_neg isParent] at member
        rcases linked.child found member with ⟨apart, below, there, named⟩
        exact ⟨apart, _, (kept there).2, named⟩

theorem handOver {heir : Key} {root : Node Key} {moved : List Key}
    (present : forest t = some node) (found : forest heir = some root) (orphan : root.parent = none)
    (apart : heir ≠ t) (all : moved.Perm node.children) : Linked ((forest.give heir moved).clear t) := by
  have isMoved : ∀ {x}, x ∈ moved ↔ x ∈ node.children := all.mem_iff
  have after : ∀ x, (forest.give heir moved).clear t x = (forest x).map fun old =>
      { parent := if x ∈ moved then some heir else old.parent
        children := if x = t then [] else if x = heir then old.children ++ moved else old.children } := by
    intro x
    rw [Forest.clear, Forest.give, Option.map_map]
    rfl
  have heirKeeps : (forest.give heir moved).clear t heir =
      some ⟨root.parent, root.children ++ moved⟩ := by
    rw [after, found]
    have stays : heir ∉ moved := fun member =>
      linked.not_mem_of_root present found orphan (isMoved.mp member)
    simp [stays, apart]
  constructor
  · intro x new p there named
    rw [after] at there
    rcases map_eq_some_iff.mp there with ⟨old, before, rfl⟩
    by_cases goes : x ∈ moved
    · rw [if_pos goes] at named
      cases named
      refine ⟨_, heirKeeps, ?_⟩
      have absent : x ∉ root.children := fun member =>
        apart (linked.parent_unique found member present (isMoved.mp goes))
      rw [count_append, count_eq_zero_of_not_mem absent, all.count_eq x]
      have once := count_eq_one_of_mem (linked.nodup present) (isMoved.mp goes)
      rw [once]
    · rw [if_neg goes] at named
      rcases linked.parent before named with ⟨_, among, once⟩
      have notT : p ≠ t := by
        intro same
        rw [same, present] at among
        cases among
        exact goes (isMoved.mpr (count_pos_iff.mp (once ▸ Nat.one_pos)))
      refine ⟨_, by rw [after, among]; rfl, ?_⟩
      simp only [if_neg notT]
      split
      · rw [count_append, once, count_eq_zero_of_not_mem goes]
      · exact once
  · intro p new c there member
    rw [after] at there
    rcases map_eq_some_iff.mp there with ⟨old, before, rfl⟩
    by_cases own : p = t
    · rw [if_pos own] at member
      cases member
    · rw [if_neg own] at member
      -- A child that was listed before is not one of those that move.
      have stayed : c ∈ old.children -> c ≠ p /\ ∃ below,
          (forest.give heir moved).clear t c = some below /\ below.parent = some p := by
        intro listed
        rcases linked.child before listed with ⟨different, below, among, named⟩
        have stays : c ∉ moved := fun goes =>
          own (linked.parent_unique before listed present (isMoved.mp goes))
        exact ⟨different, _, by rw [after, among]; rfl, by simp only [if_neg stays]; exact named⟩
      by_cases toHeir : p = heir
      · rw [if_pos toHeir] at member
        rcases mem_append.mp member with listed | goes
        · exact stayed listed
        · rcases linked.child present (isMoved.mp goes) with ⟨_, below, among, _⟩
          refine ⟨?_, _, by rw [after, among]; rfl, by simp only [if_pos goes, toHeir]⟩
          intro same
          rw [toHeir] at same
          exact linked.not_mem_of_root present found orphan (same ▸ isMoved.mp goes)
      · rw [if_neg toHeir] at member
        exact stayed member

theorem detach (present : forest t = some node) (named : node.parent = some p) : Linked (forest.detach p t) := by
  constructor
  · intro x new q there parent
    rw [Forest.detach] at there
    rcases map_eq_some_iff.mp there with ⟨old, before, rfl⟩
    by_cases own : x = t
    · rw [if_pos own] at parent
      cases parent
    · rw [if_neg own] at parent
      rcases linked.parent before parent with ⟨_, among, once⟩
      refine ⟨_, by rw [Forest.detach, among]; rfl, ?_⟩
      dsimp only
      split
      · rw [count_filter (by simpa using own)]
        exact once
      · exact once
  · intro q new c there member
    rw [Forest.detach] at there
    rcases map_eq_some_iff.mp there with ⟨old, before, rfl⟩
    have listed : c ∈ old.children /\ c ≠ t := by
      dsimp only at member
      by_cases own : q = p
      · rw [if_pos own] at member
        simpa using mem_filter.mp member
      · rw [if_neg own] at member
        refine ⟨member, fun same => own ?_⟩
        rcases linked.child before member with ⟨_, below, among, other⟩
        rw [same, present] at among
        cases among
        rw [named] at other
        exact (Option.some.inj other).symm
    rcases linked.child before listed.1 with ⟨different, below, among, other⟩
    exact ⟨different, _, by rw [Forest.detach, among]; rfl, by simp only [if_neg listed.2]; exact other⟩

theorem free (present : forest t = some node)
    (orphan : node.parent = none) (childless : node.children = []) : Linked (forest.free t) := by
  have others : ∀ {x other}, forest.free t x = some other -> x ≠ t /\ forest x = some other := by
    intro x other there
    by_cases own : x = t
    · rw [own, Forest.free, update_self] at there
      cases there
    · rw [Forest.free, update_of_ne own] at there
      exact ⟨own, there⟩
  have stays : ∀ {x other}, forest x = some other -> x ≠ t -> forest.free t x = some other := by
    intro x other before different
    rw [Forest.free, update_of_ne different]
    exact before
  constructor
  · intro x other p there named
    rcases others there with ⟨_, before⟩
    rcases linked.parent before named with ⟨above, among, once⟩
    refine ⟨above, stays among ?_, once⟩
    intro same
    rw [same, present] at among
    cases among
    rw [childless] at once
    cases once
  · intro p other c there member
    rcases others there with ⟨_, before⟩
    rcases linked.child before member with ⟨different, below, among, named⟩
    refine ⟨different, below, stays among ?_, named⟩
    intro same
    exact linked.not_mem_of_root before present orphan (same ▸ member)

end Linked

end GCore.Library
