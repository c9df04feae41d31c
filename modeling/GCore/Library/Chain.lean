import Mathlib.Data.List.Chain

namespace GCore.Library

open List

/-!
# Chains threaded through a successor table

A table gives every node a successor, and some successor values are marks that
stop a walk.  A list of nodes is threaded when a walk from its first node meets
exactly these nodes in order and then stops.  The rules below say how a chain is
cut and extended by changing the successor of a single node.
-/

universe u

variable {Node : Type u}

/-- The table links the nodes in order and gives the last one an end mark. -/
structure Threads (next : Node -> Node) (marks : Node -> Prop) (nodes : List Node) : Prop where
  linked : nodes.IsChain (fun node following => next node = following)
  ends : ∀ node ∈ nodes.getLast?, marks (next node)

variable {next : Node -> Node} {nodes : List Node} {node : Node} {stops : Node -> Prop}

/-- Only the successors of the nodes before the last one matter for the links. -/
theorem linked_congr {other : Node -> Node} (linked : nodes.IsChain (fun node following => next node = following))
    (agree : ∀ node ∈ nodes.dropLast, other node = next node) :
    nodes.IsChain (fun node following => other node = following) := by
  induction nodes with
  | nil => exact isChain_nil
  | cons first rest ih =>
    cases rest with
    | nil => exact isChain_singleton _
    | cons second rest =>
      rw [isChain_cons_cons] at linked ⊢
      refine ⟨(agree first (by simp)).trans linked.1, ih linked.2 ?_⟩
      intro node member
      exact agree node (by simp [member])

theorem ne_getLast_of_mem_dropLast (nodup : nodes.Nodup) {last : Node}
    (member : node ∈ nodes.dropLast) (final : last ∈ nodes.getLast?) : node ≠ last := by
  intro same
  rw [<- dropLast_append_getLast? last final, nodup_append] at nodup
  exact nodup.2.2 node member last (mem_singleton_self last) same

namespace Threads

variable {next other : Node -> Node} {marks : Node -> Prop} {nodes keep rest fresh : List Node}

theorem congr (threads : Threads next marks nodes)
    (agree : ∀ node ∈ nodes, other node = next node) : Threads other marks nodes where
  linked := linked_congr threads.linked (fun node member => agree node (dropLast_subset _ member))
  ends := by
    intro node final
    rw [agree node (mem_of_getLast? final)]
    exact threads.ends node final

/-- The successor of a node of the chain is a node of the chain or an end mark. -/
theorem next_mem_or_marks (threads : Threads next marks nodes) (member : node ∈ nodes) :
    next node ∈ nodes \/ marks (next node) := by
  rcases append_of_mem member with ⟨_, after, rfl⟩
  cases after with
  | nil => exact .inr (threads.ends node (by simp))
  | cons following after =>
    have step := (isChain_cons_cons.mp threads.linked.right_of_append).1
    exact .inl (by simp [step])

/-- Cut a chain: the last node that stays gets an end mark. -/
theorem cut (threads : Threads next marks (keep ++ rest)) (nodup : keep.Nodup)
    (agree : ∀ node ∈ keep, node ∉ keep.getLast? -> other node = next node)
    (marked : ∀ node ∈ keep.getLast?, marks (other node)) : Threads other marks keep where
  linked := by
    refine linked_congr threads.linked.left_of_append ?_
    intro node member
    refine agree node (dropLast_subset _ member) ?_
    intro final
    exact ne_getLast_of_mem_dropLast nodup member final rfl
  ends := marked

/-- Extend a chain by nodes that are linked behind its last one. -/
theorem extend (threads : Threads next marks nodes) (nodup : nodes.Nodup)
    (agree : ∀ node ∈ nodes, node ∉ nodes.getLast? -> other node = next node)
    (linked : (nodes.getLast?.toList ++ fresh).IsChain (fun node following => other node = following))
    (marked : ∀ node ∈ (nodes ++ fresh).getLast?, marks (other node)) :
    Threads other marks (nodes ++ fresh) where
  linked := by
    rw [isChain_append] at linked ⊢
    refine ⟨linked_congr threads.linked ?_, linked.2.1, ?_⟩
    · intro node member
      refine agree node (dropLast_subset _ member) ?_
      intro final
      exact ne_getLast_of_mem_dropLast nodup member final rfl
    · intro node final following first
      refine linked.2.2 node ?_ following first
      rw [Option.mem_def.mp final]
      rfl
  ends := marked

end Threads

/-- Follow the table from a node until a successor that stops the walk, on fuel. -/
def walk (next : Node -> Node) (stops : Node -> Prop) [DecidablePred stops] :
    Nat -> Node -> Option (List Node)
  | 0, _ => none
  | fuel + 1, node =>
    if stops (next node) then some [node]
    else (walk next stops fuel (next node)).map (fun nodes => node :: nodes)

/-- A walk that stops at every end mark and at no node of a threaded chain returns
the chain. -/
theorem Threads.walk_eq {marks : Node -> Prop} [DecidablePred stops]
    {first : Node} {rest : List Node} (threads : Threads next marks (first :: rest))
    (halts : ∀ value, marks value -> stops value) (going : ∀ node ∈ rest, ¬ stops node)
    {fuel : Nat} (enough : rest.length < fuel) : walk next stops fuel first = some (first :: rest) := by
  induction rest generalizing first fuel with
  | nil =>
    cases fuel with
    | zero => cases Nat.not_lt_zero _ enough
    | succ fuel => rw [walk, if_pos (halts _ (threads.ends first rfl))]
  | cons second rest ih =>
    cases fuel with
    | zero => cases Nat.not_lt_zero _ enough
    | succ fuel =>
      have step := isChain_cons_cons.mp threads.linked
      have shorter : Threads next marks (second :: rest) := ⟨step.2, threads.ends⟩
      have onward : ¬ stops (next first) := by
        rw [step.1]
        exact going second (by simp)
      rw [walk, if_neg onward, step.1, ih shorter (fun node member => going node (by simp [member]))
        (Nat.lt_of_succ_lt_succ enough), Option.map_some]

/-- A walk into a node that is its own successor never ends. -/
theorem walk_eq_none_of_self [DecidablePred stops] (self : next node = node) (going : ¬ stops node) (fuel : Nat) :
    walk next stops fuel node = none := by
  induction fuel with
  | zero => rfl
  | succ fuel ih => rw [walk, self, if_neg going, ih, Option.map_none]

end GCore.Library
