import Mathlib.Data.List.Induction
import GCore.Errno

namespace GCore.Fs

open List

/-!
# Paths in the directory tree

`parse_dir_path` takes a path apart at its slashes and folds the components: empty ones and
`.` are left out, and `..` takes the name in front of it away.  `cd_comp` then walks along
what is left.  In a tree whose nodes know their fathers, a name and the `..` behind it lead
back to where they began, so the walk ends where the unfolded path ends.
-/

abbrev Name := List Char

def dot : Name := ['.']

def dotdot : Name := ['.', '.']

/-- The tree as a walk reads it.  A node without a father is a root. -/
structure DirectoryTree (Node : Type) where
  root : Node
  father : Node -> Option Node
  tryToOpenSubfile : Node -> Name -> Except Int Node

/-- One step of the fold in `parse_dir_path`. -/
def foldComponent (v : List Name) (s : Name) : List Name :=
  if s = [] \/ s = dot then v
  else if s = dotdot then if v.getLast?.all (· = dotdot) then v ++ [s] else v.dropLast
  else v ++ [s]

def parseDirPath (path : List Char) : List Name := (path.splitOn '/').foldl foldComponent []

namespace DirectoryTree

variable {Node : Type} (tree : DirectoryTree Node)

def cdOne (node : Node) (component : Name) : Except Int Node :=
  if component = dotdot then .ok ((tree.father node).getD node) else tree.tryToOpenSubfile node component

def cdComp (node : Node) (components : List Name) : Except Int Node := components.foldlM tree.cdOne node

/-- Where a path begins. -/
def start (self : Node) (path : List Char) : Node := if path.head? = some '/' then tree.root else self

def cdPath (self : Node) (path : List Char) : Except Int Node := tree.cdComp (tree.start self path) (parseDirPath path)

/-! ## The path as it stands -/

def walkOne (node : Node) (component : Name) : Except Int Node :=
  if component = [] \/ component = dot then .ok node else tree.cdOne node component

/-- Component by component, without folding. -/
def walk (self : Node) (path : List Char) : Except Int Node :=
  (path.splitOn '/').foldlM tree.walkOne (tree.start self path)

/-- Every node is found below its father. -/
def FathersKnown : Prop := ∀ node name child, tree.tryToOpenSubfile node name = .ok child -> tree.father child = some node

variable {tree} {begin node next : Node} {v : List Name} {s : Name}

theorem cdComp_concat (v : List Name) (s : Name) :
    tree.cdComp begin (v ++ [s]) = tree.cdComp begin v >>= fun node => tree.cdOne node s := by
  unfold cdComp
  rw [foldlM_append]
  refine congrArg (_ >>= ·) (funext fun node => ?_)
  rw [foldlM_cons]
  cases tree.cdOne node s with
  | error errno | ok next => rfl

/-- A component that is folded away has led back to where it began. -/
theorem cdComp_foldComponent (known : tree.FathersKnown) (reached : tree.cdComp begin v = .ok node)
    (walked : tree.walkOne node s = .ok next) : tree.cdComp begin (foldComponent v s) = .ok next := by
  unfold walkOne at walked
  unfold foldComponent
  split at walked
  · rename_i skipped
    rw [if_pos skipped, reached, walked]
  · rename_i named
    have pushed : tree.cdComp begin (v ++ [s]) = .ok next := by
      rw [cdComp_concat, reached]
      exact walked
    rw [if_neg named]
    by_cases up : s = dotdot
    · rw [if_pos up]
      rcases eq_nil_or_concat v with rfl | ⟨front, name, same⟩
      · exact pushed
      · rw [concat_eq_append] at same
        subst same
        rw [getLast?_concat, dropLast_concat]
        by_cases again : name = dotdot
        · simpa [again] using pushed
        · rw [cdComp_concat] at reached
          cases earlier : tree.cdComp begin front with
          | error errno =>
            rw [earlier] at reached
            cases reached
          | ok above =>
            rw [earlier] at reached
            change tree.cdOne above name = .ok node at reached
            rw [cdOne, if_neg again] at reached
            rw [cdOne, if_pos up, known above name node reached] at walked
            simpa [again, earlier] using walked
    · rw [if_neg up]
      exact pushed

theorem cdComp_foldl (known : tree.FathersKnown) {components : List Name} (reached : tree.cdComp begin v = .ok node)
    (walked : components.foldlM tree.walkOne node = .ok next) :
    tree.cdComp begin (components.foldl foldComponent v) = .ok next := by
  induction components generalizing v node with
  | nil =>
    cases walked
    exact reached
  | cons s components ih =>
    rw [foldlM_cons] at walked
    cases first : tree.walkOne node s with
    | error errno =>
      rw [first] at walked
      cases walked
    | ok middle =>
      rw [first] at walked
      exact ih (cdComp_foldComponent known reached first) walked

/-- If the walk along a path succeeds, then `cd_path` ends at the same node. -/
theorem cdPath_eq_walk (known : tree.FathersKnown) {self target : Node} {path : List Char}
    (walked : tree.walk self path = .ok target) : tree.cdPath self path = .ok target :=
  cdComp_foldl known rfl walked

/-- All names are there: a node is the way up to the root. -/
def everyName : DirectoryTree (List Name) where
  root := []
  father := fun node => node.tail?
  tryToOpenSubfile := fun node name => .ok (name :: node)

/-- The path `../a//./../b` from a directory in the root. -/
theorem path_through_root_ends_beside :
    everyName.cdPath [['c']] ['.', '.', '/', 'a', '/', '/', '.', '/', '.', '.', '/', 'b'] = .ok [['b']] := by
  apply cdPath_eq_walk _ rfl
  intro node name child found
  cases found
  rfl

/-! ## What is left of a path -/

/-- Names that can be opened, with the steps up in front of them. -/
def Folded (v : List Name) : Prop :=
  ∃ ups names, v = replicate ups dotdot ++ names /\ ∀ name ∈ names, name ≠ [] /\ name ≠ dot /\ name ≠ dotdot

theorem Folded.foldComponent (folded : Folded v) (s : Name) : Folded (Fs.foldComponent v s) := by
  rcases folded with ⟨ups, names, rfl, proper⟩
  unfold Fs.foldComponent
  split
  · exact ⟨ups, names, rfl, proper⟩
  · rename_i named
    split
    · rename_i up
      rcases eq_nil_or_concat names with rfl | ⟨front, name, rfl⟩
      · refine ⟨ups + 1, [], ?_, nofun⟩
        cases ups <;> simp [up, replicate_succ']
      · refine ⟨ups, front, ?_, fun other member => proper other (by simp [member])⟩
        simp [(proper name (by simp)).2.2, <- append_assoc]
    · rename_i ordinary
      refine ⟨ups, names ++ [s], append_assoc _ _ _, ?_⟩
      intro name member
      rcases mem_append.mp member with old | new
      · exact proper name old
      · rw [mem_singleton.mp new]
        exact ⟨(not_or.mp named).1, (not_or.mp named).2, ordinary⟩

theorem Folded.foldl_eq (folded : Folded v) : v.foldl Fs.foldComponent [] = v := by
  rcases folded with ⟨ups, names, rfl, proper⟩
  induction names using reverseRecOn with
  | nil =>
    rw [append_nil]
    induction ups with
    | zero => rfl
    | succ ups ih =>
      rw [replicate_succ', foldl_append, ih]
      cases ups <;> simp [Fs.foldComponent, dotdot, dot, replicate_succ']
  | append_singleton names name ih =>
    rw [<- append_assoc, foldl_append, ih fun other member => proper other (by simp [member])]
    simp [Fs.foldComponent, proper name]

/-- `parse_dir_path` leaves no empty component, no `.`, and `..` only in front: nothing more
to fold. -/
theorem parseDirPath_folded (path : List Char) :
    Folded (parseDirPath path) /\ (parseDirPath path).foldl foldComponent [] = parseDirPath path := by
  have folded : Folded (parseDirPath path) :=
    foldlRecOn _ _ ⟨0, [], rfl, nofun⟩ fun _ folded s _ => folded.foldComponent s
  exact ⟨folded, folded.foldl_eq⟩

end DirectoryTree

end GCore.Fs
