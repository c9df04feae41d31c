import Mathlib.Data.List.Nodup
import Mathlib.Data.List.Pairwise

namespace GCore.Library

open List

/-!
# Owners of parts of a store

Several owners share a store, and each of them owns some of its keys.  What is required
of an owner may look at the store at the owner's own keys only.  As long as no key is
owned twice, one owner can be changed together with the store at its keys, and all the
others are none the worse for it: this is the frame rule, in the form of an invariant
of the list of owners.
-/

universe u v w x

/-- A store with owners, what they own, and what is required of them. -/
structure Ownership (Store : Type u) (Owner : Type v) (Key : Type w) (Value : Type x) where
  read : Store -> Key -> Value
  owns : Owner -> List Key
  sound : Store -> Owner -> Prop
  frame : ∀ store after owner, (∀ key ∈ owns owner, read after key = read store key) ->
    sound store owner -> sound after owner

namespace Ownership

variable {Store : Type u} {Owner : Type v} {Key : Type w} {Value : Type x}

/-- No key is owned twice and every owner meets its requirement. -/
structure Kept (shape : Ownership Store Owner Key Value) (store : Store) (owners : List Owner) : Prop where
  nodup : (owners.flatMap shape.owns).Nodup
  sound : ∀ owner ∈ owners, shape.sound store owner

namespace Kept

variable {shape : Ownership Store Owner Key Value} {store after : Store} {owners front back pieces : List Owner}
  {owner piece : Owner}

variable (kept : Kept shape store (front ++ owner :: back))

include kept in
/-- The keys of an owner that is one of several are its own. -/
theorem not_mem_of_mem {other : Owner}
    (elsewhere : other ∈ front \/ other ∈ back) {key : Key} (member : key ∈ shape.owns other) :
    key ∉ shape.owns owner := by
  have nodup := kept.nodup
  rw [flatMap_append, flatMap_cons] at nodup
  intro own
  rcases elsewhere with earlier | later
  · exact (nodup_append.mp nodup).2.2 key (mem_flatMap.mpr ⟨other, earlier, member⟩) key
      (mem_append_left _ own) rfl
  · exact (nodup_append.mp (nodup_append.mp nodup).2.1).2.2 key own key
      (mem_flatMap.mpr ⟨other, later, member⟩) rfl

/-- A key has one owner. -/
theorem eq_of_mem_owns (kept : Kept shape store owners) {first second : Owner} (firstMember : first ∈ owners)
    (secondMember : second ∈ owners) {key : Key} (firstOwns : key ∈ shape.owns first)
    (secondOwns : key ∈ shape.owns second) : first = second := by
  by_contra different
  have symmetric : Std.Symm (Function.onFun List.Disjoint shape.owns) :=
    ⟨fun _ _ apart key here there => apart there here⟩
  exact (nodup_flatMap.mp kept.nodup).2.forall firstMember secondMember different firstOwns secondOwns

include kept in
/-- The frame rule: an owner gives way to pieces that own some of its keys, while the
store changes at its keys only. -/
theorem replace (fewer : (pieces.flatMap shape.owns).Sublist (shape.owns owner))
    (sound : ∀ piece ∈ pieces, shape.sound after piece)
    (untouched : ∀ other key, key ∈ shape.owns other -> key ∉ shape.owns owner ->
      shape.read after key = shape.read store key) :
    Kept shape after (front ++ pieces ++ back) := by
  have framed : ∀ other, other ∈ front \/ other ∈ back -> shape.sound after other := by
    intro other elsewhere
    refine shape.frame store after other ?_ (kept.sound other ?_)
    · intro key member
      exact untouched other key member (kept.not_mem_of_mem elsewhere member)
    · rcases elsewhere with earlier | later
      · exact mem_append_left _ earlier
      · exact mem_append_right _ (mem_cons_of_mem _ later)
  constructor
  · refine kept.nodup.sublist ?_
    simp only [flatMap_append, flatMap_cons, append_assoc]
    exact (List.Sublist.refl _).append (fewer.append (List.Sublist.refl _))
  · intro other member
    rcases mem_append.mp member with inner | later
    · rcases mem_append.mp inner with earlier | here
      · exact framed other (.inl earlier)
      · exact sound other here
    · exact framed other (.inr later)

/-- The store may change at keys that nobody owns. -/
theorem congr (kept : Kept shape store owners) (same : ∀ owner ∈ owners, ∀ key ∈ shape.owns owner,
      shape.read after key = shape.read store key) : Kept shape after owners :=
  ⟨kept.nodup, fun owner member => shape.frame store after owner (same owner member) (kept.sound owner member)⟩

include kept in
/-- The frame rule for an owner that keeps its keys. -/
theorem update (owns_eq : shape.owns piece = shape.owns owner) (sound : shape.sound after piece)
    (untouched : ∀ other key, key ∈ shape.owns other -> key ∉ shape.owns owner ->
      shape.read after key = shape.read store key) :
    Kept shape after (front ++ piece :: back) := by
  have fewer : ([piece].flatMap shape.owns).Sublist (shape.owns owner) := by
    rw [flatMap_singleton, owns_eq]
  have replaced := kept.replace fewer (fun other member => mem_singleton.mp member ▸ sound) untouched
  rw [append_assoc, singleton_append] at replaced
  exact replaced

/-- A new owner may own keys that nobody owned, wherever it is put. -/
theorem insert (kept : Kept shape store owners) (nodup : (shape.owns piece).Nodup)
    (fresh : ∀ key ∈ shape.owns piece, key ∉ owners.flatMap shape.owns)
    (sound : shape.sound store piece) {all : List Owner} (together : all.Perm (piece :: owners)) :
    Kept shape store all := by
  constructor
  · refine (together.flatMap_right shape.owns).nodup_iff.mpr ?_
    rw [flatMap_cons]
    refine nodup_append.mpr ⟨nodup, kept.nodup, ?_⟩
    rintro key member other owned rfl
    exact fresh key member owned
  · intro other member
    rcases mem_cons.mp (together.mem_iff.mp member) with rfl | old
    · exact sound
    · exact kept.sound other old

include kept in
/-- An owner may take on keys that nobody owned. -/
theorem grow {extra : List Key} (owns_eq : shape.owns piece = shape.owns owner ++ extra) (nodup : extra.Nodup)
    (fresh : ∀ key ∈ extra, key ∉ (front ++ owner :: back).flatMap shape.owns)
    (sound : shape.sound store piece) : Kept shape store (front ++ piece :: back) := by
  constructor
  · have together : ((front ++ piece :: back).flatMap shape.owns).Perm
        (extra ++ (front ++ owner :: back).flatMap shape.owns) := by
      simp only [flatMap_append, flatMap_cons, owns_eq, append_assoc]
      refine Perm.trans (Perm.append_left _ ?_) (perm_append_comm_assoc _ _ _)
      exact perm_append_comm_assoc _ _ _
    refine together.nodup_iff.mpr (nodup_append.mpr ⟨nodup, kept.nodup, ?_⟩)
    rintro key member other owned rfl
    exact fresh key member owned
  · intro other member
    rcases mem_append.mp member with earlier | rest
    · exact kept.sound other (mem_append_left _ earlier)
    · rcases mem_cons.mp rest with rfl | later
      · exact sound
      · exact kept.sound other (mem_append_right _ (mem_cons_of_mem _ later))

end Kept

end Ownership

end GCore.Library
