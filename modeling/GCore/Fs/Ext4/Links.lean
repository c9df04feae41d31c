import GCore.Fs.Ext4.InodeAlloc

namespace GCore.Fs.Ext4

open Library Ext4FileSystem Function Option List Inodes

/-!
# Links and new directories

`create` takes an inode and `link` adds an entry for it to a directory and counts it in the
inode.  A new directory gets its first two entries in the same way, and both of them lead to
the directory itself.

A directory is the list of its entries here.  Where a new entry finds room is left to the
surroundings: in a block of the directory, or in one that is allocated for it.  The list does
not show that an entry is written with its whole buffer for the name, over what follows in the
block.
-/

/-- What these functions read and write of an inode. -/
structure Ext4Inode where
  linksCount : Nat
  isDir : Bool

/-- A volume with its inodes and the entries of its directories. -/
structure LinkVolume where
  fs : Ext4FileSystem
  table : Nat -> Ext4Inode
  dirs : Nat -> List (String × Nat)

/-- How room for a name is found in a directory. -/
abbrev Room : Type := Ext4FileSystem -> Nat -> String -> Except Int Unit × Ext4FileSystem

namespace LinkVolume

section Functions

variable (volume : LinkVolume) (room : Room) (parent child : Nat) (name : String)

def dirAddEntry : Except Int Unit × LinkVolume :=
  match room volume.fs parent name with
  | (.error code, fs) => (.error code, { volume with fs := fs })
  | (.ok (), fs) => (.ok (), { volume with
      fs := fs, dirs := Function.update volume.dirs parent (volume.dirs parent ++ [(name, child)]) })

def setLinksCount (number count : Nat) : LinkVolume :=
  { volume with table := Function.update volume.table number { volume.table number with linksCount := count } }

def addLink (number : Nat) : LinkVolume :=
  volume.setLinksCount number (((volume.table number).linksCount + 1) % 2 ^ 16)

/-- The entry `..` of a new directory is one for the directory itself. -/
def link : Except Int Unit × LinkVolume :=
  match volume.dirAddEntry room parent child name with
  | (.error code, after) => (.error code, after)
  | (.ok (), added) =>
    if (added.table child).isDir then
      match added.dirAddEntry room child child "." with
      | (.error code, after) => (.error code, after)
      | (.ok (), first) =>
        match first.dirAddEntry room child child ".." with
        | (.error code, after) => (.error code, after)
        | (.ok (), second) => (.ok (), (second.setLinksCount child 2).addLink parent)
    else (.ok (), added.addLink child)

/-- `create`, with the inode that `create_inode` gives. -/
def create (isDir : Bool) (fuel : Nat) : Option (Option (Except Int Nat × LinkVolume)) :=
  (volume.fs.iallocAllocInode isDir fuel).map (fun returned => returned.map (fun
    | (.error code, fs) => (.error code, { volume with fs := fs })
    | (.ok number, fs) =>
      let linked := link { volume with
        fs := fs, table := Function.update volume.table number ⟨0, isDir⟩
        dirs := Function.update volume.dirs number [] } room parent number name
      (linked.1.map (fun _ => number), linked.2)))

def dirFindEntry : Option Nat := ((volume.dirs parent).find? (fun entry => entry.1 == name)).map Prod.snd

end Functions

variable {volume after : LinkVolume} {room : Room} {parent child number fuel : Nat} {name : String}

theorem dirAddEntry_eq_ok (done : volume.dirAddEntry room parent child name = (.ok (), after)) :
    room volume.fs parent name = (.ok (), after.fs) /\ after.table = volume.table /\
      after.dirs = update volume.dirs parent (volume.dirs parent ++ [(name, child)]) := by
  unfold dirAddEntry at done
  cases found : room volume.fs parent name with
  | mk answer fs =>
    rw [found] at done
    cases answer with
    | error code => cases done
    | ok _ =>
      cases done
      exact ⟨rfl, rfl, rfl⟩

theorem create_eq_ok {isDir : Bool} {fuel number : Nat}
    (done : volume.create room parent name isDir fuel = some (some (.ok number, after))) :
    ∃ fs, volume.fs.iallocAllocInode isDir fuel = some (some (.ok number, fs)) /\
      link { volume with
        fs := fs, table := update volume.table number ⟨0, isDir⟩
        dirs := update volume.dirs number [] } room parent number name = (.ok (), after) := by
  rcases map_eq_some_iff.mp done with ⟨_, allocated, mapped⟩
  rcases map_eq_some_iff.mp mapped with ⟨⟨answer, fs⟩, rfl, made⟩
  cases answer with
  | error code => cases made
  | ok fresh =>
    dsimp only at made
    generalize linked : link _ room parent fresh name = outcome at made
    rcases outcome with ⟨_ | _, _⟩
    · cases made
    · cases made
      exact ⟨fs, allocated, linked⟩

/-! ## New directories -/

/-- A new directory with an entry for itself and one for `target`, and the counts of links. -/
structure NewDirectory (before after : LinkVolume) (parent number target : Nat) (name : String) : Prop where
  entries : after.dirs number = [(".", number), ("..", target)]
  entry : after.dirFindEntry parent name = some number
  linksCount : (after.table number).linksCount = 2
  parentLinks : (after.table parent).linksCount = (before.table parent).linksCount + 1

/-- If the directory is entered into itself, then its links are counted three times. -/
theorem link_directory (isDir : (volume.table child).isDir = true)
    (done : volume.link room parent child name = (.ok (), after)) :
    (child ≠ parent -> after.dirs child = volume.dirs child ++ [(".", child), ("..", child)] /\
      after.dirs parent = volume.dirs parent ++ [(name, child)] /\ (after.table child).linksCount = 2 /\
      (after.table parent).linksCount = ((volume.table parent).linksCount + 1) % 2 ^ 16) /\
    (child = parent -> (after.table child).linksCount = 3) := by
  unfold link at done
  split at done
  · cases done
  · rename_i added named
    have entered := (dirAddEntry_eq_ok named).2
    rw [entered.1, if_pos isDir] at done
    split at done
    · cases done
    · rename_i first dot
      split at done
      · cases done
      · rename_i second dots
        have own := (dirAddEntry_eq_ok dot).2
        have above := (dirAddEntry_eq_ok dots).2
        cases done
        constructor
        · intro different
          simp [addLink, setLinksCount, above, own, entered, different, different.symm]
        · intro same
          simp [addLink, setLinksCount, same]

/-- A new directory is formed, with the directory that is under `..`, exactly if it is itself the
directory there.  So it is never formed with its parent under `..`. -/
theorem new_directory_is_formed_iff {target : Nat} (fresh : volume.dirFindEntry parent name = none)
    (done : volume.create room parent name true fuel = some (some (.ok number, after))) :
    NewDirectory volume after parent number target name ↔
      target = number /\ number ≠ parent /\ (volume.table parent).linksCount < 2 ^ 16 - 1 := by
  rcases create_eq_ok done with ⟨fs, _, linked⟩
  have known := link_directory (by simp) linked
  by_cases different : number = parent
  · refine ⟨fun formed => ?_, fun right => absurd different right.2.1⟩
    have count := formed.linksCount
    rw [known.2 different] at count
    cases count
  have known := known.1 different
  simp only [update_self, update_of_ne (Ne.symm different), nil_append] at known
  rcases known with ⟨entries, above, count, parentCount⟩
  constructor
  · intro formed
    have same := formed.entries.symm.trans entries
    have counted := formed.parentLinks.symm.trans parentCount
    have bound := Nat.mod_lt ((volume.table parent).linksCount + 1) (show 0 < 2 ^ 16 by decide)
    exact ⟨by simpa using same, different, by omega⟩
  · rintro ⟨same, _, few⟩
    refine ⟨by rw [entries, same], ?_, count, by rw [parentCount, Nat.mod_eq_of_lt (by omega)]⟩
    have absent := map_eq_none_iff.mp fresh
    rw [dirFindEntry, above, find?_append, absent]
    simp

/-- A volume with an empty directory. -/
def files : LinkVolume := ⟨unused.fs, fun _ => ⟨0, false⟩, fun _ => []⟩

/-- Every directory has room. -/
def roomy : Room := fun fs _ _ => (.ok (), fs)

theorem exists_directory : ∃ number fuel after, number ≠ 2 /\
    files.create roomy 2 "d" true fuel = some (some (.ok number, after)) := by
  have evaluated : ((files.create roomy 2 "d" true 2).join.bind (fun outcome => outcome.1.toOption)).getD 2 ≠ 2 := by
    decide +kernel
  rcases created : files.create roomy 2 "d" true 2 with _ | _ | ⟨_ | number, after⟩
  all_goals rw [created] at evaluated
  · exact absurd rfl evaluated
  · exact absurd rfl evaluated
  · exact absurd rfl evaluated
  · exact ⟨number, 2, after, evaluated, created⟩

theorem new_directory_points_to_itself : ∃ number after, number ≠ 2 /\ NewDirectory files after 2 number number "d" := by
  rcases exists_directory with ⟨number, fuel, after, different, done⟩
  exact ⟨number, after, different, (new_directory_is_formed_iff rfl done).mpr ⟨rfl, different, by decide⟩⟩

/-- The entry `..` of a new directory does not lead to its parent. -/
theorem new_directory_has_no_parent :
    ¬ ∀ (volume after : LinkVolume) (room : Room) (parent number fuel : Nat) (name : String),
      volume.dirFindEntry parent name = none -> number ≠ parent -> (volume.table parent).linksCount < 2 ^ 16 - 1 ->
      volume.create room parent name true fuel = some (some (.ok number, after)) ->
      NewDirectory volume after parent number parent name := by
  intro claim
  rcases exists_directory with ⟨number, fuel, after, different, done⟩
  rcases create_eq_ok done with ⟨fs, _, linked⟩
  have entries := (claim files after roomy 2 number fuel "d" rfl different (by decide) done).entries
  rw [((link_directory (by simp) linked).1 different).1] at entries
  simp at entries
  exact different entries

end LinkVolume

end GCore.Fs.Ext4
