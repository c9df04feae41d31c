import GCore.Fs.FdTable

namespace GCore.Fs

open List Option

/-!
# Waiting for files

`pselect` looks at the files of two sets again and again until one is ready or the time is
over.  Then it takes the files that are not ready out of the sets.  A descriptor without a
file is passed over in both places, and so are all descriptors from `nfds` on.  They stay in
the sets although they are not counted.  And every file is asked twice, once for the number and
once for the sets.
-/

/-- What is asked of an open file. -/
structure FileDescriptor where
  rReady : Bool
  wReady : Bool

/-- The number of bits of a set, which has sixteen words. -/
def fdSetSize : Nat := 16 * 64

abbrev FdSet : Type := Nat -> Bool

namespace FdSet

variable (set : FdSet) (d : Nat)

def empty : FdSet := fun _ => false

def isSet : Bool := set d

def clr : FdSet := Function.update set d false

def setNum : Nat := (List.range fdSetSize).countP set.isSet

end FdSet

open FdSet

structure FdSets where
  readFds : Option FdSet
  writeFds : Option FdSet
  exceptionFds : Option FdSet

/-- The files when they are counted, whether the time is over by then, and the files when they are
looked at once more. -/
structure Moment where
  counted : FdTable FileDescriptor
  expired : Bool
  fdTable : FdTable FileDescriptor

section Rounds

variable (fdTable : FdTable FileDescriptor) (ready : FileDescriptor -> Bool) (nfds : Nat)

def countReady (set : FdSet) : Nat := (List.range nfds).countP (fun i => set.isSet i && (fdTable.get i).any ready)

def clearUnready (set : FdSet) : FdSet :=
  (List.range nfds).foldl (fun set i => if set.isSet i && (fdTable.get i).any (!ready ·) then set.clr i else set) set

end Rounds

def readyFiles (fdTable : FdTable FileDescriptor) (nfds : Nat) (sets : FdSets) : Nat :=
  sets.readFds.elim 0 (countReady fdTable (·.rReady) nfds) + sets.writeFds.elim 0 (countReady fdTable (·.wReady) nfds)

/-- The files at the return are given with the result. -/
def pselect (nfds : Nat) (sets : FdSets) : List Moment -> Option (Moment × Nat × FdSets)
  | [] => none
  | moment :: later =>
    let done := readyFiles moment.counted nfds sets
    if done ≠ 0 \/ moment.expired then
      some (moment, done,
        ⟨sets.readFds.map (clearUnready moment.fdTable (·.rReady) nfds),
          sets.writeFds.map (clearUnready moment.fdTable (·.wReady) nfds), sets.exceptionFds.map fun _ => .empty⟩)
    else pselect nfds sets later

/-- A returned set has descriptors below `nfds` that were asked for and whose files are ready. -/
def Selected (fdTable : FdTable FileDescriptor) (ready : FileDescriptor -> Bool) (nfds : Nat)
    (before after : Option FdSet) : Prop :=
  ∀ set ∈ after, ∃ asked ∈ before, ∀ d < fdSetSize, set.isSet d = true ->
    d < nfds /\ asked.isSet d = true /\ (fdTable.get d).any ready = true

/-- The returned sets are right, and so is their number of bits. -/
structure Answered (nfds : Nat) (before : FdSets) (moment : Moment) (number : Nat) (after : FdSets) : Prop where
  read : Selected moment.fdTable (·.rReady) nfds before.readFds after.readFds
  write : Selected moment.fdTable (·.wReady) nfds before.writeFds after.writeFds
  exception : Selected moment.fdTable (fun _ => false) nfds before.exceptionFds after.exceptionFds
  number_eq : number = after.readFds.elim 0 setNum + after.writeFds.elim 0 setNum +
    after.exceptionFds.elim 0 setNum

/-- All descriptors of a set are below `nfds` and open. -/
def Watches (fdTable : FdTable FileDescriptor) (nfds : Nat) (set : Option FdSet) : Prop :=
  ∀ asked ∈ set, ∀ d < fdSetSize, asked.isSet d = true -> d < nfds /\ fdTable.Live d

variable {fdTable : FdTable FileDescriptor} {ready : FileDescriptor -> Bool} {nfds number : Nat} {set : FdSet}
  {sets after : FdSets} {moment : Moment} {moments : List Moment}

theorem isSet_clearUnready (d : Nat) : (clearUnready fdTable ready nfds set).isSet d =
    (set.isSet d && !(decide (d < nfds) && (fdTable.get d).any (!ready ·))) := by
  unfold clearUnready
  induction nfds with
  | zero => simp
  | succ nfds ih =>
    rw [range_succ, foldl_append, foldl_cons, foldl_nil]
    generalize (List.range nfds).foldl _ set = inner at ih ⊢
    by_cases last : d = nfds
    · subst last
      have same : inner.isSet d = set.isSet d := by simpa using ih
      unfold isSet at *
      rw [same]
      cases present : set d <;> cases (fdTable.get d).any (!ready ·) <;> simp [clr, same, present]
    · have earlier : d < nfds + 1 ↔ d < nfds := by omega
      rw [decide_eq_decide.mpr earlier, <- ih]
      split
      · exact Function.update_of_ne last ..
      · rfl

theorem selected_iff_watches {set : Option FdSet} :
    Selected fdTable ready nfds set (set.map (clearUnready fdTable ready nfds)) ↔ Watches fdTable nfds set := by
  cases set with
  | none => simp [Selected, Watches]
  | some set =>
    simp only [Selected, Watches, map_some, mem_some_iff, forall_eq', exists_eq_left', isSet_clearUnready]
    refine forall_congr' fun d => ?_
    unfold FdTable.Live
    by_cases below : d < nfds <;> cases fdTable.get d <;> cases set.isSet d <;> simp [below]

theorem setNum_clearUnready {set : Option FdSet} (small : nfds <= fdSetSize) (watches : Watches fdTable nfds set) :
    (set.map (clearUnready fdTable ready nfds)).elim 0 setNum =
      set.elim 0 (countReady fdTable ready nfds) := by
  cases set with
  | none => simp
  | some set =>
    have asked := watches set rfl
    rw [map_some, elim_some, elim_some, setNum, countReady]
    generalize fdSetSize = size at asked small
    rcases Nat.exists_eq_add_of_le small with ⟨_, rfl⟩
    rw [range_add, countP_append, countP_congr, Nat.add_eq_left, countP_eq_zero]
    · intro d member
      rcases mem_map.mp member with ⟨_, inside, rfl⟩
      rw [isSet_clearUnready, Bool.and_eq_true]
      intro ⟨present, _⟩
      rw [mem_range] at inside
      have below := (asked _ (by omega) present).1
      omega
    · intro d member
      rw [isSet_clearUnready]
      cases present : set.isSet d with
      | false => rfl
      | true =>
        have below := mem_range.mp member
        rcases isSome_iff_exists.mp (asked d (by omega) present).2 with ⟨_, found⟩
        simp [found, below]

theorem setNum_empty : FdSet.empty.setNum = 0 := by
  rw [setNum, countP_eq_zero]
  exact fun _ _ => Bool.false_ne_true

/-- The answer is right exactly if all descriptors of the two sets are below `nfds` and open, and as
many files are ready when they are counted as when the sets are made. -/
theorem pselect_answers_iff (small : nfds <= fdSetSize) (returned : pselect nfds sets moments = some (moment, number, after)) :
    Answered nfds sets moment number after ↔
      Watches moment.fdTable nfds sets.readFds /\ Watches moment.fdTable nfds sets.writeFds /\
        readyFiles moment.counted nfds sets = readyFiles moment.fdTable nfds sets := by
  induction moments with
  | nil => cases returned
  | cons first later ih =>
    rw [pselect] at returned
    split at returned
    · cases returned
      have nothing : (sets.exceptionFds.map fun _ => FdSet.empty).elim 0 setNum = 0 := by
        cases sets.exceptionFds with
        | none => rfl
        | some set => rw [map_some, elim_some, setNum_empty]
      constructor
      · intro answered
        have read := selected_iff_watches.mp answered.read
        have write := selected_iff_watches.mp answered.write
        have same := answered.number_eq
        rw [setNum_clearUnready small read, setNum_clearUnready small write, nothing] at same
        exact ⟨read, write, same⟩
      · rintro ⟨read, write, same⟩
        refine ⟨selected_iff_watches.mpr read, selected_iff_watches.mpr write, ?_, ?_⟩
        all_goals
          dsimp only
        · cases sets.exceptionFds <;> simp [Selected, isSet, FdSet.empty]
        · rw [setNum_clearUnready small read, setNum_clearUnready small write, nothing]
          exact same
    · exact ih returned

/-- A file that is always ready. -/
def readyFile : Moment := ⟨.new [some ⟨true, true⟩], false, .new [some ⟨true, true⟩]⟩

theorem ready_file_is_selected : ∃ number after,
    pselect 1 ⟨some (· == 0), none, none⟩ [readyFile] = some (readyFile, number, after) /\
      Answered 1 ⟨some (· == 0), none, none⟩ readyFile number after := by
  have returned : pselect 1 ⟨some (· == 0), none, none⟩ [readyFile] = some (readyFile, _, _) := rfl
  refine ⟨_, _, returned, (pselect_answers_iff (by decide) returned).mpr ⟨?_, nofun, rfl⟩⟩
  rintro asked ⟨⟩ d _ present
  have first : d = 0 := by simpa [isSet] using present
  subst first
  exact ⟨by decide, rfl⟩

/-- A descriptor without a file stays in the set. -/
theorem closed_descriptor_stays_selected :
    ¬ ∀ (nfds number : Nat) (sets after : FdSets) (moments : List Moment) (moment : Moment), nfds <= fdSetSize ->
      moment.counted = moment.fdTable -> pselect nfds sets moments = some (moment, number, after) -> Answered nfds sets moment number after := by
  intro claim
  have answered := claim 1 _ ⟨some (· == 0), none, none⟩ _ [⟨.new [], true, .new []⟩] _ (by decide) rfl rfl
  rcases answered.read _ rfl with ⟨_, _, selected⟩
  cases (selected 0 (by decide) rfl).2.2

end GCore.Fs
