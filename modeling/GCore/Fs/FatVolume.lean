import GCore.Library.Run
import GCore.Fs.Fat

namespace GCore.Fs

open Library List

/-!
# Files on the allocation table

A volume is the table together with the cluster list that each file holds in
memory.  Files grow by `alloc` behind their last cluster and shrink by `free` of a
whole tail, in whatever order the tail is passed.  The volume is well formed when
the table threads every file's list and no cluster occurs twice.

Every run of admitted allocations keeps the volume well formed.  Allocations that
are not admitted can leave an entry that refers to itself, and a walk over the
file then never ends.
-/

/-- The table and the clusters of each file, in order. -/
structure FatVolume where
  fat : Fat
  files : List (List Nat)

namespace FatVolume

open Fat

/-- Every file's chain follows the table and is ended by a mark, so it is acyclic,
and chains are disjoint. -/
structure WellFormed (volume : FatVolume) : Prop where
  proper : ∀ clusNum ∈ volume.files.flatten, Proper clusNum
  nodup : volume.files.flatten.Nodup
  threads : ∀ file ∈ volume.files, Threads volume.fat.getNextClusNum EndMark file

inductive Op where
  | create
  | alloc (allocNum : Nat) (last : Option Nat)
  | free (clusterList : List Nat) (last : Option Nat)

/-- A new file holds no cluster.  An allocation is attached to the last cluster of
a file and a tail is freed as a whole. -/
inductive Step : FatVolume -> Op -> FatVolume -> Prop
  | create (fat : Fat) (files : List (List Nat)) : Step ⟨fat, files⟩ .create ⟨fat, [] :: files⟩
  | alloc (fat : Fat) (before after : List (List Nat)) (file : List Nat) (allocNum : Nat) :
      Step ⟨fat, before ++ file :: after⟩ (.alloc allocNum file.getLast?)
        ⟨(fat.alloc allocNum file.getLast?).2,
          before ++ (file ++ (fat.alloc allocNum file.getLast?).1) :: after⟩
  | free (fat : Fat) (before after : List (List Nat)) (keep tail clusterList : List Nat)
      (perm : clusterList.Perm tail) :
      Step ⟨fat, before ++ (keep ++ tail) :: after⟩ (.free clusterList keep.getLast?)
        ⟨fat.free clusterList keep.getLast?, before ++ keep :: after⟩

def Admits (volume : FatVolume) : Op -> Prop
  | .alloc allocNum _ => volume.fat.AdmitsAlloc allocNum
  | _ => True

abbrev AdmittedStep : FatVolume -> Op -> FatVolume -> Prop := Guarded Admits Step

/-- Well formed, with the allocator's own record in order. -/
def Sound (volume : FatVolume) : Prop := volume.WellFormed /\ volume.fat.Ready

variable {volume : FatVolume} {before after : List (List Nat)} {fat : Fat}

theorem WellFormed.not_vacant (wellFormed : volume.WellFormed) {clusNum : Nat}
    (member : clusNum ∈ volume.files.flatten) : ¬ volume.fat.Vacant clusNum := by
  rcases mem_flatten.mp member with ⟨file, inside, own⟩
  intro vacant
  rcases (wellFormed.threads file inside).next_mem_or_marks own with following | mark
  · have proper := wellFormed.proper _ (mem_flatten.mpr ⟨file, inside, following⟩)
    exact ne_of_gt proper.1 vacant
  · rw [vacant] at mark
    exact absurd mark (by decide)

/-- The clusters of one file, apart from those of the others. -/
theorem flatten_perm (before after : List (List Nat)) (file : List Nat) :
    (before ++ file :: after).flatten.Perm (file ++ (before ++ after).flatten) := by
  rw [flatten_append, flatten_cons, flatten_append]
  exact perm_append_comm_assoc before.flatten file after.flatten

/-- Replacing one file leaves the others. -/
private theorem mem_others {file chain : List Nat}
    (member : chain ∈ before ++ file :: after) (different : chain ≠ file) (replaced : List Nat) :
    chain ∈ before ++ after /\ chain ∈ before ++ replaced :: after := by
  rw [mem_append, mem_cons] at member
  rw [mem_append, mem_append, mem_cons]
  rcases member with earlier | same | later
  · exact ⟨.inl earlier, .inl earlier⟩
  · cases different same
  · exact ⟨.inr later, .inr (.inr later)⟩

theorem Sound.alloc {file : List Nat} {allocNum : Nat}
    (sound : Sound ⟨fat, before ++ file :: after⟩) (admitted : fat.AdmitsAlloc allocNum) :
    ((fat.alloc allocNum file.getLast?).1.length = allocNum \/
        fat.Exhausted /\ (fat.alloc allocNum file.getLast?).1 = []) /\
      Allocates fat file.getLast? (fat.alloc allocNum file.getLast?).1 (fat.alloc allocNum file.getLast?).2 /\
      Sound ⟨(fat.alloc allocNum file.getLast?).2,
        before ++ (file ++ (fat.alloc allocNum file.getLast?).1) :: after⟩ := by
  rcases sound with ⟨wellFormed, ready⟩
  have own : file ∈ before ++ file :: after := by simp
  have owned : ∀ clusNum ∈ file, clusNum ∈ (before ++ file :: after).flatten :=
    fun clusNum member => mem_flatten.mpr ⟨file, own, member⟩
  have threads := wellFormed.threads file own
  rcases admitted.allocates ready
    (fun clusNum final => wellFormed.proper clusNum (owned clusNum (mem_of_getLast? final)))
    threads.ends with ⟨length_eq, kept, allocates⟩
  refine ⟨length_eq, allocates, ⟨?_, ?_, ?_⟩, kept⟩
  all_goals generalize (fat.alloc allocNum file.getLast?).1 = allocated at *
  all_goals generalize (fat.alloc allocNum file.getLast?).2 = fatAfter at *
  · intro clusNum member
    rw [(flatten_perm before after _).mem_iff, append_assoc, mem_append, mem_append] at member
    rcases member with old | new | other
    · exact wellFormed.proper clusNum (owned clusNum old)
    · exact allocates.proper clusNum new
    · exact wellFormed.proper clusNum ((flatten_perm before after file).mem_iff.mpr (mem_append_right _ other))
  · have nodup := (flatten_perm before after file).nodup_iff.mp wellFormed.nodup
    rw [(flatten_perm before after _).nodup_iff]
    have regroup : ((file ++ allocated) ++ (before ++ after).flatten).Perm
        (allocated ++ (file ++ (before ++ after).flatten)) := by
      rw [append_assoc]
      exact perm_append_comm_assoc file allocated _
    rw [regroup.nodup_iff]
    refine Nodup.append allocates.nodup nodup ?_
    intro clusNum new old
    exact wellFormed.not_vacant ((flatten_perm before after file).mem_iff.mpr old) (allocates.vacant clusNum new)
  · have nodup := (flatten_perm before after file).nodup_iff.mp wellFormed.nodup
    have untouched : ∀ clusNum ∈ (before ++ file :: after).flatten,
        clusNum ∉ file.getLast? -> fatAfter.getNextClusNum clusNum = fat.getNextClusNum clusNum := by
      intro clusNum member other
      refine allocates.unchanged clusNum (wellFormed.proper clusNum member).2 ?_
      intro changed
      rcases mem_append.mp changed with attached | new
      · exact other (Option.mem_toList.mp attached)
      · exact wellFormed.not_vacant member (allocates.vacant clusNum new)
    intro chain member
    by_cases extended : chain = file ++ allocated
    · subst extended
      refine threads.extend (nodup_append.mp nodup).1 ?_ allocates.linked ?_
      · intro clusNum inside other
        exact untouched clusNum (owned clusNum inside) other
      · intro clusNum final
        refine allocates.ended clusNum ?_
        rw [getLast?_append] at final ⊢
        cases ending : file.getLast? <;> simpa [ending] using final
    · rcases mem_others member extended file with ⟨unchanged, present⟩
      refine (wellFormed.threads chain present).congr ?_
      intro clusNum inside
      refine untouched clusNum (mem_flatten.mpr ⟨chain, present, inside⟩) ?_
      intro final
      exact (nodup_append.mp nodup).2.2 clusNum (mem_of_getLast? final) clusNum
        (mem_flatten.mpr ⟨chain, unchanged, inside⟩) rfl

/-- What freeing a tail does to the allocator's record and to the entries. -/
theorem Sound.freed {keep tail clusterList : List Nat}
    (sound : Sound ⟨fat, before ++ (keep ++ tail) :: after⟩) (perm : clusterList.Perm tail) :
    (fat.free clusterList keep.getLast?).Ready /\
      (∀ clusNum ∈ (fat.free clusterList keep.getLast?).vacantClus,
        clusNum ∈ clusterList \/ clusNum ∈ fat.vacantClus) /\
      ∀ clusNum, Proper clusNum -> clusNum ∉ clusterList ->
        (fat.free clusterList keep.getLast?).getNextClusNum clusNum =
          if clusNum ∈ keep.getLast? then eoc else fat.getNextClusNum clusNum := by
  rcases sound with ⟨wellFormed, ready⟩
  have own : keep ++ tail ∈ before ++ (keep ++ tail) :: after := by simp
  have nodup := (flatten_perm before after (keep ++ tail)).nodup_iff.mp wellFormed.nodup
  have parts := nodup_append.mp (nodup_append.mp nodup).1
  have owned : ∀ clusNum ∈ keep ++ tail,
      clusNum ∈ (before ++ (keep ++ tail) :: after).flatten :=
    fun clusNum member => mem_flatten.mpr ⟨keep ++ tail, own, member⟩
  have listed : ∀ clusNum ∈ clusterList, clusNum ∈ keep ++ tail :=
    fun clusNum member => mem_append_right keep (perm.mem_iff.mp member)
  rcases ready.foldl_freeOne (perm.nodup_iff.mpr parts.2.1)
    (fun clusNum member => wellFormed.proper clusNum (owned clusNum (listed clusNum member)))
    (fun clusNum member inside =>
      wellFormed.not_vacant (owned clusNum (listed clusNum member)) (ready.vacant clusNum inside)) with
    ⟨freed, stacked, entry⟩
  have attachable : (clusterList.foldl Fat.freeOne fat).Attachable keep.getLast? := by
    intro clusNum final
    have kept := mem_of_getLast? final
    refine ⟨wellFormed.proper clusNum (owned clusNum (mem_append_left _ kept)), ?_⟩
    intro inside
    rcases stacked clusNum inside with new | old
    · exact parts.2.2 clusNum kept clusNum (perm.mem_iff.mp new) rfl
    · exact wellFormed.not_vacant (owned clusNum (mem_append_left _ kept)) (ready.vacant clusNum old)
  refine ⟨freed.setNextClus attachable (Nat.le_refl eoc), ?_, ?_⟩
  · rw [Fat.free, setNextClus_vacantClus]
    exact stacked
  · intro clusNum proper outside
    rw [Fat.free, getNextClusNum_setNextClus_option _ (fun current final => (attachable current final).1.2)
      proper.2 (Nat.le_refl eoc), entry clusNum proper.2, if_neg outside]

theorem Sound.free {keep tail clusterList : List Nat}
    (sound : Sound ⟨fat, before ++ (keep ++ tail) :: after⟩) (perm : clusterList.Perm tail) :
    Sound ⟨fat.free clusterList keep.getLast?, before ++ keep :: after⟩ := by
  rcases sound.freed perm with ⟨freed, _, final_entry⟩
  rcases sound with ⟨wellFormed, _⟩
  have own : keep ++ tail ∈ before ++ (keep ++ tail) :: after := by simp
  have nodup := (flatten_perm before after (keep ++ tail)).nodup_iff.mp wellFormed.nodup
  have parts := nodup_append.mp (nodup_append.mp nodup).1
  have listed : ∀ clusNum ∈ clusterList, clusNum ∈ keep ++ tail :=
    fun clusNum member => mem_append_right keep (perm.mem_iff.mp member)
  have still : ∀ clusNum ∈ (before ++ keep :: after).flatten,
      clusNum ∈ (before ++ (keep ++ tail) :: after).flatten /\ clusNum ∉ clusterList := by
    intro clusNum member
    rw [(flatten_perm before after keep).mem_iff, mem_append] at member
    rw [(flatten_perm before after (keep ++ tail)).mem_iff, mem_append, mem_append]
    rcases member with kept | other
    · exact ⟨.inl (.inl kept), fun gone => parts.2.2 clusNum kept clusNum (perm.mem_iff.mp gone) rfl⟩
    · refine ⟨.inr other, ?_⟩
      intro gone
      exact (nodup_append.mp nodup).2.2 clusNum (listed clusNum gone) clusNum other rfl
  refine ⟨⟨?_, ?_, ?_⟩, freed⟩
  · intro clusNum member
    exact wellFormed.proper clusNum (still clusNum member).1
  · rw [(flatten_perm before after keep).nodup_iff]
    rw [append_assoc] at nodup
    refine nodup.sublist ?_
    exact (List.Sublist.refl keep).append (sublist_append_right tail _)
  · intro chain member
    have present : ∀ clusNum ∈ chain, clusNum ∈ (before ++ keep :: after).flatten :=
      fun clusNum inside => mem_flatten.mpr ⟨chain, member, inside⟩
    by_cases shortened : chain = keep
    · subst shortened
      refine (wellFormed.threads _ own).cut parts.1 ?_ ?_
      · intro clusNum inside other
        have here := still clusNum (present clusNum inside)
        rw [final_entry clusNum (wellFormed.proper clusNum here.1) here.2, if_neg other]
      · intro clusNum final
        have here := still clusNum (present clusNum (mem_of_getLast? final))
        rw [final_entry clusNum (wellFormed.proper clusNum here.1) here.2, if_pos final]
        decide
    · rcases mem_others member shortened (keep ++ tail) with ⟨other, old⟩
      refine (wellFormed.threads chain old).congr ?_
      intro clusNum inside
      have here := still clusNum (present clusNum inside)
      have apart : clusNum ∉ keep.getLast? := by
        intro final
        exact (nodup_append.mp nodup).2.2 clusNum
          (mem_append_left _ (mem_of_getLast? final)) clusNum
          (mem_flatten.mpr ⟨chain, other, inside⟩) rfl
      rw [final_entry clusNum (wellFormed.proper clusNum here.1) here.2, if_neg apart]

theorem Sound.step {before after : FatVolume} {op : Op} (sound : before.Sound)
    (taken : AdmittedStep before op after) : after.Sound := by
  rcases taken with ⟨admitted, taken⟩
  cases taken with
  | create fat files =>
    refine ⟨⟨by simpa using sound.1.proper, by simpa using sound.1.nodup, ?_⟩, sound.2⟩
    intro file member
    rcases mem_cons.mp member with rfl | old
    · exact ⟨isChain_nil, nofun⟩
    · exact sound.1.threads file old
  | alloc fat earlier later file allocNum => exact (Sound.alloc sound admitted).2.2
  | free fat earlier later keep tail clusterList perm => exact Sound.free sound perm

/-- On a well-formed volume the walk over a file ends and returns the file. -/
theorem WellFormed.getAllClusNum (wellFormed : volume.WellFormed) {first : Nat}
    {rest : List Nat} (member : first :: rest ∈ volume.files) {fuel : Nat} (enough : rest.length < fuel) :
    volume.fat.getAllClusNum fuel first = some (first :: rest) := by
  refine (wellFormed.threads _ member).walk_eq ?_ ?_ enough
  · intro value mark
    exact .inr (.inr mark)
  · intro clusNum inside
    have proper := wellFormed.proper clusNum
      (mem_flatten.mpr ⟨_, member, mem_cons_of_mem _ inside⟩)
    rintro (bad | free | mark)
    · exact ne_of_lt proper.2 bad
    · exact ne_of_gt proper.1 free
    · exact absurd (proper.2.trans_le (by decide : badBlock <= fatEntryReservedToEnd)) (not_lt.mpr mark)

/-- From any well-formed table whose reserved entry is not free, every run of
admitted steps keeps the volume well formed.  In it the walk over each file ends
with the file, and each further admitted allocation returns fresh clusters, all
that were asked for unless nothing was free, links them and ends the chain. -/
theorem allocates_in_admitted_run {layout : FatLayout} {cache : Nat -> Nat -> Nat} {files : List (List Nat)} (wellFormed : WellFormed ⟨Fat.new layout cache, files⟩)
    (reserved : ¬ (Fat.new layout cache).Vacant 0)
    (run : Reached AdmittedStep ⟨Fat.new layout cache, files⟩ volume) :
    volume.WellFormed /\
      (∀ first rest, first :: rest ∈ volume.files -> ∀ fuel, rest.length < fuel ->
        volume.fat.getAllClusNum fuel first = some (first :: rest)) /\
      ∀ file ∈ volume.files, ∀ allocNum, volume.fat.AdmitsAlloc allocNum ->
        ((volume.fat.alloc allocNum file.getLast?).1.length = allocNum \/
          volume.fat.Exhausted /\ (volume.fat.alloc allocNum file.getLast?).1 = []) /\
        Allocates volume.fat file.getLast? (volume.fat.alloc allocNum file.getLast?).1
          (volume.fat.alloc allocNum file.getLast?).2 := by
  have initial : Sound ⟨Fat.new layout cache, files⟩ :=
    ⟨wellFormed, nodup_nil, nofun, nofun, Nat.zero_le _, reserved⟩
  have sound : volume.Sound := run.invariant initial (fun _ _ _ held taken => held.step taken)
  refine ⟨sound.1, fun first rest member fuel enough => sound.1.getAllClusNum member enough, ?_⟩
  intro file member allocNum admitted
  rcases append_of_mem member with ⟨before, after, files_eq⟩
  rcases volume with ⟨fat, files⟩
  subst files_eq
  have result := Sound.alloc sound admitted
  exact ⟨result.1, result.2.1⟩

/-- A walk over a file that leads into an entry referring to itself never ends. -/
theorem getAllClusNum_eq_none_of_self {first clusNum : Nat}
    (onward : fat.getNextClusNum first = clusNum) (self : fat.getNextClusNum clusNum = clusNum)
    (going : ¬ Stops clusNum) (fuel : Nat) : fat.getAllClusNum fuel first = none := by
  cases fuel with
  | zero => rfl
  | succ fuel => rw [Fat.getAllClusNum, walk, onward, if_neg going, walk_eq_none_of_self self going, Option.map_none]

theorem reservedSectors_lt : 32 < 2 ^ 16 := by decide

/-- A table of `totEnt` entries whose first `used` ones are end marks. -/
def smallTable (totEnt used : Nat) (small : totEnt <= badBlock) : Fat :=
  Fat.new ⟨32, 512, totEnt, reservedSectors_lt, by decide, by decide, by decide, small⟩
    (fun sector offset => if sector = 32 /\ offset < 4 * used then eoc else fatEntryFree)

theorem smallTable_wellFormed (totEnt : Nat) (small : totEnt <= badBlock) :
    WellFormed ⟨smallTable totEnt 3 small, [[2]]⟩ where
  proper := by
    intro clusNum member
    rw [show clusNum = 2 by simpa using member]
    decide
  nodup := by simp
  threads := by
    intro file member
    rw [show file = [2] by simpa using member]
    refine ⟨isChain_singleton 2, ?_⟩
    intro clusNum final
    rw [show clusNum = 2 from (Option.some.inj final).symm]
    simp [EndMark, smallTable, Fat.new, getNextClusNum, thisFatSecNum, thisFatEntOffset, eoc,
      fatEntryReservedToEnd]

/-- A file of one cluster on a table with room grows by two clusters. -/
theorem allocates_two_behind_root :
    ∃ volume, Reached AdmittedStep ⟨smallTable 8 3 (by decide), [[2]]⟩ volume /\
      volume.fat.getAllClusNum 3 2 = some [2, 3, 4] := by
  have admitted : (smallTable 8 3 (by decide)).AdmitsAlloc 2 := .inr (.inr ⟨by decide, nofun⟩)
  have taken : AdmittedStep ⟨smallTable 8 3 (by decide), [[2]]⟩ (.alloc 2 (some 2)) _ :=
    ⟨admitted, Step.alloc (smallTable 8 3 (by decide)) [] [] [2] 2⟩
  have run := Reached.refl.next taken
  refine ⟨_, run, ?_⟩
  exact (allocates_in_admitted_run (smallTable_wellFormed 8 (by decide)) (by decide) run).2.1 2 [3, 4]
    (by decide) 3 (by decide)

/-- Without the condition: with one free cluster left, asking for two returns it
twice, and asking for three leaves an entry that refers to itself, so that the
walk over the file never ends. -/
theorem alloc_returns_pending_cluster_again :
    ¬ (∀ (layout : FatLayout) (cache : Nat -> Nat -> Nat) (files : List (List Nat)) (volume : FatVolume),
      WellFormed ⟨Fat.new layout cache, files⟩ -> ¬ (Fat.new layout cache).Vacant 0 ->
      Reached Step ⟨Fat.new layout cache, files⟩ volume ->
      ∀ file ∈ volume.files, ∀ allocNum,
        (volume.fat.alloc allocNum file.getLast?).1.Nodup) /\
    ¬ (∀ (layout : FatLayout) (cache : Nat -> Nat -> Nat) (files : List (List Nat)) (volume : FatVolume),
      WellFormed ⟨Fat.new layout cache, files⟩ -> ¬ (Fat.new layout cache).Vacant 0 ->
      Reached Step ⟨Fat.new layout cache, files⟩ volume ->
      ∀ file ∈ volume.files, ∀ first ∈ file.head?,
        ∃ fuel, (volume.fat.getAllClusNum fuel first).isSome = true) := by
  constructor
  · intro distinct
    have nodup := distinct _ _ _ _ (smallTable_wellFormed 4 (by decide)) (by decide) Reached.refl [2]
      (by simp) 2
    exact absurd nodup (by decide)
  · intro ends
    have run := Reached.refl.next (Step.alloc (smallTable 4 3 (by decide)) [] [] [2] 3)
    rcases ends _ _ _ _ (smallTable_wellFormed 4 (by decide)) (by decide) run [2, 3, 3] (by decide) 2 rfl with
      ⟨fuel, finished⟩
    have onward : (((smallTable 4 3 (by decide)).alloc 3 (some 2)).2.getNextClusNum 2) = 3 := by decide
    have self : (((smallTable 4 3 (by decide)).alloc 3 (some 2)).2.getNextClusNum 3) = 3 := by decide
    have stuck := getAllClusNum_eq_none_of_self onward self (by decide) fuel
    rw [show FatVolume.fat _ = ((smallTable 4 3 (by decide)).alloc 3 (some 2)).2 from rfl, stuck] at finished
    exact Bool.noConfusion finished

end FatVolume

end GCore.Fs
