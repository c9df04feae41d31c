import GCore.Fs.FatContents
import GCore.Fs.FatDirEnt

namespace GCore.Fs

open Library List Option

/-!
# Dropping an inode

When an inode is dropped, then its size and its first cluster are to be written to its short
entry in the parent directory.  `drop` reads the entry, changes a copy of it, and writes
the entry back that it has read.  The pages of the inode go with it, and what they hold is
not written to the device.

So the entry carries the right values only if it had them before, and opening the file
again gives the same contents only if the sectors had them before.
-/

namespace FatInode

/-- The first cluster, which is zero for a file without clusters. -/
def firstClus (inode : FatInode) : Nat := inode.clusList.head?.getD 0

/-- The copy of an entry with the new size and first cluster. -/
def renewed (inode : FatInode) (shortDirEnt : FATDirEnt) : FATDirEnt :=
  (shortDirEnt.setFileSize inode.size).setFstClus inode.firstClus

/-- `Drop for FatInode`, with the parent directory and the offset of the entry in it.  The file
system and the parent are what is left.  The copy of the entry is computed and not used. -/
def drop (inode : FatInode) (deleted : Bool) (parentDir : Option (OwnState × Nat)) (frames : Frames) :
    Option (EasyFileSystem × Option OwnState) :=
  if deleted then some ((inode.deallocClus inode.clusList.length).fs, parentDir.map Prod.fst)
  else
    match parentDir with
    | none => some (inode.fs, none)
    | some (own, offset) =>
      let parent : FatInode := { toOwnState := own, fs := inode.fs }
      (parent.getDirEnt frames offset).bind (fun (found, parent) =>
        found.bind (fun dirEnt =>
          dirEnt.getShortEnt.bind (fun shortDirEnt =>
            let _renewed := inode.renewed shortDirEnt
            (parent.setDirEnt frames offset dirEnt).bind (fun (stored, parent) =>
              stored.map (fun _ => (parent.fs, some parent.toOwnState))))))

/-- `FatInode::new` for a file: the clusters are found by a walk, which has no bound in the
source. -/
def new (fs : EasyFileSystem) (fuel fstClus : Nat) (size : Option Nat) : Option FatInode :=
  (if fstClus = 0 then some [] else fs.fat.getAllClusNum fuel fstClus).map (fun clusList =>
    { size := size.getD (clusList.length * fs.geometry.clusSize % 2 ^ 32), clusList := clusList, hint := 0,
      fileCacheMgr := .new, fs := fs })

def fromFatEnt (fs : EasyFileSystem) (fuel : Nat) (ent : FATDirEnt) : Option FatInode :=
  new fs fuel ent.getFirstClus (if ent.isFile then some ent.fileSize else none)

/-- The bytes of the sectors, without the pages in memory. -/
def onDevice (inode : FatInode) : Memory := FatInode.row { inode with fileCacheMgr := .new }

/-- What is to be left of a file that has been dropped: its entry has the size and the first
cluster, the other entries are as they were, and the file can be opened with its contents. -/
structure Persisted (child : FatInode) (before after : FatInode) (offset : Nat) : Prop where
  size : (after.entry offset).fileSize = child.size
  firstClus : (after.entry offset).getFirstClus = child.firstClus
  others : ∀ place < before.size, ¬ (offset <= place /\ place < offset + stepSize) ->
    after.row place = before.row place
  reopened : ∀ fuel, child.clusList.length < fuel -> ∃ again,
    fromFatEnt after.fs fuel (after.entry offset) = some again /\ again.size = child.size /\
      ∀ place < child.size, again.row place = child.row place

variable {earlier later : List (List Nat)} {parent after : FatInode}

/-- A row that is stored over itself. -/
theorem store_load_same (memory : Memory) (offset length : Nat) :
    memory.store offset (memory.load offset length) = memory := by
  funext place
  by_cases own : offset <= place /\ place < offset + (memory.load offset length).length
  · have index : place = offset + (place - offset) := by omega
    have inside : place - offset < length := by
      rw [Memory.length_load] at own
      omega
    rw [index, Memory.store_inside _ _ (by rw [Memory.length_load]; exact inside), Memory.getD_load _ _ inside]
  · exact Memory.store_outside _ own

/-- The drop writes back the entry that it has read. -/
theorem Stored.drop (stored : Stored earlier later parent) (child : FatInode) (system : child.fs = parent.fs)
    (frames : Frames) {offset : Nat} (inside : offset + stepSize <= parent.size)
    (short : (parent.entry offset).isLong = false) :
    ∃ after : FatInode,
      child.drop false (some (parent.toOwnState, offset)) frames = some (after.fs, some after.toOwnState) /\
        Operated earlier later parent after /\ after.size = parent.size /\
        ∀ place < parent.size, after.row place = parent.row place := by
  have whole : ({ toOwnState := parent.toOwnState, fs := child.fs } : FatInode) = parent := by rw [system]
  rcases stored.getDirEnt frames inside with ⟨_, read, operated, size, row⟩
  rcases operated.stored.setDirEnt frames (parent.entry offset) (by rw [size]; exact inside) with
    ⟨after, written, finished, sameSize, newRow⟩
  have kept : ∀ place < parent.size, after.row place = parent.row place := by
    intro place below
    have agree := store_agree row offset (parent.entry offset).bytes place (by rw [size]; exact below)
    rw [newRow place (by rw [sameSize, size]; exact below), agree]
    exact congrFun (store_load_same parent.row offset stepSize) place
  refine ⟨after, ?_, operated.trans finished, sameSize.trans size, kept⟩
  unfold FatInode.drop
  rw [if_neg Bool.false_ne_true]
  dsimp only
  rw [whole, read, bind_some]
  rw [bind_some, FATDirEnt.getShortEnt, short, if_neg Bool.false_ne_true, bind_some, written, bind_some, map_some]

/-- The walk from the first cluster of a file gives its clusters. -/
theorem Table.new {fs : EasyFileSystem} {files : List (List Nat)} (table : Table fs files) {child : FatInode}
    (member : child.clusList ∈ files) {fuel : Nat} (enough : child.clusList.length < fuel) (size : Nat) :
    new fs fuel child.firstClus (some size) =
      some { size := size, clusList := child.clusList, hint := 0, fileCacheMgr := .new, fs := fs } := by
  unfold FatInode.new firstClus
  cases clusters : child.clusList with
  | nil => rfl
  | cons first rest =>
    rw [clusters] at member enough
    have low := (table.inside first (mem_flatten.mpr ⟨_, member, mem_cons_self⟩)).1
    have walk := table.sound.1.getAllClusNum member (Nat.lt_of_succ_lt enough)
    rw [head?_cons, getD_some, if_neg (by omega), walk, map_some]
    rfl

end FatInode

namespace MountedVolume

open FatInode

variable {volume : MountedVolume} {contents : Nat -> Contents} {file dir offset : Nat} {child parent : FatInode}

theorem isLong_of_isFile {ent : FATDirEnt} (regular : ent.isFile = true) : ent.isLong = false := by
  unfold FATDirEnt.isFile at regular
  unfold FATDirEnt.isLong
  simp only [Bool.or_eq_true, beq_iff_eq] at regular
  rcases regular with ((same | same) | same) | same <;> rw [same] <;> decide

/-- A file that is dropped is there afterwards exactly if its entry had the size and the first
cluster before, and its sectors had its bytes. -/
theorem drop_persists_iff (holds : volume.Holds contents) (opened : volume.inode file = some child)
    (directory : volume.inode dir = some parent) (different : file ≠ dir)
    (inside : offset + stepSize <= parent.size) (regular : (parent.entry offset).isFile = true) (frames : Frames) :
    ∃ after : FatInode,
      child.drop false (some (parent.toOwnState, offset)) frames = some (after.fs, some after.toOwnState) /\
        (Persisted child parent after offset ↔
          (parent.entry offset).fileSize = child.size /\ (parent.entry offset).getFirstClus = child.firstClus /\
            ∀ place < child.size, child.onDevice place = child.row place) := by
  rcases inode_eq_some directory with ⟨system, earlier, later, parts, place⟩
  have childSystem := (inode_eq_some opened).1
  have stored := holds.stored directory parts
  rcases stored.drop child (childSystem.trans system.symm) frames inside (isLong_of_isFile regular) with
    ⟨after, dropped, operated, size, row⟩
  have sameEntry : after.entry offset = parent.entry offset := by
    unfold FatInode.entry
    congr 1
    refine Memory.load_congr ?_
    intro index small
    exact row (offset + index) (by omega)
  have member : child.toOwnState.clusList ∈
      earlier.map (fun own => own.clusList) ++ later.map (fun own => own.clusList) := by
    rcases map_eq_some_iff.mp opened with ⟨own, found, same⟩
    cases same
    rw [parts] at found
    rw [<- map_append]
    exact mem_map_of_mem (mem_of_other found (by rw [place]; exact different))
  have listed : child.clusList ∈ earlier.map (fun own => own.clusList) ++
      after.clusList :: later.map (fun own => own.clusList) := by
    rw [mem_append] at member ⊢
    rcases member with early | late
    · exact .inl early
    · exact .inr (mem_cons_of_mem _ late)
  have again : ∀ fuel, child.clusList.length < fuel -> (parent.entry offset).getFirstClus = child.firstClus ->
      ∃ inode : FatInode, fromFatEnt after.fs fuel (after.entry offset) = some inode /\
        inode.size = (parent.entry offset).fileSize /\ ∀ place, inode.row place = child.onDevice place := by
    intro fuel enough first
    refine ⟨{ size := (parent.entry offset).fileSize
              clusList := child.clusList
              hint := 0
              fileCacheMgr := .new
              fs := after.fs }, ?_, rfl, ?_⟩
    · unfold fromFatEnt
      rw [sameEntry, regular, if_pos rfl, first]
      exact Table.new operated.stored.table listed enough _
    · intro place
      have kept := @Operated.foreign _ _ _ _ operated { child.toOwnState with fileCacheMgr := .new } member place
      rw [show parent.fs = child.fs from system.trans childSystem.symm] at kept
      refine Eq.trans ?_ kept
      exact row_congr rfl rfl (fun _ _ => rfl)
  refine ⟨after, dropped, ?_, ?_⟩
  · intro persisted
    have sameSize := persisted.size
    have first := persisted.firstClus
    rw [sameEntry] at sameSize first
    refine ⟨sameSize, first, ?_⟩
    intro place below
    rcases again _ (Nat.lt_succ_self _) first with ⟨inode, found, _, sectors⟩
    rcases persisted.reopened _ (Nat.lt_succ_self _) with ⟨reopened, same, _, bytes⟩
    rw [found] at same
    cases same
    rw [<- sectors place, bytes place below]
  · rintro ⟨sameSize, first, written⟩
    refine ⟨by rw [sameEntry]; exact sameSize, by rw [sameEntry]; exact first, fun place below _ => row place below, ?_⟩
    intro fuel enough
    rcases again fuel enough first with ⟨inode, found, newSize, sectors⟩
    refine ⟨inode, found, newSize.trans sameSize, ?_⟩
    intro place below
    rw [sectors place, written place below]

/-- The entry of a file of one byte in the third cluster. -/
def smallEntry : List Byte :=
  [65, 32, 32, 32, 32, 32, 32, 32, 32, 32, 32, 32, 0, 0, 0, 0, 0, 0, 0, 0, 0, 0, 0, 0, 0, 0, 3, 0, 1, 0, 0, 0]

def smallDirectory : OwnState := ⟨⟨4096, [2], 32⟩, .new⟩

def smallFile : OwnState := ⟨⟨1, [3], 0⟩, .new⟩

/-- A volume with a directory and a file, whose entry comes first in the directory. -/
def volumeWithFile : MountedVolume where
  fs :=
    { geometry := smallGeometry
      fat := Fat.new smallLayout (fun sector offset => if sector = 32 /\ offset < 16 then eoc else fatEntryFree)
      blockDevice := fun sector place => if sector = 64 then smallEntry.getD place 0 else 7 }
  inodes := [smallDirectory, smallFile]

/-- The contents that the files of a volume have. -/
def presentContents (volume : MountedVolume) (file : Nat) : Contents :=
  match volume.inode file with
  | some inode => ⟨inode.size, fun place => if place < inode.size then inode.row place else 0⟩
  | none => ⟨0, fun _ => 0⟩

theorem volumeWithFile_inodes {own : OwnState} (member : own ∈ volumeWithFile.inodes) :
    own = smallDirectory \/ own = smallFile := by
  simpa [volumeWithFile] using member

theorem volumeWithFile_holds : volumeWithFile.Holds (presentContents volumeWithFile) where
  table :=
    { sound := ⟨⟨by decide, by decide, by
        intro file member
        have either : file = [2] \/ file = [3] := by simpa [volumeWithFile, smallDirectory, smallFile] using member
        rcases either with rfl | rfl
        · exact ⟨isChain_singleton _, by decide⟩
        · exact ⟨isChain_singleton _, by decide⟩⟩, nodup_nil, forall_mem_nil _, forall_mem_nil _, Nat.zero_le _, by decide⟩
      count := rfl
      reserved := by decide
      stack := forall_mem_nil _
      inside := by decide }
  listed := by
    intro own member
    rcases volumeWithFile_inodes member with rfl | rfl
    · exact ⟨nodup_nil, forall_mem_nil _⟩
    · exact ⟨nodup_nil, forall_mem_nil _⟩
  full := by
    intro own member
    rcases volumeWithFile_inodes member with rfl | rfl <;> decide
  size_lt := by
    intro own member
    rcases volumeWithFile_inodes member with rfl | rfl <;> decide
  shown := by
    intro file inode opened
    rw [presentContents, opened]
    exact ⟨rfl, fun place inside => (if_pos inside).symm, fun place behind => if_neg (not_lt.mpr behind)⟩

theorem opened_smallDirectory : volumeWithFile.inode 0 = some ⟨smallDirectory, volumeWithFile.fs⟩ := rfl

theorem opened_smallFile : volumeWithFile.inode 1 = some ⟨smallFile, volumeWithFile.fs⟩ := rfl

/-- The file as it is on the volume at first can be dropped. -/
theorem drop_keeps_unchanged_file :
    ∃ after : FatInode,
      FatInode.drop ⟨smallFile, volumeWithFile.fs⟩ false (some (smallDirectory, 0)) amplePages =
          some (after.fs, some after.toOwnState) /\
        Persisted ⟨smallFile, volumeWithFile.fs⟩ ⟨smallDirectory, volumeWithFile.fs⟩ after 0 := by
  rcases drop_persists_iff volumeWithFile_holds opened_smallFile opened_smallDirectory (by decide)
    (show 0 + stepSize <= 4096 by decide) (by decide +kernel) amplePages with ⟨after, dropped, persists⟩
  exact ⟨after, dropped, persists.mpr ⟨by decide +kernel, by decide +kernel, fun _ _ => rfl⟩⟩

/-- Without the condition: a byte is written behind the end of the file, whose entry had the
right size and cluster, and the entry still has the old size after the drop. -/
theorem drop_writes_old_entry :
    ¬ (∀ (start state : MountedVolume × (Nat -> Contents)) (file dir offset : Nat)
        (child parent opened directory : FatInode) (frames : Frames),
      start.1.Holds start.2 -> file ≠ dir -> start.1.inode file = some opened -> start.1.inode dir = some directory ->
      (directory.entry offset).isFile = true -> (directory.entry offset).fileSize = opened.size ->
      (directory.entry offset).getFirstClus = opened.firstClus ->
      Reached (Guarded Admits Step) start state ->
      state.1.inode file = some child -> state.1.inode dir = some parent -> offset + stepSize <= parent.size ->
      ∃ after : FatInode,
        child.drop false (some (parent.toOwnState, offset)) frames = some (after.fs, some after.toOwnState) /\
          Persisted child parent after offset) := by
  intro claim
  have evaluated : (FatInode.exec ⟨smallFile, volumeWithFile.fs⟩ amplePages (.write 1 [66])).any (fun child =>
      child.size == 2 && (child.drop false (some (smallDirectory, 0)) amplePages).any (fun left =>
        left.2.any (fun own => (FatInode.entry ⟨own, left.1⟩ 0).fileSize == 1))) = true := by
    decide +kernel
  rcases (any_eq_true _ _).mp evaluated with ⟨child, done, facts⟩
  rw [Bool.and_eq_true, beq_iff_eq] at facts
  have admitted : Admits (volumeWithFile, presentContents volumeWithFile) ⟨1, amplePages, .write 1 [66]⟩ := by
    intro inode found
    cases found
    exact ⟨le_rfl, fun _ => ⟨by decide, .inl (by decide)⟩⟩
  have taken : Step (volumeWithFile, presentContents volumeWithFile) ⟨1, amplePages, .write 1 [66]⟩ _ :=
    .call opened_smallFile (show (1 : Nat) < 2 ^ 63 by decide) done
  rcases claim _ _ 1 0 0 child ⟨smallDirectory, child.fs⟩ _ _ amplePages volumeWithFile_holds (by decide) opened_smallFile
    opened_smallDirectory (by decide +kernel) (by decide +kernel) (by decide +kernel) (.next .refl ⟨admitted, taken⟩) rfl rfl
    (show 0 + stepSize <= 4096 by decide) with ⟨after, dropped, persisted⟩
  rcases (any_eq_true _ _).mp facts.2 with ⟨left, same, old⟩
  rw [dropped] at same
  cases same
  rw [any_some, beq_iff_eq] at old
  have size := persisted.size
  rw [facts.1] at size
  exact absurd (old.symm.trans size) (by decide)

end MountedVolume

end GCore.Fs
