import GCore.Fs.FatResize

namespace GCore.Fs

open Library List Option Function

/-!
# What reads of FAT files return

A mounted volume has any number of open files.  The calls on them write, change the size
and read, and pages are dropped in between.  The contents that a file should have are a row
of bytes that is zero behind the size: a write stores its bytes, and a change of the size
cuts the row off.

A write behind the end of the file, and a growth without clearing, show bytes that an
earlier owner of the clusters has left, or that were cut off before.  In all runs without
these the reads return the contents, and the number of clusters is the size rounded up.
The allocations have to be such that the table serves them, and the sizes so small that
rounding up does not leave the 32 bits.
-/

/-- The bytes that a file should have; they are zero behind the size. -/
structure Contents where
  size : Nat
  bytes : Memory

namespace Contents

variable (contents : Contents)

def write (offset : Nat) (buf : List Byte) : Contents where
  size := max contents.size (offset + buf.length)
  bytes := contents.bytes.store offset buf

def resize (newSize : Nat) : Contents where
  size := newSize
  bytes := fun place => if place < newSize then contents.bytes place else 0

def read (offset length : Nat) : List Byte :=
  contents.bytes.load offset (min (offset + length) contents.size - offset)

end Contents

inductive FileOp where
  | write (offset : Nat) (buf : List Byte)
  | modifySize (diff : Int) (clear : Bool)
  | read (offset length : Nat)
  | oom

/-- Buffers have less than half of the address space. -/
def FileOp.Valid : FileOp -> Prop
  | .write _ buf => buf.length < 2 ^ 63
  | .read _ length => length < 2 ^ 63
  | _ => True

def Contents.exec (contents : Contents) : FileOp -> Contents
  | .write offset buf => contents.write offset buf
  | .modifySize diff _ => contents.resize (contents.size + diff).toNat
  | .read _ _ => contents
  | .oom => contents

namespace FatInode

def exec (inode : FatInode) (frames : Frames) : FileOp -> Option FatInode
  | .write offset buf => (inode.writeAtBlockCacheLock frames offset buf).map Prod.snd
  | .modifySize diff clear => inode.modifySizeLock frames diff clear
  | .read offset length => (inode.readAtBlockCache frames offset length).map Prod.snd
  | .oom => inode.oom

/-- The calls that show no bytes from before: a write does not begin behind the end, and a
growth is cleared.  The sizes leave room for a cluster in 32 bits, and the table serves the
clusters that are needed. -/
def Admits (inode : FatInode) : FileOp -> Prop
  | .write offset buf => offset <= inode.size /\ inode.ServesWrite offset buf.length
  | .modifySize diff clear =>
    0 <= inode.size + diff /\ inode.size + inode.fs.geometry.clusSize <= 2 ^ 32 /\
      (0 < diff -> clear = true /\ (inode.size + diff).toNat + inode.fs.geometry.clusSize <= 2 ^ 32 /\
        inode.fs.fat.Serves (inode.fs.geometry.clusters (inode.size + diff).toNat -
          inode.fs.geometry.clusters inode.size))
  | .read _ _ => True
  | .oom => True

/-- The file has the contents that it should have. -/
structure Shows (inode : FatInode) (contents : Contents) : Prop where
  size : inode.size = contents.size
  row : ∀ place < inode.size, inode.row place = contents.bytes place
  zero : ∀ place, contents.size <= place -> contents.bytes place = 0

variable {earlier later : List (List Nat)} {inode after : FatInode} {contents : Contents}
  (shown : Shows inode contents)

include shown

theorem Shows.congr (size : after.size = inode.size)
    (row : ∀ place < after.size, after.row place = inode.row place) : Shows after contents where
  size := size.trans shown.size
  row := fun place inside => (row place inside).trans (shown.row place (size ▸ inside))
  zero := shown.zero

theorem Shows.write {offset : Nat} {buf : List Byte} (reaches : offset <= inode.size)
    (size : after.size = inode.sizeAfter offset buf.length)
    (row : ∀ place < after.size, after.row place = inode.row.store offset buf place) :
    Shows after (contents.write offset buf) where
  size := by
    rw [size, sizeAfter, shown.size]
    rfl
  row := by
    intro place inside
    rw [row place inside]
    change _ = contents.bytes.store offset buf place
    rw [size, sizeAfter] at inside
    by_cases own : offset <= place /\ place < offset + buf.length
    · unfold Memory.store
      rw [if_pos own, if_pos own]
    · rw [Memory.store_outside _ own, Memory.store_outside _ own]
      exact shown.row place (by omega)
  zero := by
    intro place behind
    change max contents.size (offset + buf.length) <= place at behind
    change contents.bytes.store offset buf place = 0
    rw [Memory.store_outside _ (by omega)]
    exact shown.zero place (by omega)

theorem Shows.resize {newSize : Nat} (size : after.size = newSize)
    (old : ∀ place < newSize, place < inode.size -> after.row place = inode.row place)
    (new : ∀ place < newSize, inode.size <= place -> after.row place = 0) :
    Shows after (contents.resize newSize) where
  size := size
  row := by
    intro place inside
    rw [size] at inside
    change _ = if place < newSize then contents.bytes place else 0
    rw [if_pos inside]
    by_cases within : place < inode.size
    · rw [old place inside within, shown.row place within]
    · have behind : inode.size <= place := Nat.le_of_not_lt within
      rw [new place inside behind, shown.zero place (by rw [<- shown.size]; exact behind)]
  zero := by
    intro place behind
    exact if_neg (not_lt.mpr behind)

/-- One call that is admitted returns, and the file has the contents that it should have. -/
theorem Shows.exec (stored : Stored earlier later inode) (frames : Frames) {op : FileOp}
    (valid : op.Valid) (admitted : inode.Admits op) :
    ∃ after, inode.exec frames op = some after /\ Operated earlier later inode after /\
      Shows after (contents.exec op) := by
  cases op with
  | write offset buf =>
    rcases stored.writeAtBlockCacheLock frames admitted.2 with ⟨after, written, operated, size, row⟩
    refine ⟨after, ?_, operated, shown.write admitted.1 size ?_⟩
    · rw [FatInode.exec, written, map_some]
    · intro place inside
      have reaches := admitted.1
      exact row place inside (by omega)
  | modifySize diff clear =>
    rcases admitted with ⟨_, small, growth⟩
    have diff_eq : diff = ((inode.size + diff).toNat : Int) - inode.size := by omega
    have spec : contents.exec (.modifySize diff clear) = contents.resize (inode.size + diff).toNat := by
      rw [Contents.exec, shown.size]
    rw [spec, FatInode.exec]
    generalize (inode.size + diff).toNat = newSize at *
    subst diff_eq
    by_cases grows : (0 : Int) < newSize - inode.size
    · rcases growth grows with ⟨cleared, fits, serves⟩
      rcases stored.modifySizeLock_grow frames (by omega) fits serves clear with
        ⟨after, modified, operated, size, kept, zero⟩
      refine ⟨after, modified, operated, shown.resize size ?_ ?_⟩
      · intro place _ within
        exact kept place within
      · intro place inside behind
        exact zero cleared place behind inside
    · have smaller : newSize <= inode.size := by omega
      rcases stored.modifySizeLock_shrink frames smaller small clear with ⟨after, modified, operated, size, kept⟩
      refine ⟨after, modified, operated, shown.resize size ?_ ?_⟩
      · intro place inside _
        exact kept place inside
      · intro place inside behind
        omega
  | read offset length =>
    rcases stored.readAtBlockCache frames offset valid with ⟨after, read, operated, size, row⟩
    refine ⟨after, ?_, operated, shown.congr size row⟩
    rw [FatInode.exec, read, map_some]
  | oom =>
    rcases stored.placed.oom with ⟨after, swept, becomes⟩
    refine ⟨after, swept, stored.becomes becomes, shown.congr becomes.size ?_⟩
    intro place inside
    rw [becomes.size] at inside
    exact becomes.row place (inside.trans_le stored.room)

end FatInode

/-! ## Runs over all files of a volume -/

/-- The file system with what each open file holds of its own. -/
structure MountedVolume where
  fs : EasyFileSystem
  inodes : List OwnState

/-- A call on one of the files. -/
structure FileCall where
  file : Nat
  frames : Frames
  op : FileOp

namespace MountedVolume

section Operations

variable (volume : MountedVolume)

def inode (file : Nat) : Option FatInode :=
  volume.inodes[file]?.map (fun own => { toOwnState := own, fs := volume.fs })

def put (file : Nat) (inode : FatInode) : MountedVolume :=
  ⟨inode.fs, volume.inodes.set file inode.toOwnState⟩

/-- The volume is in order, and all files have the contents that they should have. -/
structure Holds (contents : Nat -> Contents) : Prop where
  table : Table volume.fs (volume.inodes.map (fun own => own.clusList))
  listed : ∀ own ∈ volume.inodes, own.fileCacheMgr.Listed
  full : ∀ own ∈ volume.inodes, own.clusList.length = volume.fs.geometry.clusters own.size
  size_lt : ∀ own ∈ volume.inodes, own.size < 2 ^ 32
  shown : ∀ file inode, volume.inode file = some inode -> inode.Shows (contents file)

end Operations

/-- A call takes the volume and the contents that it should have along. -/
inductive Step : MountedVolume × (Nat -> Contents) -> FileCall -> MountedVolume × (Nat -> Contents) -> Prop
  | call {volume : MountedVolume} {contents : Nat -> Contents} {call : FileCall} {inode after : FatInode}
      (opened : volume.inode call.file = some inode) (valid : call.op.Valid)
      (done : inode.exec call.frames call.op = some after) :
      Step (volume, contents) call
        (volume.put call.file after,
          update contents call.file ((contents call.file).exec call.op))

def Admits (state : MountedVolume × (Nat -> Contents)) (call : FileCall) : Prop :=
  ∀ inode, state.1.inode call.file = some inode -> inode.Admits call.op

variable {volume : MountedVolume} {contents : Nat -> Contents} {file : Nat} {inode after : FatInode}

/-- A file with those before and behind it. -/
theorem inode_eq_some (opened : volume.inode file = some inode) :
    inode.fs = volume.fs /\ ∃ earlier later,
      volume.inodes = earlier ++ inode.toOwnState :: later /\ earlier.length = file := by
  rcases map_eq_some_iff.mp opened with ⟨_, found, same⟩
  cases same
  rcases List.getElem?_eq_some_iff.mp found with ⟨_, here⟩
  refine ⟨rfl, volume.inodes.take file, volume.inodes.drop (file + 1), ?_, ?_⟩
  · rw [<- here, getElem_cons_drop, take_append_drop]
  · rw [length_take]
    omega

variable {earlier later : List OwnState}

/-- The other files are before or behind it. -/
theorem mem_of_other {own other : OwnState} {index : Nat}
    (found : (earlier ++ own :: later)[index]? = some other) (different : index ≠ earlier.length) :
    other ∈ earlier ++ later := by
  rcases lt_or_ge index earlier.length with early | late
  · rw [getElem?_append_left early] at found
    exact mem_append_left _ (mem_of_getElem? found)
  · have behind : index - earlier.length = index - earlier.length - 1 + 1 := by omega
    rw [getElem?_append_right late, behind, getElem?_cons_succ] at found
    exact mem_append_right _ (mem_of_getElem? found)

theorem Holds.stored (holds : volume.Holds contents) (opened : volume.inode file = some inode)
    (parts : volume.inodes = earlier ++ inode.toOwnState :: later) :
    inode.Stored (earlier.map (fun own => own.clusList)) (later.map (fun own => own.clusList)) := by
  have system := (inode_eq_some opened).1
  have member : inode.toOwnState ∈ volume.inodes := by
    rw [parts]
    simp
  have table := holds.table
  rw [parts, map_append, map_cons, <- system] at table
  exact ⟨table, holds.listed _ member, by rw [system]; exact holds.full _ member, holds.size_lt _ member⟩

/-- A call on one file keeps all of them. -/
theorem Holds.put (holds : volume.Holds contents) (opened : volume.inode file = some inode)
    (parts : volume.inodes = earlier ++ inode.toOwnState :: later)
    (place : earlier.length = file) {shown : Contents}
    (operated : FatInode.Operated (earlier.map (fun own => own.clusList)) (later.map (fun own => own.clusList)) inode after)
    (showing : after.Shows shown) : (volume.put file after).Holds (update contents file shown) := by
  have system := (inode_eq_some opened).1
  have replaced : (volume.put file after).inodes = earlier ++ after.toOwnState :: later := by
    change volume.inodes.set file _ = _
    rw [parts, <- place, set_append_right _ _ le_rfl, Nat.sub_self, set_cons_zero]
  have others : ∀ own ∈ (volume.put file after).inodes, own = after.toOwnState \/ own ∈ volume.inodes := by
    intro own member
    rw [replaced, mem_append, mem_cons] at member
    rw [parts, mem_append, mem_cons]
    rcases member with early | same | late
    · exact .inr (.inl early)
    · exact .inl same
    · exact .inr (.inr (.inr late))
  have geometry : after.fs.geometry = volume.fs.geometry := by
    rw [operated.geometry, system]
  refine ⟨?_, ?_, ?_, ?_, ?_⟩
  · rw [replaced, map_append, map_cons]
    exact operated.stored.table
  · intro own member
    rcases others own member with rfl | old
    · exact operated.stored.listed
    · exact holds.listed own old
  · intro own member
    change _ = after.fs.geometry.clusters own.size
    rcases others own member with rfl | old
    · exact operated.stored.full
    · rw [geometry]
      exact holds.full own old
  · intro own member
    rcases others own member with rfl | old
    · exact operated.stored.size_lt
    · exact holds.size_lt own old
  · intro other inode' found
    rcases map_eq_some_iff.mp found with ⟨own, here, same⟩
    subst same
    change (volume.inodes.set file after.toOwnState)[other]? = some own at here
    by_cases equal : other = file
    · subst equal
      rw [update_self]
      have bound : other < volume.inodes.length := by
        rw [parts, length_append, length_cons]
        omega
      rw [getElem?_set_self bound] at here
      cases here
      exact showing
    · rw [update_of_ne equal]
      rw [getElem?_set_ne (fun same => equal same.symm)] at here
      have old := holds.shown other { toOwnState := own, fs := volume.fs } (by rw [MountedVolume.inode, here, map_some])
      refine old.congr rfl ?_
      intro spot _
      have member : own.clusList ∈ earlier.map (fun own => own.clusList) ++ later.map (fun own => own.clusList) := by
        rw [parts] at here
        rw [<- map_append]
        exact mem_map_of_mem (mem_of_other here (by rw [place]; exact equal))
      rw [<- system]
      exact operated.foreign member spot

theorem Holds.step {before after : MountedVolume × (Nat -> Contents)} {call : FileCall} (holds : before.1.Holds before.2)
    (taken : Guarded Admits Step before call after) : after.1.Holds after.2 := by
  rcases taken with ⟨admitted, taken⟩
  cases taken with
  | call opened valid done =>
    rcases (inode_eq_some opened).2 with ⟨_, _, parts, place⟩
    have stored := holds.stored opened parts
    rcases (holds.shown _ _ opened).exec stored _ valid (admitted _ opened) with ⟨_, returned, operated, shown⟩
    rw [done] at returned
    cases returned
    exact holds.put opened parts place operated shown

/-- In every run of admitted calls all files have the size and the number of clusters that
they should have, and every read of any of them returns the bytes that were written last, or
zero where nothing has been written.  A further call that is admitted returns. -/
theorem reads_return_contents_in_admitted_run {start state : MountedVolume × (Nat -> Contents)}
    (initial : start.1.Holds start.2) (run : Reached (Guarded Admits Step) start state) :
    (∀ file inode, state.1.inode file = some inode ->
      inode.size = (state.2 file).size /\
        inode.clusList.length = (inode.size + inode.fs.geometry.clusSize - 1) / inode.fs.geometry.clusSize /\
        ∀ frames offset length, length < 2 ^ 63 -> ∃ after,
          inode.readAtBlockCache frames offset length = some ((state.2 file).read offset length, after)) /\
      ∀ call, call.op.Valid -> (state.1.inode call.file).isSome -> Admits state call ->
        ∃ next, Step state call next := by
  have holds : state.1.Holds state.2 :=
    @Reached.invariant _ _ _ _ _ (fun state => state.1.Holds state.2) run initial
      (fun _ _ _ held taken => held.step taken)
  constructor
  · intro file inode opened
    rcases (inode_eq_some opened).2 with ⟨earlier, later, parts, _⟩
    have stored := holds.stored opened parts
    have shown := holds.shown file inode opened
    refine ⟨shown.size, stored.full, ?_⟩
    intro frames offset length short
    rcases stored.readAtBlockCache frames offset short with ⟨after, read, _⟩
    refine ⟨after, read.trans ?_⟩
    congr 2
    rw [shown.size]
    refine Memory.load_congr ?_
    intro index inside
    exact shown.row (offset + index) (by rw [shown.size]; omega)
  · intro call valid present admitted
    rcases isSome_iff_exists.mp present with ⟨inode, opened⟩
    rcases (inode_eq_some opened).2 with ⟨earlier, later, parts, _⟩
    rcases (holds.shown _ _ opened).exec (holds.stored opened parts) call.frames valid (admitted inode opened) with
      ⟨after, done, _⟩
    exact ⟨_, @Step.call state.1 state.2 call inode after opened valid done⟩

def smallGeometry : Geometry := ⟨64, 1, 4096, 8, by decide, by decide, rfl, by decide⟩

def smallLayout : FatLayout := ⟨32, 4096, 8, FatVolume.reservedSectors_lt, by decide, by decide, by decide, by decide⟩

/-- A volume of eight clusters with one empty file; all sectors of the device are full of
one byte. -/
def smallVolume : MountedVolume where
  fs :=
    { geometry := smallGeometry
      fat := Fat.new smallLayout (fun sector offset => if sector = 32 /\ offset < 12 then eoc else fatEntryFree)
      blockDevice := fun _ _ => 7 }
  inodes := [⟨⟨0, [], 0⟩, .new⟩]

def emptyContents : Nat -> Contents := fun _ => ⟨0, fun _ => 0⟩

theorem smallVolume_holds : smallVolume.Holds emptyContents where
  table :=
    { sound := ⟨⟨nofun, nodup_nil, by
        intro file member
        rw [mem_singleton.mp member]
        exact ⟨isChain_nil, nofun⟩⟩, nodup_nil, nofun, nofun, Nat.zero_le _, by decide⟩
      count := rfl
      reserved := by decide
      stack := nofun
      inside := nofun }
  listed := by
    intro own member
    rw [mem_singleton.mp member]
    exact ⟨nodup_nil, nofun⟩
  full := by
    intro own member
    rw [mem_singleton.mp member]
    decide
  size_lt := by
    intro own member
    rw [mem_singleton.mp member]
    decide
  shown := by
    intro file inode opened
    rcases map_eq_some_iff.mp opened with ⟨own, found, same⟩
    subst same
    rw [mem_singleton.mp (mem_of_getElem? found)]
    exact ⟨rfl, nofun, fun _ _ => rfl⟩

/-- Memory is never short, and new frames are zero. -/
def amplePages : Frames := ⟨fun _ _ => 0, fun _ => false⟩

/-- A byte written at the beginning of the empty file is read. -/
theorem first_byte_is_read : ∃ state : MountedVolume × (Nat -> Contents),
    Reached (Guarded Admits Step) (smallVolume, emptyContents) state /\
      ∃ inode, state.1.inode 0 = some inode /\ ∃ after,
        inode.readAtBlockCache amplePages 0 8 = some ([65], after) := by
  have opened : smallVolume.inode 0 = some ⟨⟨⟨0, [], 0⟩, .new⟩, smallVolume.fs⟩ := rfl
  have admitted : Admits (smallVolume, emptyContents) ⟨0, amplePages, .write 0 [65]⟩ := by
    intro inode found
    cases found
    exact ⟨le_rfl, fun _ => ⟨by decide, .inr ⟨by decide, nofun⟩⟩⟩
  have enough := (reads_return_contents_in_admitted_run smallVolume_holds .refl).2 ⟨0, amplePages, .write 0 [65]⟩
    (show (1 : Nat) < 2 ^ 63 by decide) rfl admitted
  rcases enough with ⟨state, taken⟩
  have run : Reached (Guarded Admits Step) (smallVolume, emptyContents) state := .next .refl ⟨admitted, taken⟩
  refine ⟨state, run, ?_⟩
  have reads := (reads_return_contents_in_admitted_run smallVolume_holds run).1
  cases taken with
  | call found valid done =>
    cases found
    rcases reads 0 _ rfl with ⟨_, _, read⟩
    refine ⟨_, rfl, ?_⟩
    exact read amplePages 0 8 (by decide)

/-- Without the condition: one byte written at the second place of the empty file, with
clusters left over, makes the byte in front of it one that the device had before. -/
theorem write_behind_end_shows_old_bytes :
    ¬ (∀ start state : MountedVolume × (Nat -> Contents), start.1.Holds start.2 ->
      Reached (Guarded (fun state _ => ¬ state.1.fs.fat.Exhausted) Step) start state ->
      ¬ state.1.fs.fat.Exhausted ->
      ∀ file inode, state.1.inode file = some inode ->
        ∀ frames offset length, length < 2 ^ 63 -> ∃ after,
          inode.readAtBlockCache frames offset length = some ((state.2 file).read offset length, after)) := by
  intro claim
  have opened : smallVolume.inode 0 = some ⟨⟨⟨0, [], 0⟩, .new⟩, smallVolume.fs⟩ := rfl
  have evaluated : ((FatInode.exec ⟨⟨⟨0, [], 0⟩, .new⟩, smallVolume.fs⟩ amplePages (.write 1 [65])).any (fun after =>
      decide (after.fs.fat.Vacant 5) && decide (after.fs.fat.layout.totEnt = 8) &&
        ((after.readAtBlockCache amplePages 0 1).map Prod.fst == some [7]))) = true := by
    decide +kernel
  rcases (any_eq_true _ _).mp evaluated with ⟨after, done, facts⟩
  rw [Bool.and_eq_true, Bool.and_eq_true, decide_eq_true_iff, decide_eq_true_iff, beq_iff_eq] at facts
  have room : ¬ smallVolume.fs.fat.Exhausted := fun exhausted => exhausted.2 5 (by decide) (by decide)
  have taken : Step (smallVolume, emptyContents) ⟨0, amplePages, .write 1 [65]⟩ _ :=
    .call opened (show (1 : Nat) < 2 ^ 63 by decide) done
  have left : ¬ (smallVolume.put 0 after).fs.fat.Exhausted := by
    intro exhausted
    exact exhausted.2 5 (by change 5 < after.fs.fat.layout.totEnt; rw [facts.1.2]; decide) facts.1.1
  rcases claim _ _ smallVolume_holds (.next .refl ⟨room, taken⟩) left 0 after rfl amplePages 0 1 (by decide) with
    ⟨last, read⟩
  have shown := facts.2
  rw [read, map_some, some.injEq] at shown
  change Contents.read (Contents.exec ⟨0, fun _ => 0⟩ (.write 1 [65])) 0 1 = [7] at shown
  exact absurd shown (by decide)

end MountedVolume

end GCore.Fs
