import GCore.Mm.MemorySet

namespace GCore.Mm

open PageTable GCore.Mm.LinearMap

/-!
# What a page fault can do

The handler has many branches, but it changes one page at most: it records a frame for
the page and gives it an entry with the permission of the area.  `Resolved` lists the
ways in which it does so, with the surroundings that each of them asks for and the
content that has to be put into the frame.  Later modules argue by cases on it and do
not open the handler again.
-/

variable {afterTable table : PageTable} {vpn : Nat}

namespace PageTable

theorem set_set (table : PageTable) (vpn : Nat) (first second : Option Pte) :
    (table.set vpn first).set vpn second = table.set vpn second := by
  unfold set
  congr 1
  funext index
  by_cases same : index = slot vpn
  · rw [if_pos same, if_pos same]
  · rw [if_neg same, if_neg same]
    exact if_neg same

theorem translate_eq_some_iff (table : PageTable) (vpn ppn : Nat) :
    table.translate vpn = some ppn ↔ ∃ perm, table.findPte vpn = some ⟨ppn, perm⟩ := by
  unfold PageTable.translate
  constructor
  · intro translated
    rcases Option.map_eq_some_iff.mp translated with ⟨pte, entry, rfl⟩
    exact ⟨pte.perm, entry⟩
  · rintro ⟨perm, entry⟩
    rw [entry]
    rfl

theorem map_of_unmapped (unmapped : table.findPte vpn = none) (ppn : Nat)
    (flags : MapPermission) : table.map vpn ppn flags = some (table.set vpn (some ⟨ppn, flags⟩)) :=
  map_eq_some_iff.mpr ⟨unmapped, rfl⟩

end PageTable

variable {frame : Frame} {ppn : Nat} {inner : LinearMap}

namespace MapArea

/-- The area with `frame` recorded for a page; the queue of active pages and the
counters may be anything. -/
structure Records (area : MapArea) (vpn : Nat) (frame : Frame) (after : MapArea) : Prop where
  start_eq : after.start = area.start
  stop_eq : after.stop = area.stop
  perm_eq : after.mapPerm = area.mapPerm
  stripped_eq : after.writableStripped = area.writableStripped
  file_eq : after.mapFile = area.mapFile
  frame_eq : ∀ other, after.frame? other = if other = vpn then some frame else area.frame? other

variable {vpn : Nat} {area after : MapArea} {table : PageTable} (records : Records area vpn frame after)

include records

theorem Records.holds_iff (other : Nat) : after.Holds other ↔ area.Holds other := by
  rw [Holds, Holds, records.start_eq, records.stop_eq]

theorem Records.frame_same : after.frame? vpn = some frame := by
  rw [records.frame_eq, if_pos rfl]

theorem Records.frame_other {other : Nat} (different : other ≠ vpn) : after.frame? other = area.frame? other := by
  rw [records.frame_eq, if_neg different]

omit records

/-- The second of two records for a page counts. -/
theorem Records.trans {middle : MapArea} {first second : Frame}
    (earlier : Records area vpn first middle) (later : Records middle vpn second after) :
    Records area vpn second after := by
  refine ⟨later.start_eq.trans earlier.start_eq, later.stop_eq.trans earlier.stop_eq,
    later.perm_eq.trans earlier.perm_eq, later.stripped_eq.trans earlier.stripped_eq,
    later.file_eq.trans earlier.file_eq, ?_⟩
  intro other
  rw [later.frame_eq]
  by_cases same : other = vpn
  · rw [if_pos same, if_pos same]
  · rw [if_neg same, if_neg same, earlier.frame_other same]

/-- An area records what it records, whatever its queue and its counters are. -/
theorem Records.same (area : MapArea) (record : area.frame? vpn = some frame)
    (active : List Nat) : Records area vpn frame { area with inner := { area.inner with active := active } } := by
  refine ⟨rfl, rfl, rfl, rfl, rfl, ?_⟩
  intro other
  by_cases same : other = vpn
  · rw [if_pos same, same]
    exact record
  · rw [if_neg same]
    rfl

theorem Records.set (area : MapArea) (held : area.Holds vpn) (frame : Frame) (active : List Nat)
    (compressed swapped : Nat) :
    Records area vpn frame { area with
      inner := { area.inner with
        frames := area.inner.frames.set (vpn - area.start) frame
        active := active
        compressed := compressed
        swapped := swapped } } := by
  refine ⟨rfl, ?_, rfl, rfl, rfl, fun other => area.inner.frame?_set held.1 held.2 frame active other⟩
  change area.inner.start + (area.inner.frames.set (vpn - area.start) frame).length = area.inner.stop
  rw [List.length_set]
  rfl

/-- Areas that differ in the queue and the counters only. -/
structure Alike (area after : MapArea) : Prop where
  start_eq : after.start = area.start
  stop_eq : after.stop = area.stop
  perm_eq : after.mapPerm = area.mapPerm
  stripped_eq : after.writableStripped = area.writableStripped
  file_eq : after.mapFile = area.mapFile
  frame_eq : ∀ vpn, after.frame? vpn = area.frame? vpn

theorem Alike.refl (area : MapArea) : Alike area area := ⟨rfl, rfl, rfl, rfl, rfl, fun _ => rfl⟩

theorem Records.alike (records : Records area vpn frame after)
    (record : area.frame? vpn = some frame) : Alike area after := by
  refine ⟨records.start_eq, records.stop_eq, records.perm_eq, records.stripped_eq, records.file_eq, ?_⟩
  intro other
  by_cases same : other = vpn
  · rw [same, records.frame_same, record]
  · exact records.frame_other same

theorem allocInMemory_records (inside : area.start <= vpn)
    (taken : area.inner.allocInMemory vpn ppn = some inner) :
    area.frame? vpn = some .unallocated /\ Records area vpn (.inMemory ppn) { area with inner := inner } := by
  have spec := allocInMemory_eq_some inside taken
  exact ⟨spec.1, spec.2.1, spec.2.2.1, rfl, rfl, rfl, spec.2.2.2⟩

theorem mapFrame_eq_ok (inside : area.start <= vpn) (done : area.mapFrame table vpn ppn = .ok (after, afterTable)) :
    area.frame? vpn = some .unallocated /\ table.findPte vpn = none /\
      Records area vpn (.inMemory ppn) after /\ afterTable = table.set vpn (some ⟨ppn, area.mapPerm⟩) := by
  unfold mapFrame at done
  split at done
  · cases done
  · next inner taken =>
    split at done
    · cases done
    · next mappedTable mapped =>
      cases done
      have spec := allocInMemory_records inside taken
      have entry := map_eq_some_iff.mp mapped
      exact ⟨spec.1, entry.1, spec.2, entry.2⟩

/-- A page that is neither recorded nor mapped can be given a frame. -/
theorem mapFrame_isOk (ppn : Nat)
    (record : area.frame? vpn = some .unallocated) (unmapped : table.findPte vpn = none) :
    ∃ result, area.mapFrame table vpn ppn = .ok result := by
  have free := (frame?_eq_some_iff.mp record).2
  simp only [mapFrame, allocInMemory, if_pos free, map_of_unmapped unmapped]
  exact ⟨_, rfl⟩

end MapArea

open MapArea

/-- The ways in which the handler gives a page of an area a frame, with what the page
was before and the content for the frame. -/
inductive MapArea.Placed (area : MapArea) (table : PageTable) (vpn : Nat) (env : FaultEnv) : Frame -> Nat -> Fill -> Prop
  /-- the only owner of a frame gets the permission of the area back -/
  | upgraded {pte : Pte} (entry : table.findPte vpn = some pte) (alone : env.strongCount = 1) :
      Placed area table vpn env (.inMemory pte.ppn) pte.ppn .none
  /-- one of several owners gets a frame of its own -/
  | copied {pte : Pte} {ppn : Nat} (entry : table.findPte vpn = some pte) (shared : env.strongCount ≠ 1)
      (given : env.frame = some ppn) : Placed area table vpn env (.inMemory pte.ppn) ppn (.copy pte.ppn ppn)
  /-- the first access to an anonymous page -/
  | zeroed {ppn : Nat} (anonymous : area.mapFile = none) (given : env.frame = some ppn) :
      Placed area table vpn env .unallocated ppn (.zero ppn)
  /-- the first access to a page of a writable mapping of a file -/
  | loaded {ppn : Nat} {file : MapFile} (backed : area.mapFile = some file) (writable : area.mapPerm.w = true)
      (given : env.frame = some ppn) :
      Placed area table vpn env .unallocated ppn (.file file.ino (file.offset + (vpn - area.start) * pageSize) ppn)
  /-- the first access to a page of a mapping of a file that cannot be written -/
  | cached {ppn : Nat} {file : MapFile} (backed : area.mapFile = some file) (readOnly : area.mapPerm.w = false)
      (given : env.cachePage = some ppn) : Placed area table vpn env .unallocated ppn .none
  | unzipped {id ppn : Nat} (anonymous : area.mapFile = none) (given : env.frame = some ppn) :
      Placed area table vpn env (.compressed id) ppn (.unzip id ppn)
  | swappedIn {id ppn : Nat} (anonymous : area.mapFile = none) (given : env.frame = some ppn) :
      Placed area table vpn env (.swappedOut id) ppn (.swapIn id ppn)

/-- The ways in which the handler deals with a fault on a page of an area: the result,
the area and the table after it, and the content for the frame. -/
inductive Resolved (area : MapArea) (table : PageTable) (vpn : Nat) (env : FaultEnv) :
    Except MemoryError Nat -> MapArea -> PageTable -> Fill -> Prop
  /-- nothing but the queue changes -/
  | refused {error : MemoryError} {frame : Frame} {after : MapArea} (record : area.frame? vpn = some frame)
      (records : Records area vpn frame after) : Resolved area table vpn env (.error error) after table .none
  | placed {old : Frame} {ppn : Nat} {fill : Fill} {after : MapArea} (record : area.frame? vpn = some old)
      (placed : area.Placed table vpn env old ppn fill) (records : Records area vpn (.inMemory ppn) after) :
      Resolved area table vpn env (.ok ppn) after (table.set vpn (some ⟨ppn, area.mapPerm⟩)) fill

/-- The handler leaves the area and the table as they are, or it gives the page a frame
and an entry with the permission of the area. -/
theorem Resolved.refused_or_placed {area after : MapArea}
    {env : FaultEnv} {result : Except MemoryError Nat} {fill : Fill}
    (resolved : Resolved area table vpn env result after afterTable fill) :
    (Alike area after /\ afterTable = table /\ fill = .none /\ ∃ error, result = .error error) \/
      (area.Holds vpn /\ ∃ ppn, result = .ok ppn /\ Records area vpn (.inMemory ppn) after /\
        afterTable = table.set vpn (some ⟨ppn, area.mapPerm⟩)) := by
  cases resolved with
  | refused record records => exact .inl ⟨records.alike record, rfl, rfl, _, rfl⟩
  | placed record _ records => exact .inr ⟨holds_of_frame? record, _, rfl, records, rfl⟩

/-- An entry of a page of the area leads to the frame that the area records. -/
def Backed (area : MapArea) (table : PageTable) (vpn : Nat) : Prop :=
  ∀ pte, table.findPte vpn = some pte -> area.frame? vpn = some (.inMemory pte.ppn)

namespace MapArea

variable {area after : MapArea} {table afterTable : PageTable} {vpn : Nat} {env : FaultEnv}
  {result : Except MemoryError Nat} {fill : Fill} {panic : Panic}

/-- Taking the frame of a resident page leaves the page without a record. -/
theorem removeInMemory_records (record : area.frame? vpn = some (.inMemory ppn)) :
    ∃ inner, area.inner.removeInMemory vpn = (some ppn, inner) /\
      Records area vpn .unallocated { area with inner := inner } := by
  refine ⟨_, removeInMemory_of_inMemory record, ?_⟩
  exact Records.set area (holds_of_frame? record) .unallocated _ _ _

/-- Without a resident frame the page is reported as not mapped. -/
theorem copyOnWrite_of_absent (record : area.frame? vpn = some frame) (absent : ∀ ppn, frame ≠ .inMemory ppn) :
    ∃ after, area.copyOnWrite table vpn env = .ok (.error .notMapped, after, table, .none) /\
      Records area vpn frame after := by
  have held := holds_of_frame? record
  have removed : area.inner.removeInMemory vpn = (none, { area.inner with active := area.inner.forget vpn }) := by
    refine removeInMemory_of_other held.1 (fun ppn resident => absent ppn ?_)
    exact Option.some.inj (record.symm.trans resident)
  refine ⟨_, ?_, Records.same area record (area.inner.forget vpn)⟩
  simp only [copyOnWrite, removed]

theorem copyOnWrite_resolved (backed : Backed area table vpn) (mapped : table.isMapped vpn = true)
    (done : area.copyOnWrite table vpn env = .ok (result, after, afterTable, fill)) :
    Resolved area table vpn env result after afterTable fill := by
  rcases (table.isMapped_iff vpn).mp mapped with ⟨pte, entry⟩
  have record := backed pte entry
  rcases removeInMemory_records record with ⟨inner, removed, emptied⟩
  have inside : ({ area with inner := inner } : MapArea).start <= vpn := by
    rw [emptied.start_eq]
    exact (holds_of_frame? record).1
  simp only [copyOnWrite, removed] at done
  by_cases alone : env.strongCount = 1
  · rw [if_pos alone] at done
    split at done
    · cases done
    · next refilled taken =>
      have records := emptied.trans (allocInMemory_records inside taken).2
      simp only [setPteFlags, entry] at done
      cases done
      exact .placed record (.upgraded entry alone) records
  · rw [if_neg alone] at done
    split at done
    · cases done
    · next ppn given =>
      split at done
      · cases done
      · next pair remapped =>
        have spec := mapFrame_eq_ok inside remapped
        cases done
        rw [spec.2.2.2, PageTable.unmap, PageTable.set_set]
        exact .placed record (.copied entry alone given) (emptied.trans spec.2.2.1)

/-- With a resident frame and an entry for it, only the allocator can fail, for a page that is shared. -/
theorem copyOnWrite_error {pte : Pte} (entry : table.findPte vpn = some pte)
    (record : area.frame? vpn = some (.inMemory pte.ppn))
    (failed : area.copyOnWrite table vpn env = .error panic) :
    panic = .outOfFrames /\ env.strongCount ≠ 1 /\ env.frame = none := by
  rcases removeInMemory_records record with ⟨_, removed, emptied⟩
  have free := (frame?_eq_some_iff.mp emptied.frame_same).2
  simp only [copyOnWrite, removed] at failed
  by_cases alone : env.strongCount = 1
  · rw [if_pos alone, allocInMemory, if_pos free] at failed
    simp [setPteFlags, entry] at failed
  · rw [if_neg alone] at failed
    cases given : env.frame with
    | none => exact ⟨by simpa [given, eq_comm] using failed, alone, rfl⟩
    | some ppn =>
      have unmapped : (table.unmap vpn).findPte vpn = none := findPte_set_same table vpn none
      rcases mapFrame_isOk ppn emptied.frame_same unmapped with ⟨_, remapped⟩
      simp [given, remapped] at failed

end MapArea

namespace MemorySet

variable {area after : MapArea} {table afterTable : PageTable} {vpn : Nat} {env : FaultEnv}
  {result : Except MemoryError Nat} {fill : Fill} {panic : Panic} (held : area.Holds vpn)

include held

theorem restore_eq_ok {restored : Fill}
    (frames_eq : inner.frames = area.inner.frames) (start_eq : inner.start = area.inner.start)
    (done : restore area table vpn ppn inner restored = .ok (result, after, afterTable, fill)) :
    table.findPte vpn = none /\ result = .ok ppn /\ Records area vpn (.inMemory ppn) after /\
      afterTable = table.set vpn (some ⟨ppn, area.mapPerm⟩) /\ fill = restored := by
  unfold restore at done
  split at done
  · cases done
  · next mappedTable mapped =>
    have entry := map_eq_some_iff.mp mapped
    cases done
    refine ⟨entry.1, rfl, ?_, entry.2, rfl⟩
    have records := Records.set area held (.inMemory ppn)
      (inner.active ++ [byteIndex (vpn - area.start)]) inner.compressed inner.swapped
    rw [frames_eq]
    cases inner
    cases start_eq
    exact records

theorem faultFile_resolved {file : MapFile} (backing : area.mapFile = some file) (record : area.frame? vpn = some frame)
    (done : faultFile area table vpn file env = .ok (result, after, afterTable, fill)) :
    Resolved area table vpn env result after afterTable fill := by
  unfold faultFile at done
  dsimp only at done
  split at done
  · cases done
    exact .refused record (Records.same area record area.inner.active)
  · split at done
    · next writable =>
      cases given : env.frame with
      | none =>
        simp only [given] at done
        cases done
        exact .refused record (Records.same area record area.inner.active)
      | some ppn =>
        cases mapped : area.mapFrame table vpn ppn with
        | error panic => simp [given, mapped] at done
        | ok pair =>
          have spec := mapFrame_eq_ok held.1 mapped
          simp only [given, mapped] at done
          cases done
          rw [spec.2.2.2]
          exact .placed spec.1 (.loaded backing writable given) spec.2.2.1
    · next readOnly =>
      split at done
      · cases done
      · next ppn given =>
        split at done
        · cases done
        · next pair mapped =>
          have spec := mapFrame_eq_ok held.1 mapped
          cases done
          rw [spec.2.2.2]
          exact .placed spec.1 (.cached backing (by simpa using readOnly) given) spec.2.2.1

theorem faultAnonymous_resolved (anonymous : area.mapFile = none)
    (done : faultAnonymous area table vpn env = .ok (result, after, afterTable, fill)) :
    Resolved area table vpn env result after afterTable fill := by
  unfold faultAnonymous at done
  cases record : area.frame? vpn with
  | none => simp [record] at done
  | some frame =>
    cases given : env.frame with
    | none =>
      cases frame with
      | inMemory ppn => simp [record] at done
      | compressed id | swappedOut id => simp [record, given] at done
      | unallocated =>
        simp only [record, given] at done
        cases done
        exact .refused record (Records.same area record area.inner.active)
    | some ppn =>
      cases frame with
      | inMemory ppn => simp [record] at done
      | compressed id =>
        simp only [record, given] at done
        rcases restore_eq_ok held (by rfl) (by rfl) done with ⟨_, rfl, records, rfl, rfl⟩
        exact .placed record (.unzipped anonymous given) records
      | swappedOut id =>
        simp only [record, given] at done
        rcases restore_eq_ok held (by rfl) (by rfl) done with ⟨_, rfl, records, rfl, rfl⟩
        exact .placed record (.swappedIn anonymous given) records
      | unallocated =>
        cases mapped : area.mapFrame table vpn ppn with
        | error panic => simp [record, given, mapped] at done
        | ok pair =>
          have spec := mapFrame_eq_ok held.1 mapped
          simp only [record, given, mapped] at done
          cases done
          rw [spec.2.2.2]
          exact .placed spec.1 (.zeroed anonymous given) spec.2.2.1

/-- Whatever the handler does with a page of an area is one of the ways listed. -/
theorem faultIn_resolved (backed : Backed area table vpn)
    (done : faultIn area table vpn env = .ok (result, after, afterTable, fill)) :
    Resolved area table vpn env result after afterTable fill := by
  rcases held.exists_frame with ⟨_, record⟩
  unfold faultIn at done
  split at done
  · next mapped =>
    split at done
    · cases done
      exact .refused record (Records.same area record area.inner.active)
    · exact copyOnWrite_resolved backed mapped done
  · cases backing : area.mapFile with
    | some file =>
      simp only [backing] at done
      exact faultFile_resolved held backing record done
    | none =>
      simp only [backing] at done
      exact faultAnonymous_resolved held backing done

omit held

variable (record : area.frame? vpn = some frame) (agrees : table.translate vpn = frame.ppn?)

include record agrees

/-- Where the area and the table agree about a page, and the pages of a file are never
put aside, the handler fails for want of a frame or of a page of the file only. -/
theorem faultIn_error (filed : area.mapFile.isSome = true -> frame = .unallocated \/ ∃ ppn, frame = .inMemory ppn)
    (failed : faultIn area table vpn env = .error panic) : panic = .outOfFrames \/ panic = .noCachePage := by
  unfold faultIn at failed
  cases entry : table.findPte vpn with
  | some pte =>
    have resident : frame = .inMemory pte.ppn := by
      have translated : frame.ppn? = some pte.ppn := by
        rw [<- agrees, PageTable.translate, entry]
        rfl
      cases frame <;> simp_all [Frame.ppn?]
    rw [if_pos ((table.isMapped_iff vpn).mpr ⟨pte, entry⟩)] at failed
    split at failed
    · cases failed
    · exact .inl (copyOnWrite_error entry (record.trans (congrArg some resident)) failed).1
  | none =>
    have absent : frame.ppn? = none := by
      rw [<- agrees, PageTable.translate, entry]
      rfl
    rw [if_neg (by rw [(table.isMapped_eq_false_iff vpn).mpr entry]; exact Bool.false_ne_true)] at failed
    cases backing : area.mapFile with
    | some file =>
      have free : area.frame? vpn = some .unallocated := by
        rcases filed (by rw [backing]; rfl) with rfl | ⟨ppn, rfl⟩
        · exact record
        · exact nomatch absent
      simp only [backing, faultFile] at failed
      split at failed
      · cases failed
      · split at failed
        · split at failed
          · cases failed
          · next ppn given =>
            rcases mapFrame_isOk ppn free entry with ⟨pair, mapped⟩
            simp [mapped] at failed
        · cases given : env.cachePage with
          | none => simp_all
          | some ppn =>
            rcases mapFrame_isOk ppn free entry with ⟨pair, mapped⟩
            simp [given, mapped] at failed
    | none =>
      simp only [backing, faultAnonymous, record] at failed
      cases given : env.frame with
      | none => cases frame <;> simp_all [Frame.ppn?]
      | some ppn =>
        cases frame with
        | inMemory ppn => exact nomatch absent
        | compressed id | swappedOut id => simp [given, restore, map_of_unmapped entry] at failed
        | unallocated =>
          rcases mapFrame_isOk ppn record entry with ⟨pair, mapped⟩
          simp [given, mapped] at failed

/-- With a frame at hand, a page of an anonymous area that is not mapped is brought in. -/
theorem faultIn_anonymous (anonymous : area.mapFile = none)
    (unmapped : table.findPte vpn = none) (given : env.frame = some ppn) :
    ∃ after afterTable fill,
      faultIn area table vpn env = .ok (.ok ppn, after, afterTable, fill) := by
  have absent : frame.ppn? = none := by
    rw [<- agrees, PageTable.translate, unmapped]
    rfl
  have missing : ¬ table.isMapped vpn = true := by
    rw [(table.isMapped_eq_false_iff vpn).mpr unmapped]
    exact Bool.false_ne_true
  unfold faultIn
  rw [if_neg missing]
  simp only [anonymous, faultAnonymous, record]
  cases frame with
  | inMemory other => exact nomatch absent
  | compressed id | swappedOut id =>
    simp only [given, restore, map_of_unmapped unmapped]
    exact ⟨_, _, _, rfl⟩
  | unallocated =>
    rcases mapFrame_isOk ppn record unmapped with ⟨⟨after, afterTable⟩, mapped⟩
    simp only [given, mapped]
    exact ⟨after, afterTable, _, rfl⟩

end MemorySet

end GCore.Mm
