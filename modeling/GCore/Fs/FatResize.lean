import GCore.Fs.FatInode

namespace GCore.Fs

open Library List Option FatVolume FatInode

/-!
# Growing and shrinking files

The clusters of all files on a volume are threaded through the table, and they lie in the
data area.  `Table` says this for the file system and the lists of the files.  The
specifications of `modify_size_lock` and `write_at_block_cache_lock` are for one inode with
the lists of the files before and behind it.

The number of clusters is always the size rounded up.  The bytes below the old size are
kept; those of a write are the ones of the buffer; and what lies between the old size and
the offset of a write is not specified.
-/

namespace Fat

/-- Clusters come from the stack or from the entries that are scanned. -/
theorem allocOne_range {fat after : Fat} {last : Option Nat} {clusId : Nat} (ahead : fat.hint <= fat.layout.totEnt)
    (taken : fat.allocOne last = (some clusId, after)) :
    (clusId ∈ fat.vacantClus \/ clusId < fat.layout.totEnt) /\ after.layout = fat.layout /\
      after.hint <= fat.layout.totEnt /\ ∀ clus ∈ after.vacantClus, clus ∈ fat.vacantClus := by
  unfold allocOne at taken
  cases stack : fat.vacantClus with
  | cons top vacant =>
    rw [stack] at taken
    rcases Prod.mk.inj taken with ⟨same, rest⟩
    cases same
    cases rest
    simp only [setNextClus_layout, setNextClus_hint, setNextClus_vacantClus]
    exact ⟨.inl mem_cons_self, trivial, ahead, fun clus member => mem_cons_of_mem _ member⟩
  | nil =>
    rw [stack] at taken
    cases found : fat.getNextFreeClus fat.hint with
    | none =>
      rw [found] at taken
      cases taken
    | some free =>
      rw [found] at taken
      rcases Prod.mk.inj taken with ⟨same, rest⟩
      cases same
      cases rest
      have inside := (fat.getNextFreeClus_eq_some ahead found).1
      simp only [setNextClus_layout, setNextClus_hint, setNextClus_vacantClus]
      exact ⟨.inr inside, trivial, le_of_lt (Nat.mod_lt _ (by omega)), fun clus member => stack ▸ member⟩

variable {count : Nat} {fat : Fat}

theorem allocLoop_range {last : Option Nat} (ahead : fat.hint <= fat.layout.totEnt) :
    (∀ clus ∈ (allocLoop count fat last).1, clus ∈ fat.vacantClus \/ clus < fat.layout.totEnt) /\
      (allocLoop count fat last).2.2.layout = fat.layout /\
      ∀ clus ∈ (allocLoop count fat last).2.2.vacantClus, clus ∈ fat.vacantClus := by
  induction count generalizing fat last with
  | zero => exact ⟨forall_mem_nil _, rfl, fun _ member => member⟩
  | succ count ih =>
    rw [allocLoop]
    rcases taken : fat.allocOne last with ⟨chosen, after⟩
    cases chosen with
    | none =>
      have same : after = fat := by
        unfold allocOne at taken
        split at taken
        · cases taken
        · split at taken
          · cases taken
            rfl
          · cases taken
      rw [same]
      exact ⟨forall_mem_nil _, rfl, fun _ member => member⟩
    | some clusId =>
      rcases allocOne_range ahead taken with ⟨range, layout, hint, stack⟩
      have later := @ih after (some clusId) (by rw [layout]; exact hint)
      rw [layout] at later
      refine ⟨?_, later.2.1, fun clus member => stack clus (later.2.2 clus member)⟩
      intro clus member
      rcases mem_cons.mp member with rfl | rest
      · exact range
      · rcases later.1 clus rest with old | scanned
        · exact .inl (stack clus old)
        · exact .inr scanned

theorem alloc_range (ahead : fat.hint <= fat.layout.totEnt) (count : Nat) (last : Option Nat) :
    (∀ clus ∈ (fat.alloc count last).1, clus ∈ fat.vacantClus \/ clus < fat.layout.totEnt) /\
      (fat.alloc count last).2.layout = fat.layout /\
      ∀ clus ∈ (fat.alloc count last).2.vacantClus, clus ∈ fat.vacantClus := by
  have loop := @allocLoop_range count fat last ahead
  unfold alloc
  simp only [setNextClus_layout, setNextClus_vacantClus]
  exact loop

theorem free_layout (fat : Fat) (clusterList : List Nat) (last : Option Nat) :
    (fat.free clusterList last).layout = fat.layout := by
  rw [free, setNextClus_layout]
  induction clusterList generalizing fat with
  | nil => rfl
  | cons clusterId rest ih =>
    rw [foldl_cons, ih, freeOne]
    split
    · exact setNextClus_layout fat _ _
    · exact setNextClus_layout fat _ _

/-- An allocation that is served in full: the stack has enough clusters, or it has not and the
scan does not meet the last one of it. -/
def Serves (fat : Fat) (count : Nat) : Prop :=
  count <= fat.vacantClus.length \/
    count <= fat.vacantClus.length + (fat.candidates none).length /\ fat.FrontShadowed none

theorem Serves.admits (serves : fat.Serves count) : fat.AdmitsAlloc count := by
  rcases serves with listed | scanned
  · exact .inl listed
  · exact .inr (.inr scanned)

/-- If nothing is free, then nothing is asked for. -/
theorem Serves.of_exhausted (serves : fat.Serves count) (exhausted : fat.Exhausted) :
    count = 0 := by
  have nothing : fat.candidates none = [] := by
    rw [eq_nil_iff_forall_not_mem]
    intro clusNum member
    rcases mem_candidates.mp member with ⟨inside, vacant, _⟩
    exact exhausted.2 clusNum inside vacant
  unfold Serves at serves
  rw [exhausted.1, nothing, length_nil] at serves
  omega

end Fat

/-- The table threads the clusters of the files, and all clusters in use or on the stack
are in the data area.  The two reserved entries are not free. -/
structure Table (fs : EasyFileSystem) (files : List (List Nat)) : Prop where
  sound : FatVolume.Sound ⟨fs.fat, files⟩
  count : fs.fat.layout.totEnt = fs.geometry.clusterCount
  reserved : ¬ fs.fat.Vacant 1
  stack : ∀ clus ∈ fs.fat.vacantClus, clus < fs.geometry.clusterCount + 2
  inside : ∀ clus ∈ files.flatten, 2 <= clus /\ clus < fs.geometry.clusterCount + 2

namespace Table

variable {fs : EasyFileSystem} {earlier later : List (List Nat)} {file keep tail : List Nat}

theorem mem_of_own {clus : Nat} (own : clus ∈ file) : clus ∈ (earlier ++ file :: later).flatten :=
  mem_flatten.mpr ⟨file, by simp, own⟩

theorem alloc {allocNum : Nat} (table : Table fs (earlier ++ file :: later)) (serves : fs.fat.Serves allocNum) :
    (fs.fat.alloc allocNum file.getLast?).1.length = allocNum /\
      Table { fs with fat := (fs.fat.alloc allocNum file.getLast?).2 }
        (earlier ++ (file ++ (fs.fat.alloc allocNum file.getLast?).1) :: later) := by
  rcases table.sound.alloc serves.admits with ⟨length, allocates, sound⟩
  rcases Fat.alloc_range table.sound.2.hint_le allocNum file.getLast? with ⟨range, layout, stack⟩
  have fresh : ∀ clus ∈ (fs.fat.alloc allocNum file.getLast?).1,
      2 <= clus /\ clus < fs.geometry.clusterCount + 2 := by
    intro clus member
    have vacant := allocates.vacant clus member
    have proper := allocates.proper clus member
    have other : clus ≠ 1 := by
      rintro rfl
      exact table.reserved vacant
    refine ⟨by have := proper.1; unfold fatEntryFree at this; omega, ?_⟩
    rcases range clus member with listed | scanned
    · exact table.stack clus listed
    · rw [table.count] at scanned
      omega
  refine ⟨?_, sound, layout ▸ table.count, ?_, fun clus member => table.stack clus (stack clus member), ?_⟩
  · rcases length with whole | ⟨exhausted, nothing⟩
    · exact whole
    · rw [nothing, serves.of_exhausted exhausted, length_nil]
  · have untouched : (1 : Nat) ∉ file.getLast?.toList ++ (fs.fat.alloc allocNum file.getLast?).1 := by
      intro member
      rcases mem_append.mp member with final | new
      · have low := (table.inside 1 (mem_of_own (mem_of_getLast? (mem_toList.mp final)))).1
        omega
      · have low := (fresh 1 new).1
        omega
    intro vacant
    exact table.reserved ((allocates.unchanged 1 (by decide) untouched).symm.trans vacant)
  · intro clus member
    rw [(flatten_perm earlier later _).mem_iff, append_assoc, mem_append, mem_append] at member
    rcases member with old | new | other
    · exact table.inside clus (mem_of_own old)
    · exact fresh clus new
    · exact table.inside clus ((flatten_perm earlier later file).mem_iff.mpr (mem_append_right _ other))

theorem free (table : Table fs (earlier ++ (keep ++ tail) :: later)) :
    Table { fs with fat := fs.fat.free tail.reverse keep.getLast? } (earlier ++ keep :: later) := by
  have perm : tail.reverse.Perm tail := reverse_perm tail
  rcases table.sound.freed perm with ⟨_, stack, entry⟩
  refine ⟨table.sound.free perm, (congrArg FatLayout.totEnt (Fat.free_layout _ _ _)).trans table.count, ?_, ?_, ?_⟩
  · have outside : (1 : Nat) ∉ keep ++ tail := by
      intro member
      have low := (table.inside 1 (mem_of_own member)).1
      omega
    have kept : (1 : Nat) ∉ keep.getLast? := fun final =>
      outside (mem_append_left _ (mem_of_getLast? final))
    have listed : (1 : Nat) ∉ tail.reverse := fun member =>
      outside (mem_append_right _ (mem_reverse.mp member))
    intro vacant
    have same := entry 1 (by decide) listed
    rw [if_neg kept] at same
    exact table.reserved (same.symm.trans vacant)
  · intro clus member
    rcases stack clus member with freed | old
    · exact (table.inside clus (mem_of_own (mem_append_right _ (mem_reverse.mp freed)))).2
    · exact table.stack clus old
  · intro clus member
    rw [(flatten_perm earlier later keep).mem_iff, mem_append] at member
    refine table.inside clus ((flatten_perm earlier later (keep ++ tail)).mem_iff.mpr ?_)
    rw [mem_append, mem_append]
    rcases member with kept | other
    · exact .inl (.inl kept)
    · exact .inr other

theorem placed {inode : FatInode} (table : Table inode.fs (earlier ++ inode.clusList :: later))
    (listed : inode.fileCacheMgr.Listed) : inode.Placed where
  nodup :=
    (nodup_append.mp ((flatten_perm earlier later _).nodup_iff.mp table.sound.1.nodup)).1
  inside := fun clus own => table.inside clus (mem_of_own own)
  listed := listed

end Table

/-- The size rounded up to clusters. -/
def Geometry.clusters (geometry : Geometry) (size : Nat) : Nat := (size + geometry.clusSize - 1) / geometry.clusSize

namespace FatInode

theorem totalClus_eq {geometry : Geometry} {size : Nat} (small : size + geometry.clusSize <= 2 ^ 32) :
    geometry.totalClus size = geometry.clusters size := by
  have positive := clusSize_pos geometry
  have sum : (size + 2 ^ 32 - 1 + geometry.clusSize) % 2 ^ 32 = size + geometry.clusSize - 1 := by omega
  rw [Geometry.totalClus, sum, Geometry.clusters]

theorem clusters_mono (geometry : Geometry) {small large : Nat} (le : small <= large) :
    geometry.clusters small <= geometry.clusters large :=
  Nat.div_le_div_right (by omega)

theorem clusters_lt {geometry : Geometry} {size : Nat} (small : size < 2 ^ 32) : geometry.clusters size < 2 ^ 33 := by
  have bound := geometry.secPerClus_lt
  have size_eq := clusSize_eq geometry
  unfold cacheSz at size_eq
  exact lt_of_le_of_lt (Nat.div_le_self _ _) (by omega)

/-- There is room for the size. -/
theorem le_clusters_mul (geometry : Geometry) (size : Nat) : size <= geometry.clusters size * geometry.clusSize := by
  have positive := clusSize_pos geometry
  have split := Nat.div_add_mod (size + geometry.clusSize - 1) geometry.clusSize
  have rest := Nat.mod_lt (size + geometry.clusSize - 1) positive
  rw [Geometry.clusters, Nat.mul_comm]
  omega

/-- An inode among the files of a volume, with as many clusters as its size needs. -/
structure Stored (earlier later : List (List Nat)) (inode : FatInode) : Prop where
  table : Table inode.fs (earlier ++ inode.clusList :: later)
  listed : inode.fileCacheMgr.Listed
  full : inode.clusList.length = inode.fs.geometry.clusters inode.size
  size_lt : inode.size < 2 ^ 32

/-- What an operation leaves: the inode is still in order, and the sectors of the other files
are as they were. -/
structure Operated (earlier later : List (List Nat)) (before after : FatInode) : Prop where
  stored : Stored earlier later after
  geometry : after.fs.geometry = before.fs.geometry
  hint : after.hint = before.hint
  device : ∀ clus offset, clus ∈ (earlier ++ later).flatten -> offset < before.fs.geometry.secPerClus ->
    after.fs.blockDevice (before.fs.geometry.firstSectorOfCluster clus + offset) =
      before.fs.blockDevice (before.fs.geometry.firstSectorOfCluster clus + offset)

variable {earlier later : List (List Nat)} {inode before middle after : FatInode}

theorem Stored.placed (stored : Stored earlier later inode) : inode.Placed := stored.table.placed stored.listed

theorem Stored.room (stored : Stored earlier later inode) : inode.size <= inode.capacity := by
  unfold capacity
  rw [stored.full]
  exact le_clusters_mul _ _

theorem Operated.trans (first : Operated earlier later before middle) (second : Operated earlier later middle after) :
    Operated earlier later before after where
  stored := second.stored
  geometry := second.geometry.trans first.geometry
  hint := second.hint.trans first.hint
  device := by
    intro clus offset foreign small
    have later := second.device clus offset foreign (by rw [first.geometry]; exact small)
    rw [first.geometry] at later
    rw [later, first.device clus offset foreign small]

/-- The sectors of other files are not those of the inode. -/
theorem Stored.foreign_sector (stored : Stored earlier later inode) {clus offset : Nat}
    (foreign : clus ∈ (earlier ++ later).flatten) (small : offset < inode.fs.geometry.secPerClus) (innerCacheId : Nat) :
    inode.block innerCacheId ≠ some (inode.fs.geometry.firstSectorOfCluster clus + offset) := by
  intro behind
  rcases block_eq_some behind with ⟨own, found, same⟩
  have positive := inode.fs.geometry.secPerClus_pos
  have table := stored.table
  have member : own ∈ inode.clusList := mem_of_getElem? found
  have inside := table.inside clus
    ((flatten_perm earlier later _).mem_iff.mpr (mem_append_right _ foreign))
  have equal := (sector_injective inside (table.inside own (Table.mem_of_own member)) small (Nat.mod_lt _ positive) same).1
  have nodup := (flatten_perm earlier later inode.clusList).nodup_iff.mp table.sound.1.nodup
  exact (nodup_append.mp nodup).2.2 own member clus foreign equal.symm

theorem Stored.becomes (stored : Stored earlier later before) {bytes : Memory} (becomes : Becomes before after bytes) :
    Operated earlier later before after where
  stored :=
    { table := by
        have fat := becomes.fat
        have geometry := becomes.geometry
        rcases stored.table with ⟨sound, count, reserved, stack, inside⟩
        rw [becomes.clusList]
        exact ⟨by rw [fat]; exact sound, by rw [fat, geometry]; exact count, by rw [fat]; exact reserved,
          by rw [fat, geometry]; exact stack, by rw [geometry]; exact inside⟩
      listed := becomes.listed
      full := by
        rw [becomes.clusList, becomes.geometry, becomes.size]
        exact stored.full
      size_lt := by
        rw [becomes.size]
        exact stored.size_lt }
  geometry := becomes.geometry
  hint := becomes.hint
  device := fun _ _ foreign small => becomes.device _ (stored.foreign_sector foreign small)

/-- The row where the pages and the sectors are the same. -/
theorem row_congr {place : Nat} (page : after.fileCacheMgr.page (place / cacheSz) = before.fileCacheMgr.page (place / cacheSz))
    (block : after.block (place / cacheSz) = before.block (place / cacheSz))
    (device : ∀ sector, before.block (place / cacheSz) = some sector ->
      after.fs.blockDevice sector = before.fs.blockDevice sector) : after.row place = before.row place := by
  have cached : after.store.cached (place / cacheSz) = before.store.cached (place / cacheSz) :=
    congrArg (Option.map PageCache.pagePtr) page
  have behind : after.store.block (place / cacheSz) = before.store.block (place / cacheSz) := block
  change after.store.page (place / cacheSz) (place % cacheSz) = before.store.page (place / cacheSz) (place % cacheSz)
  unfold WriteBack.page
  rw [cached, behind]
  cases before.store.cached (place / cacheSz) with
  | some data => rfl
  | none =>
    cases sector : before.store.block (place / cacheSz) with
    | none => rfl
    | some number => exact congrFun (device number sector) _

/-- Clusters behind the list leave the sectors in front of them. -/
theorem block_append {more : List Nat} {place : Nat} (geometry : after.fs.geometry = before.fs.geometry)
    (clusList : after.clusList = before.clusList ++ more) (inside : place < before.capacity) :
    after.block (place / cacheSz) = before.block (place / cacheSz) := by
  have backed := (before.backed_iff place).mpr inside
  unfold block at backed ⊢
  rw [isSome_map] at backed
  rcases isSome_iff_exists.mp backed with ⟨_, found⟩
  rcases List.getElem?_eq_some_iff.mp found with ⟨bound, _⟩
  rw [geometry, clusList, getElem?_append_left bound]

/-! ## Growing -/

variable (stored : Stored earlier later inode)

include stored

variable {newSize : Nat}

theorem Stored.allocClus (larger : inode.size <= newSize) (small : newSize < 2 ^ 32)
    (serves : inode.fs.fat.Serves (inode.fs.geometry.clusters newSize - inode.fs.geometry.clusters inode.size)) :
    Operated earlier later inode { inode.allocClus
        (inode.fs.geometry.clusters newSize - inode.fs.geometry.clusters inode.size) with size := newSize } /\
      ∀ place < inode.capacity,
        row { inode.allocClus
          (inode.fs.geometry.clusters newSize - inode.fs.geometry.clusters inode.size) with size := newSize } place =
          inode.row place := by
  rcases stored.table.alloc serves with ⟨length, table⟩
  have more := clusters_mono inode.fs.geometry larger
  constructor
  · refine ⟨⟨table, stored.listed, ?_, small⟩, rfl, rfl, fun _ _ _ _ => rfl⟩
    change (inode.clusList ++ (inode.fs.fat.alloc _ inode.clusList.getLast?).1).length = inode.fs.geometry.clusters newSize
    rw [length_append, length, stored.full]
    omega
  · intro place inside
    exact row_congr rfl (block_append rfl rfl inside) (fun _ _ => rfl)

variable (frames : Frames)

theorem Stored.modifySizeLock_grow
    (larger : inode.size < newSize) (small : newSize + inode.fs.geometry.clusSize <= 2 ^ 32)
    (serves : inode.fs.fat.Serves (inode.fs.geometry.clusters newSize - inode.fs.geometry.clusters inode.size))
    (clear : Bool) :
    ∃ after, inode.modifySizeLock frames ((newSize : Int) - inode.size) clear = some after /\
      Operated earlier later inode after /\ after.size = newSize /\
      (∀ place < inode.size, after.row place = inode.row place) /\
      (clear = true -> ∀ place, inode.size <= place -> place < newSize -> after.row place = 0) := by
  have positive := clusSize_pos inode.fs.geometry
  have fits : newSize < 2 ^ 32 := by omega
  have more := clusters_mono inode.fs.geometry larger.le
  have bound := @clusters_lt inode.fs.geometry newSize fits
  rcases stored.allocClus larger.le fits serves with ⟨grown, kept⟩
  have size : ((inode.size + ((newSize : Int) - inode.size)) % 2 ^ 32).toNat = newSize := by omega
  have count : (inode.fs.geometry.totalClus newSize + 2 ^ 64 - inode.fs.geometry.totalClus inode.size) % 2 ^ 64 =
      inode.fs.geometry.clusters newSize - inode.fs.geometry.clusters inode.size := by
    rw [totalClus_eq small, totalClus_eq (by omega)]
    omega
  have length : (newSize + 2 ^ 32 - inode.size) % 2 ^ 32 = newSize - inode.size := by omega
  unfold modifySizeLock
  rw [if_pos (by omega), size, count, length]
  cases clear with
  | false =>
    refine ⟨_, rfl, grown, rfl, fun place inside => kept place (inside.trans_le stored.room), nofun⟩
  | true =>
    rcases grown.stored.placed.clearAtBlockCacheLock frames inode.size (newSize - inode.size) with
      ⟨after, cleared, becomes⟩
    have room := grown.stored.room
    refine ⟨after, by rw [if_pos rfl]; exact cleared, grown.trans (grown.stored.becomes becomes), becomes.size, ?_, ?_⟩
    · intro place inside
      rw [becomes.row place (lt_of_lt_of_le (inside.trans larger) room), Memory.store_outside _ (by omega)]
      exact kept place (inside.trans_le stored.room)
    · intro _ place low high
      have offset : inode.size + (place - inode.size) = place := by omega
      have piece : place - inode.size < (replicate (newSize - inode.size) (0 : Byte)).length := by
        rw [length_replicate]
        omega
      rw [becomes.row place (high.trans_le room), <- offset, Memory.store_inside _ _ piece,
        getD_eq_getElem?_getD, getElem?_eq_getElem piece, getElem_replicate, getD_some]

/-! ## Shrinking -/

theorem Stored.modifySizeLock_shrink
    (smaller : newSize <= inode.size) (small : inode.size + inode.fs.geometry.clusSize <= 2 ^ 32) (clear : Bool) :
    ∃ after, inode.modifySizeLock frames ((newSize : Int) - inode.size) clear = some after /\
      Operated earlier later inode after /\ after.size = newSize /\
      ∀ place < newSize, after.row place = inode.row place := by
  have positive := clusSize_pos inode.fs.geometry
  have fits : newSize < 2 ^ 32 := by omega
  have less := clusters_mono inode.fs.geometry smaller
  have bound := @clusters_lt inode.fs.geometry inode.size stored.size_lt
  have size : ((inode.size + ((newSize : Int) - inode.size)) % 2 ^ 32).toNat = newSize := by omega
  have count : (inode.fs.geometry.totalClus inode.size + 2 ^ 64 - inode.fs.geometry.totalClus newSize) % 2 ^ 64 =
      inode.fs.geometry.clusters inode.size - inode.fs.geometry.clusters newSize := by
    rw [totalClus_eq small, totalClus_eq (by omega)]
    omega
  have rest : inode.clusList.length - min (inode.fs.geometry.clusters inode.size - inode.fs.geometry.clusters newSize)
      inode.clusList.length = inode.fs.geometry.clusters newSize := by
    rw [stored.full]
    omega
  unfold modifySizeLock
  rw [if_neg (by omega), size, count]
  unfold deallocClus
  rw [rest]
  have whole : inode.clusList.take (inode.fs.geometry.clusters newSize) ++
      inode.clusList.drop (inode.fs.geometry.clusters newSize) = inode.clusList := take_append_drop _ _
  have length : (inode.clusList.take (inode.fs.geometry.clusters newSize)).length = inode.fs.geometry.clusters newSize := by
    rw [length_take, stored.full]
    omega
  have table := stored.table
  rw [<- whole] at table
  refine ⟨_, rfl, ⟨⟨table.free, stored.listed.notifyNewSize newSize, length, fits⟩, rfl, rfl, fun _ _ _ _ => rfl⟩, rfl, ?_⟩
  intro place inside
  refine row_congr ?_ ?_ (fun _ _ => rfl)
  · rw [PageCacheManager.page_notifyNewSize, if_pos]
    unfold cacheSz
    omega
  · apply Eq.symm
    refine block_append rfl whole.symm ?_
    unfold capacity
    rw [length]
    exact inside.trans_le (le_clusters_mul _ _)

/-! ## Writing and reading -/

/-- The size after a write. -/
def sizeAfter (inode : FatInode) (offset length : Nat) : Nat := max inode.size (offset + length)

/-- The write is served: the size stays, or it has 32 bits with room for a cluster and there
are clusters for it. -/
def ServesWrite (inode : FatInode) (offset length : Nat) : Prop :=
  inode.size < offset + length ->
    offset + length + inode.fs.geometry.clusSize <= 2 ^ 32 /\
      inode.fs.fat.Serves (inode.fs.geometry.clusters (offset + length) - inode.fs.geometry.clusters inode.size)

/-- All bytes are written; those between the old size and the offset are not specified. -/
theorem Stored.writeAtBlockCacheLock {offset : Nat}
    {buf : List Byte} (serves : inode.ServesWrite offset buf.length) :
    ∃ after, inode.writeAtBlockCacheLock frames offset buf = some (buf.length, after) /\
      Operated earlier later inode after /\ after.size = inode.sizeAfter offset buf.length /\
      ∀ place < after.size, (place < inode.size \/ offset <= place) ->
        after.row place = inode.row.store offset buf place := by
  have size_lt := stored.size_lt
  have resized : ∃ middle,
      (if 0 < toIsize ((buf.length + offset + 2 ^ 64 - inode.size) % 2 ^ 64) then
        inode.modifySizeLock frames (toIsize ((buf.length + offset + 2 ^ 64 - inode.size) % 2 ^ 64)) false
      else some inode) = some middle /\ Operated earlier later inode middle /\
        middle.size = inode.sizeAfter offset buf.length /\
        ∀ place < inode.size, middle.row place = inode.row place := by
    by_cases grows : inode.size < offset + buf.length
    · rcases serves grows with ⟨small, clusters⟩
      have diff : toIsize ((buf.length + offset + 2 ^ 64 - inode.size) % 2 ^ 64) =
          ((offset + buf.length : Nat) : Int) - inode.size := by
        unfold toIsize
        omega
      rcases stored.modifySizeLock_grow frames grows small clusters false with ⟨middle, modified, operated, size, kept, _⟩
      refine ⟨middle, ?_, operated, ?_, kept⟩
      · rw [diff, if_pos (by omega), modified]
      · rw [size, sizeAfter, Nat.max_eq_right grows.le]
    · have stays : ¬ 0 < toIsize ((buf.length + offset + 2 ^ 64 - inode.size) % 2 ^ 64) := by
        unfold toIsize
        split <;> omega
      rw [if_neg stays]
      refine ⟨inode, rfl, stored.becomes (Becomes.refl stored.placed), ?_, fun _ _ => rfl⟩
      rw [sizeAfter, Nat.max_eq_left (by omega)]
  rcases resized with ⟨middle, modified, operated, size, kept⟩
  have valid : offset + buf.length < 2 ^ 64 := by
    by_cases grows : inode.size < offset + buf.length
    · have small := (serves grows).1
      omega
    · omega
  have stop : min ((offset + buf.length) % 2 ^ 64) middle.size = offset + buf.length := by
    rw [Nat.mod_eq_of_lt valid, size, sizeAfter]
    omega
  rcases operated.stored.placed.writePages frames (Nat.le_add_right offset buf.length) le_rfl with
    ⟨after, written, becomes⟩
  rw [Nat.add_sub_cancel_left, take_length] at becomes
  rw [Nat.add_sub_cancel_left] at written
  refine ⟨after, ?_, operated.trans (operated.stored.becomes becomes), becomes.size.trans size, ?_⟩
  · unfold FatInode.writeAtBlockCacheLock
    dsimp only
    rw [modified, bind_some, stop, if_neg (by omega)]
    exact written
  · intro place inside known
    rw [becomes.size] at inside
    rw [becomes.row place (inside.trans_le operated.stored.room)]
    by_cases own : offset <= place /\ place < offset + buf.length
    · unfold Memory.store
      rw [if_pos own, if_pos own]
    · rw [Memory.store_outside _ own, Memory.store_outside _ own]
      refine kept place ?_
      rw [size, sizeAfter] at inside
      omega

/-- A read returns the bytes up to the size; a buffer has less than half of the address space. -/
theorem Stored.readAtBlockCache (offset : Nat) {length : Nat} (short : length < 2 ^ 63) :
    ∃ after, inode.readAtBlockCache frames offset length =
        some (inode.row.load offset (min (offset + length) inode.size - offset), after) /\
      Operated earlier later inode after /\ after.size = inode.size /\
      ∀ place < after.size, after.row place = inode.row place := by
  have size_lt := stored.size_lt
  have read : ∃ after, inode.readAtBlockCache frames offset length =
        some (inode.row.load offset (min (offset + length) inode.size - offset), after) /\
      Becomes inode after inode.row := by
    by_cases valid : offset + length < 2 ^ 64
    · exact stored.placed.readAtBlockCache stored.room frames valid
    · have behind : min ((offset + length) % 2 ^ 64) inode.size <= offset := by omega
      have nothing : min (offset + length) inode.size - offset = 0 := by omega
      refine ⟨inode, ?_, Becomes.refl stored.placed⟩
      unfold FatInode.readAtBlockCache
      rw [if_pos behind, nothing]
      rfl
  rcases read with ⟨after, read, becomes⟩
  refine ⟨after, read, stored.becomes becomes, becomes.size, ?_⟩
  intro place inside
  rw [becomes.size] at inside
  exact becomes.row place (inside.trans_le stored.room)

omit stored

/-- The operation leaves the bytes of every other file. -/
theorem Operated.foreign (operated : Operated earlier later before after) {own : OwnState}
    (member : own.clusList ∈ earlier ++ later) (place : Nat) :
    row { toOwnState := own, fs := after.fs } place = row { toOwnState := own, fs := before.fs } place := by
  refine row_congr rfl ?_ ?_
  · unfold block
    rw [operated.geometry]
  · intro sector behind
    rcases block_eq_some behind with ⟨clus, found, rfl⟩
    exact operated.device clus _ (mem_flatten.mpr ⟨_, member, mem_of_getElem? found⟩)
      (Nat.mod_lt _ before.fs.geometry.secPerClus_pos)

end FatInode

end GCore.Fs
