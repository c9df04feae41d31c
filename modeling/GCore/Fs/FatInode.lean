import GCore.Fs.FatVolume
import GCore.Fs.PageCache

namespace GCore.Fs

open Library List Option Nat PageCacheManager Paged

/-!
# Contents of files on a FAT volume

The bytes of a file are in the clusters of its list, and its pages in memory count in place
of their sectors.  `modify_size_lock` adds or frees clusters, `write_at_block_cache_lock`
and `read_at_block_cache_rlock` go through the pages, and `oom` drops pages.

When a file grows, then the bytes that are new are whatever their sectors or pages hold,
unless the caller asks for them to be cleared.  The call from a write does not ask.

The specifications below say what each operation does to the row of bytes that the
clusters give room for.
-/

/-- The numbers of the boot sector.  A volume is mounted only if its sectors are as large as
the blocks of the device.  The numbers of its sectors have 32 bits. -/
structure Geometry where
  dataAreaStartBlock : Nat
  secPerClus : Nat
  bytsPerSec : Nat
  clusterCount : Nat
  secPerClus_pos : 0 < secPerClus
  secPerClus_lt : secPerClus < 2 ^ 8
  bytsPerSec_eq : bytsPerSec = cacheSz
  fits : dataAreaStartBlock + clusterCount * secPerClus <= 2 ^ 32

namespace Geometry

variable (geometry : Geometry)

def clusSize : Nat := geometry.bytsPerSec * geometry.secPerClus

def firstSectorOfCluster (clusNum : Nat) : Nat :=
  (geometry.dataAreaStartBlock + (clusNum + 2 ^ 32 - 2) % 2 ^ 32 * geometry.secPerClus) % 2 ^ 32

/-- The size rounded up to clusters, with the overflow of 32 bits. -/
def totalClus (size : Nat) : Nat := (size + 2 ^ 32 - 1 + geometry.clusSize) % 2 ^ 32 / geometry.clusSize

/-- The loop of `get_neighboring_sec`. -/
def neighborLoop (clusList : List Nat) : Nat -> Nat -> List Nat
  | 0, _ => []
  | rounds + 1, secId =>
    match clusList[secId / geometry.secPerClus]? with
    | none => []
    | some clus =>
      (geometry.firstSectorOfCluster clus + secId % geometry.secPerClus) :: neighborLoop clusList rounds (secId + 1)

def getNeighboringSec (clusList : List Nat) (innerCacheId : Nat) : List Nat :=
  let secPerCache := cacheSz / geometry.bytsPerSec
  geometry.neighborLoop clusList secPerCache (innerCacheId * secPerCache)

end Geometry

structure EasyFileSystem where
  geometry : Geometry
  fat : Fat
  blockDevice : Nat -> Memory

/-- The sectors of as many clusters as hold the blocks, with the overflow of 64 bits. -/
def EasyFileSystem.allocBlocks (fs : EasyFileSystem) (blocks : Nat) : List Nat :=
  let allocNum := (blocks + (2 ^ 64 - 1) + fs.geometry.secPerClus) % 2 ^ 64 / fs.geometry.secPerClus
  (fs.fat.alloc allocNum none).1.flatMap (fun clusId =>
    (List.range fs.geometry.secPerClus).map (fun offset => fs.geometry.firstSectorOfCluster clusId + offset))

/-- What the memory does during a call: the frames that new pages are given, and whether
memory is short when a page is asked for. -/
structure Frames where
  memory : Nat -> Memory
  short : Nat -> Bool

structure FileContent where
  size : Nat
  clusList : List Nat
  hint : Nat

/-- What an inode holds of its own. -/
structure OwnState extends FileContent where
  fileCacheMgr : PageCacheManager

/-- An inode, with the file system that it is on. -/
structure FatInode extends OwnState where
  fs : EasyFileSystem

namespace FatInode

section Operations

variable (inode : FatInode)

def allocClus (allocNum : Nat) : FatInode :=
  let (newClusList, fat) := inode.fs.fat.alloc allocNum inode.clusList.getLast?
  { inode with fs := { inode.fs with fat := fat }, clusList := inode.clusList ++ newClusList }

/-- The clusters are taken from the end of the list, the last one first. -/
def deallocClus (deallocNum : Nat) : FatInode :=
  let rest := inode.clusList.length - min deallocNum inode.clusList.length
  let keep := inode.clusList.take rest
  { inode with
    fs := { inode.fs with fat := inode.fs.fat.free (inode.clusList.drop rest).reverse keep.getLast? }
    clusList := keep }

def getNeighboringSec (innerCacheId : Nat) : List Nat :=
  inode.fs.geometry.getNeighboringSec inode.clusList innerCacheId

def oom : Option FatInode :=
  (inode.fileCacheMgr.oom inode.getNeighboringSec inode.fs.blockDevice).map (fun (manager, blockDevice) =>
    { inode with fs := { inode.fs with blockDevice := blockDevice }, fileCacheMgr := manager })

/-- The page is in memory after this.  Pages may be dropped before, if memory is short. -/
def getCache (frames : Frames) (innerCacheId : Nat) : Option FatInode :=
  (if frames.short innerCacheId then inode.oom else some inode).bind (fun inode =>
    (inode.fileCacheMgr.getCache innerCacheId (inode.getNeighboringSec innerCacheId) inode.fs.blockDevice
      (frames.memory innerCacheId)).map (fun manager => { inode with fileCacheMgr := manager }))

/-- Read a page that is in memory. -/
def readPage {Value : Type} (innerCacheId : Nat) (read : Memory -> Value) : Option Value :=
  (inode.fileCacheMgr.page innerCacheId).map (fun page => read page.pagePtr)

/-- Change a page that is in memory. -/
def modifyPage (innerCacheId : Nat) (change : Memory -> Memory) : Option FatInode :=
  (inode.fileCacheMgr.page innerCacheId).map (fun page =>
    { inode with
      fileCacheMgr := inode.fileCacheMgr.setPage innerCacheId (some { page with pagePtr := change page.pagePtr }) })

/-- One round of the loops that write: store a piece in a page. -/
def storeInPage (frames : Frames) (startCache start : Nat) (piece : List Byte) : Option FatInode :=
  (inode.getCache frames startCache).bind (fun inode =>
    inode.modifyPage startCache (fun data => data.store (start % cacheSz) piece))

/-- The loop over the pages from `start` to `stop`. -/
def overPages {State : Type} (visit : Nat -> Nat -> Nat -> State -> Option State) (start stop : Nat) (state : State) :
    Option State :=
  walkPages visit cacheSz stop (stop - start + 1) start (start / cacheSz) state

variable (frames : Frames)

def clearAtBlockCacheLock (offset length : Nat) : Option FatInode :=
  overPages (fun startCache start blockWriteSize (inode : FatInode) =>
    inode.storeInPage frames startCache start (List.replicate blockWriteSize 0)) offset (offset + length) inode

def modifySizeLock (diff : Int) (clear : Bool) : Option FatInode :=
  let geometry := inode.fs.geometry
  let oldSize := inode.size
  let newSize := ((oldSize + diff) % 2 ^ 32).toNat
  let oldClusNum := geometry.totalClus oldSize
  let newClusNum := geometry.totalClus newSize
  if 0 < diff then
    let inode := { inode.allocClus ((newClusNum + 2 ^ 64 - oldClusNum) % 2 ^ 64) with size := newSize }
    if clear then inode.clearAtBlockCacheLock frames oldSize ((newSize + 2 ^ 32 - oldSize) % 2 ^ 32) else some inode
  else
    let inode := { inode.deallocClus ((oldClusNum + 2 ^ 64 - newClusNum) % 2 ^ 64) with size := newSize }
    some { inode with fileCacheMgr := inode.fileCacheMgr.notifyNewSize newSize }

/-- Store the next bytes of the buffer, after those that have been written. -/
def writeRound (buf : List Byte) (startCache start blockWriteSize : Nat) (state : Nat × FatInode) :
    Option (Nat × FatInode) :=
  (state.2.storeInPage frames startCache start ((buf.drop state.1).take blockWriteSize)).map (fun inode =>
    (state.1 + blockWriteSize, inode))

/-- With the number of bytes that have been written.  It is a panic if the range is empty
because the offset is behind its end. -/
def writeAtBlockCacheLock (offset : Nat) (buf : List Byte) : Option (Nat × FatInode) :=
  let diffLen := toIsize ((buf.length + offset + 2 ^ 64 - inode.size) % 2 ^ 64)
  (if 0 < diffLen then inode.modifySizeLock frames diffLen false else some inode).bind (fun inode =>
    let stop := min ((offset + buf.length) % 2 ^ 64) inode.size
    if stop < offset then none
    else
      overPages (writeRound frames buf) offset stop (0, inode))

def readRound (startCache start blockReadSize : Nat) (state : List Byte × FatInode) :
    Option (List Byte × FatInode) :=
  (state.2.getCache frames startCache).bind (fun inode =>
    (inode.readPage startCache (fun data => data.load (start % cacheSz) blockReadSize)).map (fun bytes =>
      (state.1 ++ bytes, inode)))

/-- With the bytes that have been read. -/
def readAtBlockCache (offset length : Nat) : Option (List Byte × FatInode) :=
  let stop := min ((offset + length) % 2 ^ 64) inode.size
  if stop <= offset then some ([], inode)
  else
    overPages (readRound frames) offset stop ([], inode)

end Operations

/-! ## The bytes of the clusters -/

section Row

variable (inode : FatInode)

/-- The sector behind a page. -/
def block (innerCacheId : Nat) : Option Nat :=
  inode.clusList[innerCacheId / inode.fs.geometry.secPerClus]?.map (fun clus =>
    inode.fs.geometry.firstSectorOfCluster clus + innerCacheId % inode.fs.geometry.secPerClus)

def store : WriteBack := inode.fileCacheMgr.store inode.block inode.fs.blockDevice

def row : Memory := inode.store.row cacheSz

/-- The number of bytes that the clusters have room for. -/
def capacity : Nat := inode.clusList.length * inode.fs.geometry.clusSize

/-- The clusters are distinct ones of the data area, and the pages are listed. -/
structure Placed : Prop where
  nodup : inode.clusList.Nodup
  inside : ∀ clus ∈ inode.clusList, 2 <= clus /\ clus < inode.fs.geometry.clusterCount + 2
  listed : inode.fileCacheMgr.Listed

end Row

theorem clusSize_eq (geometry : Geometry) : geometry.clusSize = cacheSz * geometry.secPerClus := by
  rw [Geometry.clusSize, geometry.bytsPerSec_eq]

theorem clusSize_pos (geometry : Geometry) : 0 < geometry.clusSize := by
  rw [clusSize_eq]
  exact Nat.mul_pos (by decide) geometry.secPerClus_pos

/-- A page is one sector. -/
theorem getNeighboringSec_eq (inode : FatInode) (innerCacheId : Nat) :
    inode.getNeighboringSec innerCacheId = (inode.block innerCacheId).toList := by
  have single : cacheSz / inode.fs.geometry.bytsPerSec = 1 := by
    rw [inode.fs.geometry.bytsPerSec_eq]
    rfl
  unfold FatInode.getNeighboringSec Geometry.getNeighboringSec
  dsimp only
  rw [single, Nat.mul_one, Geometry.neighborLoop, block]
  cases inode.clusList[innerCacheId / inode.fs.geometry.secPerClus]? <;> rfl

variable {geometry : Geometry} {piece : List Byte} {start : Nat}

/-- The sectors of the data area are in order. -/
theorem firstSectorOfCluster_eq {clus : Nat} (inside : 2 <= clus /\ clus < geometry.clusterCount + 2) :
    geometry.firstSectorOfCluster clus = geometry.dataAreaStartBlock + (clus - 2) * geometry.secPerClus := by
  have positive := geometry.secPerClus_pos
  have fits := geometry.fits
  have room : (clus - 2 + 1) * geometry.secPerClus <= geometry.clusterCount * geometry.secPerClus :=
    Nat.mul_le_mul_right _ (by omega)
  have count : geometry.clusterCount <= geometry.clusterCount * geometry.secPerClus := Nat.le_mul_of_pos_right _ positive
  rw [Nat.add_mul, Nat.one_mul] at room
  have offset : (clus + 2 ^ 32 - 2) % 2 ^ 32 = clus - 2 := by omega
  rw [Geometry.firstSectorOfCluster, offset, mod_eq_of_lt (by omega)]

variable {inode after : FatInode}

/-- Distinct clusters of the data area have distinct sectors. -/
theorem sector_injective {first second firstOffset secondOffset : Nat}
    (firstInside : 2 <= first /\ first < geometry.clusterCount + 2)
    (secondInside : 2 <= second /\ second < geometry.clusterCount + 2)
    (firstSmall : firstOffset < geometry.secPerClus) (secondSmall : secondOffset < geometry.secPerClus)
    (same : geometry.firstSectorOfCluster first + firstOffset = geometry.firstSectorOfCluster second + secondOffset) :
    first = second /\ firstOffset = secondOffset := by
  rw [firstSectorOfCluster_eq firstInside, firstSectorOfCluster_eq secondInside] at same
  have flat : geometry.secPerClus * (first - 2) + firstOffset = geometry.secPerClus * (second - 2) + secondOffset := by
    rw [Nat.mul_comm _ (first - 2), Nat.mul_comm _ (second - 2)]
    omega
  have quotient := congrArg (· / geometry.secPerClus) flat
  have remainder := congrArg (· % geometry.secPerClus) flat
  simp only [mul_add_div geometry.secPerClus_pos, div_eq_of_lt firstSmall, div_eq_of_lt secondSmall,
    mul_add_mod, mod_eq_of_lt firstSmall, mod_eq_of_lt secondSmall] at quotient remainder
  exact ⟨by omega, remainder⟩

theorem block_eq_some {innerCacheId sector : Nat} (behind : inode.block innerCacheId = some sector) :
    ∃ clus, inode.clusList[innerCacheId / inode.fs.geometry.secPerClus]? = some clus /\
      sector = inode.fs.geometry.firstSectorOfCluster clus + innerCacheId % inode.fs.geometry.secPerClus := by
  rcases map_eq_some_iff.mp behind with ⟨clus, found, same⟩
  exact ⟨clus, found, same.symm⟩

theorem Placed.apart (placed : inode.Placed) : inode.store.Apart := by
  intro first second sector firstBlock secondBlock
  rcases block_eq_some firstBlock with ⟨_, firstFound, rfl⟩
  rcases block_eq_some secondBlock with ⟨_, secondFound, same⟩
  have positive := inode.fs.geometry.secPerClus_pos
  rcases sector_injective (placed.inside _ (mem_of_getElem? firstFound))
    (placed.inside _ (mem_of_getElem? secondFound)) (mod_lt _ positive) (mod_lt _ positive) same with
    ⟨sameClus, sameOffset⟩
  rw [<- sameClus] at secondFound
  rcases List.getElem?_eq_some_iff.mp firstFound with ⟨bound, _⟩
  have sameIndex := (getElem?_inj bound placed.nodup).mp (firstFound.trans secondFound.symm)
  rw [<- div_add_mod first inode.fs.geometry.secPerClus, <- div_add_mod second inode.fs.geometry.secPerClus,
    sameIndex, sameOffset]

/-- The bytes with room in the clusters are those with a sector behind them. -/
theorem backed_iff (inode : FatInode) (place : Nat) :
    (inode.block (place / cacheSz)).isSome = true ↔ place < inode.capacity := by
  have inside : (inode.clusList[place / cacheSz / inode.fs.geometry.secPerClus]?).isSome = true ↔
      place / cacheSz / inode.fs.geometry.secPerClus < inode.clusList.length := by simp
  unfold block capacity
  rw [isSome_map, inside, Nat.div_div_eq_div_mul, <- clusSize_eq, Nat.div_lt_iff_lt_mul (clusSize_pos _)]

/-! ## Pages -/

/-- What the operations on pages do: the row becomes the one that is given, and the rest of
the inode and the sectors of other files stay. -/
structure Becomes (before after : FatInode) (bytes : Memory) : Prop where
  geometry : after.fs.geometry = before.fs.geometry
  fat : after.fs.fat = before.fs.fat
  size : after.size = before.size
  clusList : after.clusList = before.clusList
  hint : after.hint = before.hint
  listed : after.fileCacheMgr.Listed
  row : ∀ place < before.capacity, after.row place = bytes place
  device : ∀ sector, (∀ innerCacheId, before.block innerCacheId ≠ some sector) ->
    after.fs.blockDevice sector = before.fs.blockDevice sector

namespace Becomes

variable {before middle after : FatInode} {bytes first second : Memory} (becomes : Becomes before after bytes)

include becomes

theorem block : after.block = before.block := by
  unfold FatInode.block
  rw [becomes.clusList, becomes.geometry]

theorem capacity : after.capacity = before.capacity := by
  unfold FatInode.capacity
  rw [becomes.clusList, becomes.geometry]

theorem placed (placed : before.Placed) : after.Placed where
  nodup := by
    rw [becomes.clusList]
    exact placed.nodup
  inside := by
    rw [becomes.clusList, becomes.geometry]
    exact placed.inside
  listed := becomes.listed

omit becomes

theorem refl (placed : before.Placed) : Becomes before before before.row :=
  ⟨rfl, rfl, rfl, rfl, rfl, placed.listed, fun _ _ => rfl, fun _ _ => rfl⟩

theorem congr (becomes : Becomes before after first)
    (same : ∀ place < before.capacity, first place = second place) : Becomes before after second :=
  { becomes with row := fun place inside => (becomes.row place inside).trans (same place inside) }

theorem trans (one : Becomes before middle first) (two : Becomes middle after second) : Becomes before after second where
  geometry := two.geometry.trans one.geometry
  fat := two.fat.trans one.fat
  size := two.size.trans one.size
  clusList := two.clusList.trans one.clusList
  hint := two.hint.trans one.hint
  listed := two.listed
  row := by
    intro place inside
    exact two.row place (by rw [one.capacity]; exact inside)
  device := by
    intro sector foreign
    rw [two.device sector (by rw [one.block]; exact foreign), one.device sector foreign]

end Becomes

/-- Operations on the cache that keep the pages keep the row. -/
theorem becomes_of_keeps {manager : PageCacheManager} {blockDevice : Nat -> Memory}
    (keeps : WriteBack.Keeps inode.store (manager.store inode.block blockDevice)) (listed : manager.Listed) :
    Becomes inode { inode with fs := { inode.fs with blockDevice := blockDevice }, fileCacheMgr := manager }
      inode.row :=
  { geometry := rfl, fat := rfl, size := rfl, clusList := rfl, hint := rfl, listed := listed
    row := fun place inside => keeps.row ((inode.backed_iff place).mpr inside)
    device := keeps.device }

theorem Placed.oom (placed : inode.Placed) : ∃ after, inode.oom = some after /\ Becomes inode after inode.row := by
  have neighbors : inode.getNeighboringSec = fun id => (inode.block id).toList := funext inode.getNeighboringSec_eq
  rcases oom_spec placed.listed placed.apart with ⟨_, _, swept, keeps, listed⟩
  refine ⟨_, ?_, becomes_of_keeps keeps listed⟩
  unfold FatInode.oom
  rw [neighbors, swept, map_some]

theorem Placed.getCache (placed : inode.Placed) (frames : Frames) (innerCacheId : Nat) :
    ∃ after, inode.getCache frames innerCacheId = some after /\ Becomes inode after inode.row /\
      (after.fileCacheMgr.page innerCacheId).isSome := by
  have relieved : ∃ middle, (if frames.short innerCacheId then inode.oom else some inode) = some middle /\
      Becomes inode middle inode.row := by
    split
    · exact placed.oom
    · exact ⟨inode, rfl, Becomes.refl placed⟩
  rcases relieved with ⟨middle, freed, kept⟩
  have still := kept.placed placed
  rcases @getCache_spec middle.fileCacheMgr middle.block middle.fs.blockDevice innerCacheId still.listed
    (frames.memory innerCacheId) with ⟨manager, got, loaded, present, listed⟩
  have keeps : WriteBack.Keeps middle.store (manager.store middle.block middle.fs.blockDevice) := by
    rw [loaded]
    exact WriteBack.keeps_load _ _ _
  refine ⟨{ middle with fileCacheMgr := manager }, ?_, ?_, present⟩
  · unfold FatInode.getCache
    rw [freed, bind_some, getNeighboringSec_eq, got, map_some]
  · exact (kept.trans (becomes_of_keeps keeps listed)).congr kept.row

theorem Placed.modifyPage (placed : inode.Placed) (present : (inode.fileCacheMgr.page (start / cacheSz)).isSome)
    (inside : start + piece.length <= (start / cacheSz + 1) * cacheSz) :
    ∃ after,
      inode.modifyPage (start / cacheSz) (fun data => data.store (start % cacheSz) piece) = some after /\
        Becomes inode after (inode.row.store start piece) := by
  rcases isSome_iff_exists.mp present with ⟨page, found⟩
  have pool := length_of_page found
  have cached : inode.store.cached (start / cacheSz) = some page.pagePtr := by
    change (inode.fileCacheMgr.page _).map PageCache.pagePtr = _
    rw [found, map_some]
  unfold FatInode.modifyPage
  rw [found, map_some]
  refine ⟨_, rfl, rfl, rfl, rfl, rfl, rfl, ⟨placed.listed.nodup, ?_⟩, ?_, fun _ _ => rfl⟩
  · intro other member
    rw [page_setPage pool]
    split
    · rfl
    · exact placed.listed.present other member
  · intro place _
    have written := congrFun (WriteBack.row_put (by decide) cached inside) place
    rw [FatInode.store, <- @store_setPage _ _ _ _
      { page with pagePtr := page.pagePtr.store (start % cacheSz) piece } pool] at written
    exact written

/-- A store in rows that agree. -/
theorem store_agree {first second : Memory} {bound : Nat}
    (same : ∀ place < bound, first place = second place) (start : Nat) (piece : List Byte) (place : Nat)
    (inside : place < bound) : first.store start piece place = second.store start piece place := by
  unfold Memory.store
  rw [same place inside]

variable (placed : inode.Placed)

include placed

theorem Placed.storeInPage (frames : Frames) (inside : start + piece.length <= (start / cacheSz + 1) * cacheSz) :
    ∃ after, inode.storeInPage frames (start / cacheSz) start piece = some after /\
      Becomes inode after (inode.row.store start piece) := by
  rcases placed.getCache frames (start / cacheSz) with ⟨_, got, kept, present⟩
  rcases (kept.placed placed).modifyPage present inside with ⟨after, modified, stored⟩
  refine ⟨after, ?_, (kept.trans stored).congr (store_agree kept.row start piece)⟩
  unfold FatInode.storeInPage
  rw [got, bind_some, modified]

/-! ## Ranges -/

theorem Placed.clearAtBlockCacheLock (frames : Frames) (offset length : Nat) :
    ∃ after, inode.clearAtBlockCacheLock frames offset length = some after /\
      Becomes inode after (inode.row.store offset (replicate length 0)) := by
  have range : offset <= offset + length := Nat.le_add_right _ _
  have initial : Becomes inode inode (inode.row.store offset (replicate (offset - offset) 0)) := by
    rw [Nat.sub_self, replicate_zero, Memory.store_nil]
    exact Becomes.refl placed
  have loop := @walkPages_invariant cacheSz (offset + length) offset FatInode
    (fun startCache start blockWriteSize (inode : FatInode) =>
      inode.storeInPage frames startCache start (replicate blockWriteSize 0))
    (fun place after => Becomes inode after (inode.row.store offset (replicate (place - offset) 0)))
    (by decide) range _ (lt_succ_self _) inode initial ?_
  · rcases loop with ⟨after, walked, becomes⟩
    rw [Nat.add_sub_cancel_left] at becomes
    exact ⟨after, walked, becomes⟩
  · intro place len middle behind _ page becomes
    have short : place + (replicate len (0 : Byte)).length <= (place / cacheSz + 1) * cacheSz := by
      rw [length_replicate]
      exact page
    rcases (becomes.placed placed).storeInPage frames short with ⟨after, stored, next⟩
    refine ⟨after, stored, (becomes.trans next).congr ?_⟩
    intro spot room
    have joined := Memory.store_append inode.row offset (replicate (place - offset) 0) (replicate len 0)
    rw [length_replicate, Nat.add_sub_cancel' behind, <- replicate_add, <- Nat.sub_add_comm behind] at joined
    rw [<- joined]
    exact store_agree becomes.row place _ spot room

/-- The loop of a write whose bytes end where the buffer ends, or earlier. -/
theorem Placed.writePages (frames : Frames) {offset stop : Nat} {buf : List Byte}
    (range : offset <= stop) (inside : stop <= offset + buf.length) :
    ∃ after, overPages (writeRound frames buf) offset stop (0, inode) = some (stop - offset, after) /\
      Becomes inode after (inode.row.store offset (buf.take (stop - offset))) := by
  have initial : (0 : Nat) = offset - offset /\
      Becomes inode inode (inode.row.store offset (buf.take (offset - offset))) := by
    rw [Nat.sub_self, take_zero, Memory.store_nil]
    exact ⟨rfl, Becomes.refl placed⟩
  have loop := @walkPages_invariant cacheSz stop offset (Nat × FatInode) (writeRound frames buf)
    (fun place state => state.1 = place - offset /\
      Becomes inode state.2 (inode.row.store offset (buf.take (place - offset))))
    (by decide) range _ (lt_succ_self _) (0, inode) initial ?_
  · rcases loop with ⟨⟨written, after⟩, walked, count, becomes⟩
    cases count
    exact ⟨after, walked, becomes⟩
  · rintro place len ⟨written, _⟩ behind ahead page ⟨count, becomes⟩
    subst count
    have whole : ((buf.drop (place - offset)).take len).length = len := by
      rw [length_take, length_drop]
      omega
    have short : place + ((buf.drop (place - offset)).take len).length <= (place / cacheSz + 1) * cacheSz := by
      rw [whole]
      exact page
    rcases (becomes.placed placed).storeInPage frames short with ⟨after, stored, next⟩
    refine ⟨(place - offset + len, after), ?_, (Nat.sub_add_comm behind).symm, (becomes.trans next).congr ?_⟩
    · rw [writeRound, stored, map_some]
    · intro spot room
      have joined := Memory.store_append inode.row offset (buf.take (place - offset)) ((buf.drop (place - offset)).take len)
      rw [<- take_add, length_take, Nat.min_eq_left (by omega), Nat.add_sub_cancel' behind,
        <- Nat.sub_add_comm behind] at joined
      rw [<- joined]
      exact store_agree becomes.row place _ spot room

/-- A read returns the bytes of the row up to the size. -/
theorem Placed.readAtBlockCache (enough : inode.size <= inode.capacity) (frames : Frames)
    {offset length : Nat} (valid : offset + length < 2 ^ 64) :
    ∃ after, inode.readAtBlockCache frames offset length =
        some (inode.row.load offset (min (offset + length) inode.size - offset), after) /\
      Becomes inode after inode.row := by
  unfold FatInode.readAtBlockCache
  rw [mod_eq_of_lt valid]
  by_cases empty : min (offset + length) inode.size <= offset
  · rw [if_pos empty, Nat.sub_eq_zero_of_le empty]
    exact ⟨inode, rfl, Becomes.refl placed⟩
  · rw [if_neg empty]
    have range : offset <= min (offset + length) inode.size := by omega
    have initial : ([] : List Byte) = inode.row.load offset (offset - offset) /\ Becomes inode inode inode.row := by
      rw [Nat.sub_self]
      exact ⟨rfl, Becomes.refl placed⟩
    have loop := @walkPages_invariant cacheSz (min (offset + length) inode.size) offset (List Byte × FatInode)
      (readRound frames)
      (fun place state => state.1 = inode.row.load offset (place - offset) /\ Becomes inode state.2 inode.row)
      (by decide) range _ (lt_succ_self _) ([], inode) initial ?_
    · rcases loop with ⟨⟨bytes, after⟩, walked, count, becomes⟩
      cases count
      exact ⟨after, walked, becomes⟩
    · rintro place len ⟨bytes, _⟩ behind ahead page ⟨count, becomes⟩
      subst count
      rcases (becomes.placed placed).getCache frames (place / cacheSz) with ⟨after, got, kept, present⟩
      rcases isSome_iff_exists.mp present with ⟨cache, found⟩
      have whole := (becomes.trans kept).congr becomes.row
      have piece : cache.pagePtr.load (place % cacheSz) len = inode.row.load place len := by
        have pages : after.store.page (place / cacheSz) = cache.pagePtr := by
          refine WriteBack.page_of_cached ?_
          change (after.fileCacheMgr.page _).map PageCache.pagePtr = _
          rw [found, map_some]
        have flat := @load_page cacheSz after.store.page place (place + len) page
        rw [Nat.add_sub_cancel_left, pages] at flat
        rw [flat]
        refine Memory.load_congr ?_
        intro index small
        exact whole.row (place + index) (by omega)
      refine ⟨(inode.row.load offset (place - offset) ++ cache.pagePtr.load (place % cacheSz) len, after), ?_, ?_, whole⟩
      · rw [readRound, got, bind_some, readPage, found, map_some, map_some]
      · rw [piece, Nat.sub_add_comm behind, Memory.load_add, Nat.add_sub_cancel' behind]

end FatInode

end GCore.Fs
