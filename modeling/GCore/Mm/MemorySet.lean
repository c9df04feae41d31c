import GCore.Errno
import GCore.Mm.MapArea

namespace GCore.Mm

/-!
# Memory sets

A memory set is the page table of a space together with its areas, in the order of the
source's vector.  The modelled operations are the requests of user programs (`mmap`,
`munmap`, `mprotect`), the page fault handler, the two reclaim passes and fork.

Two places are worth a word.  `mmap` with `MAP_FIXED` ignores whether its `munmap`
found anything by `unwrap_unchecked`; a failed `munmap` is modelled as what it does,
which is nothing.  `munmap` remembers the area to split by its position before the
areas it removes are gone.
-/

def mmapBase : Nat := 0x60000000
def mmapEnd : Nat := 0x80000000
def taskSize : Nat := 0xc0000000
def skipNum : Nat := 2
def trampoline : Nat := usizeRange - pageSize
def signalTrampoline : Nat := trampoline - pageSize
def trapContextBase : Nat := signalTrampoline - pageSize

/-- `trap_cx_bottom_from_tid` -/
def trapCxBottomFromTid (tid : Nat) : Nat := trapContextBase - tid * pageSize

structure MemorySet where
  pageTable : PageTable
  areas : List MapArea

namespace MemorySet

/-- Replace the area at a position by any number of areas. -/
def replaceAt (areas : List MapArea) (index : Nat) (pieces : List MapArea) : List MapArea :=
  areas.take index ++ pieces ++ areas.drop (index + 1)

/-! ## Unmapping -/

/-- What `munmap` does with an area on its way through the list. -/
inductive Fate where
  | untouched
  | trimmed
  | deleted
  | broken
  deriving DecidableEq, Repr

/-- The body of the loop over the areas. -/
def munmapArea (startVpn endVpn : Nat) (area : MapArea) (table : PageTable) :
    Fate × MapArea × PageTable :=
  match area.checkOverlapping startVpn endVpn with
  | none => (.untouched, area, table)
  | some (overlapStart, overlapEnd) =>
    if overlapStart = area.start /\ overlapEnd = area.stop then (.deleted, area.unmap table)
    else if overlapStart = area.start then (.trimmed, area.rshrinkTo table overlapEnd)
    else if overlapEnd = area.stop then (.trimmed, area.shrinkTo table overlapStart)
    else (.broken, area, table)

def munmapAreas (startVpn endVpn : Nat) : List MapArea -> PageTable -> List (Fate × MapArea) × PageTable
  | [], table => ([], table)
  | area :: areas, table =>
    let (fate, area, table) := munmapArea startVpn endVpn area table
    let (rest, table) := munmapAreas startVpn endVpn areas table
    ((fate, area) :: rest, table)

/-- The position of the last area that has to be split. -/
def breakApartIdx (fates : List (Fate × MapArea)) : Option Nat :=
  ((fates.zipIdx.filter (fun entry => decide (entry.1.1 = .broken))).map Prod.snd).getLast?

def unmapAll (table : PageTable) (vpns : List Nat) : PageTable := vpns.foldl PageTable.unmap table

/-- `munmap`; `none` is an index out of range. -/
def munmap (set : MemorySet) (start len : Nat) : Option (Except Int Unit × MemorySet) :=
  if pageOffset start ≠ 0 then some (.error EINVAL, set)
  else
    let startVpn := floor start
    let endVpn := ceil ((start + len) % usizeRange)
    let (fates, table) := munmapAreas startVpn endVpn set.areas set.pageTable
    let areas := (fates.filter (fun entry => decide (entry.1 ≠ .deleted))).map Prod.snd
    let result := if fates.all (fun entry => decide (entry.1 = .untouched)) then .error EINVAL else .ok ()
    match breakApartIdx fates with
    | none => some (result, ⟨table, areas⟩)
    | some index =>
      match areas[index]? with
      | none => none
      | some area =>
        match area.intoThree startVpn endVpn with
        | (first, some (second, third)) =>
          some (result, ⟨(second.unmap table).2, replaceAt areas index [first, third]⟩)
        | (first, none) =>
          some (result, ⟨unmapAll table (MapArea.pages startVpn endVpn), replaceAt areas index [first]⟩)

/-! ## Changing permissions -/

/-- `set_pte_flags` on each page, with the errors of unmapped pages dropped. -/
def setFlagsAll (table : PageTable) (vpns : List Nat) (flags : MapPermission) : PageTable :=
  vpns.foldl (fun table vpn => (table.setPteFlags vpn flags).getD table) table

/-- Give an area its new permission. -/
def protect (area : MapArea) (perm : MapPermission) (strippingW : Bool) : MapArea :=
  { area with mapPerm := perm, writableStripped := area.writableStripped || strippingW }

/-- One round of `mprotect` on the area at `index`: the areas and the table after it. -/
def mprotectSegment (set : MemorySet) (index : Nat) (area : MapArea) (segStart segEnd : Nat)
    (prot : MapPermission) : MemorySet :=
  let realPerm := (set.pageTable.getPteFlags segStart).getD area.mapPerm
  let pteFlags := prot.withoutW.orX realPerm
  let areaPerm := prot.orX realPerm
  let strippingW := area.mapPerm.w && !areaPerm.w
  -- every branch sets the flags of the same pages: those of the segment
  let table := setFlagsAll set.pageTable (MapArea.pages segStart segEnd) pteFlags
  let pieces :=
    if segStart = area.start /\ segEnd = area.stop then [protect area areaPerm strippingW]
    else if segStart = area.start then
      match area.intoTwo segEnd with
      | some (first, second) => [protect first areaPerm strippingW, second]
      | none => [area]
    else if segEnd = area.stop then
      match area.intoTwo segStart with
      | some (first, second) => [first, protect second areaPerm strippingW]
      | none => [area]
    else
      match area.intoThree segStart segEnd with
      | (first, some (second, third)) => [first, protect second areaPerm strippingW, third]
      | (first, none) => [first]
  ⟨table, replaceAt set.areas index pieces⟩

/-- The loop of `mprotect`, on fuel; each round moves on by at least a page. -/
def mprotectLoop (endVpn : Nat) (prot : MapPermission) :
    Nat -> Nat -> MemorySet -> Option (Except Int Unit × MemorySet)
  | fuel, curVpn, set =>
    if curVpn < endVpn then
      match fuel with
      | 0 => none
      | fuel + 1 =>
        match set.areas.findIdx? (fun area => decide (area.Holds curVpn)) with
        | none => some (.error ENOMEM, set)
        | some index =>
          match set.areas[index]? with
          | none => none
          | some area =>
            let segEnd := min endVpn area.stop
            mprotectLoop endVpn prot fuel segEnd
              (mprotectSegment set index area curVpn segEnd prot)
    else some (.ok (), set)

/-- `mprotect`; `none` is the failed `unwrap` of the permission bits. -/
def mprotect (set : MemorySet) (addr len prot : Nat) : Option (Except Int Unit × MemorySet) :=
  if pageOffset addr ≠ 0 then some (.error EINVAL, set)
  else if len = 0 then some (.ok (), set)
  else
    match MapPermission.fromProt prot with
    | none => none
    | some prot =>
      let endVpn := ceil ((addr + len) % usizeRange)
      mprotectLoop endVpn prot (endVpn - floor addr) (floor addr) set

/-! ## Mapping -/

structure MapFlags where
  fixed : Bool
  anonymous : Bool
  priv : Bool
  deriving DecidableEq, Repr

/-- `last_mmap_area_idx`; `none` is its `unreachable!()`. -/
def lastMmapAreaIdx (set : MemorySet) : Option (Option Nat) :=
  let candidates := set.areas.zipIdx.reverse.drop skipNum
  match candidates.find? (fun entry => decide (entry.1.start < floor mmapEnd)) with
  | none => none
  | some (area, index) => some (if floor mmapBase <= area.start then some index else none)

/-- Insert before the first area that starts no lower, behind the leading areas above
the mapping region. -/
def insertArea (areas : List MapArea) (area : MapArea) : List MapArea :=
  let skipped := areas.takeWhile (fun other => decide (floor mmapEnd <= other.start))
  let rest := areas.dropWhile (fun other => decide (floor mmapEnd <= other.start))
  match rest.findIdx? (fun other => decide (area.start <= other.start)) with
  | some index => skipped ++ rest.take index ++ area :: rest.drop index
  | none => areas ++ [area]

/-- An address as the signed result of a system call. -/
def toIsize (va : Nat) : Int := if va < 2 ^ 63 then va else va - usizeRange

/-- The part of `mmap` that makes a new area at `startVa`.  The file is what the
descriptor table gives for `fd`, at the requested position, or the error. -/
def mmapNew (set : MemorySet) (startVa len : Nat) (prot : MapPermission) (flags : MapFlags)
    (file : Except Int MapFile) : Option (Int × MemorySet) :=
  match MapArea.new startVa ((startVa + len) % usizeRange) prot none with
  | none => none
  | some area =>
    if flags.anonymous then some (toIsize startVa, ⟨set.pageTable, insertArea set.areas area⟩)
    else
      match file with
      | .error errno => some (errno, set)
      | .ok file =>
        some (toIsize startVa,
          ⟨set.pageTable, insertArea set.areas { area with mapFile := some file }⟩)

/-- `mmap`; `none` is a panic. -/
def mmap (set : MemorySet) (start len : Nat) (prot : MapPermission) (flags : MapFlags)
    (file : Except Int MapFile) : Option (Int × MemorySet) :=
  if pageOffset start ≠ 0 then some (EINVAL, set)
  else
    let len := if len = 0 then pageSize else len
    match set.lastMmapAreaIdx with
    | none => none
    | some last =>
      if flags.fixed then
        match set.munmap start len with
        | none => none
        | some (_, set) => set.mmapNew start len prot flags file
      else
        match last with
        | none => set.mmapNew mmapBase len prot flags file
        | some index =>
          match set.areas[index]? with
          | none => none
          | some area =>
            let endVa := startAddr area.stop
            if flags.priv /\ flags.anonymous /\ prot = area.mapPerm /\ area.mapFile.isNone then
              match area.expandTo ((endVa + len) % usizeRange) with
              | none => none
              | some area => some (toIsize endVa, ⟨set.pageTable, set.areas.set index area⟩)
            else set.mmapNew endVa len prot flags file

/-! ## The page fault handler -/

/-- The area that handles a fault: the first readable user area with the page. -/
def faultArea (areas : List MapArea) (vpn : Nat) : Option Nat :=
  areas.findIdx? (fun area => area.mapPerm.r && area.mapPerm.u && decide (area.Holds vpn))

section Functions

variable (area : MapArea) (table : PageTable)

/-- The branch of a page that is not mapped and has a backing file. -/
def faultFile (vpn : Nat) (file : MapFile) (env : FaultEnv) :
    Except Panic (Except MemoryError Nat × MapArea × PageTable × Fill) :=
  let offset := file.offset + (vpn - area.start) * pageSize
  if offset > (env.fileSize + (pageSize - 1)) / pageSize * pageSize then
    .ok (.error .beyondEOF, area, table, .none)
  else if area.mapPerm.w then
    match env.frame with
    | none => .ok (.error .badAddress, area, table, .none)
    | some ppn =>
      match area.mapFrame table vpn ppn with
      | .error panic => .error panic
      | .ok (area, table) => .ok (.ok ppn, area, table, .file file.ino offset ppn)
  else
    match env.cachePage with
    | none => .error .noCachePage
    | some ppn =>
      match area.mapFrame table vpn ppn with
      | .error panic => .error panic
      | .ok (area, table) => .ok (.ok ppn, area, table, .none)

/-- Bring a page that was put aside back into a frame. -/
def restore (vpn ppn : Nat) (inner : LinearMap) (fill : Fill) :
    Except Panic (Except MemoryError Nat × MapArea × PageTable × Fill) :=
  match table.map vpn ppn area.mapPerm with
  | none => .error .mappedBeforeMapping
  | some table =>
    let index := vpn - area.start
    .ok (.ok ppn,
      { area with
        inner := { inner with
          frames := inner.frames.set index (.inMemory ppn)
          active := inner.active ++ [LinearMap.byteIndex index] } },
      table, fill)

/-- The branch of a page that is not mapped in an anonymous area. -/
def faultAnonymous (vpn : Nat) (env : FaultEnv) :
    Except Panic (Except MemoryError Nat × MapArea × PageTable × Fill) :=
  match area.frame? vpn with
  | none => .error .failed
  | some (.inMemory _) => .error .unreachableInMemory
  | some .unallocated =>
    match env.frame with
    | none => .ok (.error .badAddress, area, table, .none)
    | some ppn =>
      match area.mapFrame table vpn ppn with
      | .error panic => .error panic
      | .ok (area, table) => .ok (.ok ppn, area, table, .zero ppn)
  | some (.compressed id) =>
    match env.frame with
    | none => .error .outOfFrames
    | some ppn =>
      restore area table vpn ppn
        { area.inner with compressed := (area.inner.compressed + (usizeRange - 1)) % usizeRange }
        (.unzip id ppn)
  | some (.swappedOut id) =>
    match env.frame with
    | none => .error .outOfFrames
    | some ppn =>
      restore area table vpn ppn
        { area.inner with swapped := (area.inner.swapped + (usizeRange - 1)) % usizeRange }
        (.swapIn id ppn)

/-- The handler on the area found.  Areas are framed, so a mapped page whose area was
not stripped always goes to `copy_on_write`. -/
def faultIn (vpn : Nat) (env : FaultEnv) :
    Except Panic (Except MemoryError Nat × MapArea × PageTable × Fill) :=
  if table.isMapped vpn then
    if area.writableStripped then .ok (.error .noPermission, area, table, .none)
    else area.copyOnWrite table vpn env
  else
    match area.mapFile with
    | some file => faultFile area table vpn file env
    | none => faultAnonymous area table vpn env

end Functions

/-- `do_page_fault`; a success is the physical address. -/
def doPageFault (set : MemorySet) (addr : Nat) (env : FaultEnv) :
    Except Panic (Except MemoryError Nat × MemorySet × Fill) :=
  let vpn := floor addr
  match faultArea set.areas vpn with
  | none => .ok (.error .badAddress, set, .none)
  | some index =>
    match set.areas[index]? with
    | none => .error .failed
    | some area =>
      match faultIn area set.pageTable vpn env with
      | .error panic => .error panic
      | .ok (result, area, table, fill) =>
        .ok (result.map (fun ppn => ppn * pageSize + pageOffset addr),
          ⟨table, set.areas.set index area⟩, fill)

/-! ## Reclaim -/

/-- A reclaim pass over the areas, with the choice of what to do with each. -/
def cleanAreas (pass : MapArea -> PageTable -> (Nat -> ReclaimEnv) -> MapArea × PageTable × List Store × Nat) :
    List MapArea -> (Nat -> Nat -> ReclaimEnv) -> PageTable -> List MapArea × PageTable × List Store × Nat
  | [], _, table => ([], table, [], 0)
  | area :: areas, envs, table =>
    let (area, table, store, count) := pass area table (envs 0)
    let (areas, table, stores, counts) := cleanAreas pass areas (fun round => envs (round + 1)) table
    (area :: areas, table, store ++ stores, (count + counts) % usizeRange)

/-- Areas that a pass leaves alone. -/
def skipArea (area : MapArea) (table : PageTable) : MapArea × PageTable × List Store × Nat :=
  (area, table, [], 0)

def shallowPass (area : MapArea) (table : PageTable) (envs : Nat -> ReclaimEnv) :
    MapArea × PageTable × List Store × Nat :=
  if floor mmapBase <= area.start /\ area.start < floor taskSize /\ area.mapFile.isNone then
    area.doOom table envs
  else skipArea area table

def deepPass (area : MapArea) (table : PageTable) (envs : Nat -> ReclaimEnv) :
    MapArea × PageTable × List Store × Nat :=
  if area.start < floor taskSize /\ area.mapFile.isNone then
    if area.start < floor mmapBase then area.forceSwap table envs else area.doOom table envs
  else skipArea area table

def doShallowClean (set : MemorySet) (envs : Nat -> Nat -> ReclaimEnv) : Nat × MemorySet × List Store :=
  let (areas, table, stores, count) := cleanAreas shallowPass set.areas envs set.pageTable
  (count, ⟨table, areas⟩, stores)

def doDeepClean (set : MemorySet) (envs : Nat -> Nat -> ReclaimEnv) : Nat × MemorySet × List Store :=
  let (areas, table, stores, count) := cleanAreas deepPass set.areas envs set.pageTable
  (count, ⟨table, areas⟩, stores)

/-! ## Fork and thread resources -/

/-- A bare space with both trampolines; where they lie in memory is given. -/
def newUser (trampolinePpn signalPpn : Nat) : MemorySet where
  pageTable :=
    (PageTable.new.set (floor trampoline) (some ⟨trampolinePpn, ⟨true, false, true, false⟩⟩)).set
      (floor signalTrampoline) (some ⟨signalPpn, ⟨true, false, true, true⟩⟩)
  areas := []

/-- Map each page of an area to a frame of its own, as `push` does. -/
def mapPages : List Nat -> List Nat -> MapArea -> PageTable -> Except Panic (MapArea × PageTable)
  | [], _, area, table => .ok (area, table)
  | vpn :: vpns, frames, area, table =>
    if table.isMapped vpn then .error .failed
    else
      match frames with
      | [] => .error .outOfFrames
      | ppn :: frames =>
        match area.mapFrame table vpn ppn with
        | .error panic => .error panic
        | .ok (area, table) => mapPages vpns frames area table

/-- `push` with no data, for the frames that the allocator gives. -/
def push (set : MemorySet) (area : MapArea) (frames : List Nat) : Except Panic MemorySet :=
  match mapPages (MapArea.pages area.start area.stop) frames area set.pageTable with
  | .error panic => .error panic
  | .ok (area, table) => .ok ⟨table, set.areas ++ [area]⟩

/-- Share all areas but the last between the spaces of a fork. -/
def shareAreas : List MapArea -> MemorySet -> PageTable -> Option (MemorySet × PageTable)
  | [], child, src => some (child, src)
  | area :: areas, child, src =>
    match area.mapFromExistingPageTable child.pageTable src with
    | none => none
    | some (dst, src) => shareAreas areas ⟨dst, child.areas ++ [area]⟩ src

/-- `from_existing_user`: the parent's space and the child's after it, with the frame
that the child's trap context is copied from and to.  The copied bytes end inside the
first page, so an area of more pages fails. -/
def fromExistingUser (set : MemorySet) (trampolinePpn signalPpn : Nat) (frames : List Nat) :
    Except Panic (MemorySet × MemorySet × Fill) :=
  match set.areas.getLast? with
  | none => .error .failed
  | some trapCxArea =>
    match shareAreas set.areas.dropLast (newUser trampolinePpn signalPpn) set.pageTable with
    | none => .error .failed
    | some (child, src) =>
      match src.translate trapCxArea.start with
      | none => .error .failed
      | some source =>
        if 1 < trapCxArea.stop - trapCxArea.start then .error .failed
        else
          match child.push trapCxArea.fromAnother frames with
          | .error panic => .error panic
          | .ok child =>
            .ok (⟨src, set.areas⟩, child,
              if trapCxArea.start < trapCxArea.stop then
                match child.pageTable.translate trapCxArea.start with
                | some target => .copy source target
                | none => .none
              else .none)

end MemorySet

end GCore.Mm
