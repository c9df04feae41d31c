import Mathlib.Algebra.Order.Ring.Nat

namespace GCore.Mm

open List

/-!
# Frames of an area

A linear map records, page by page, where the content of a stretch of pages is: in a
frame, in the compressed store, on the swap device, or nowhere yet.  The trackers of
the source are reference counted handles, and what they hold is known by its number,
so a frame here is the number and a copied handle is the same number twice.

The queue of active pages and the two counters are kept as the source updates them,
which is not always in step with the frames: trimming a map neither renumbers the
queue nor counts what it drops.
-/

inductive Frame where
  | inMemory (ppn : Nat)
  | compressed (id : Nat)
  | swappedOut (id : Nat)
  | unallocated
  deriving DecidableEq, Repr

/-- The frame of memory that holds the content, if there is one. -/
def Frame.ppn? : Frame -> Option Nat
  | .inMemory ppn => some ppn
  | _ => none

/-- `LinearMap`.  The range ends where the frames do, as in every map that the source
builds.  Entries of `active` are 16 bits wide. -/
structure LinearMap where
  start : Nat
  frames : List Frame
  active : List Nat
  compressed : Nat
  swapped : Nat
  deriving DecidableEq, Repr

namespace LinearMap

def stop (map : LinearMap) : Nat := map.start + map.frames.length

def byteIndex (index : Nat) : Nat := index % 2 ^ 16

/-- An empty stretch of `len` pages. -/
def new (start len : Nat) : LinearMap where
  start := start
  frames := replicate len .unallocated
  active := []
  compressed := 0
  swapped := 0

section Functions

variable (map : LinearMap)

/-- The record of a page, if it lies in the range. -/
def frame? (vpn : Nat) : Option Frame :=
  if map.start <= vpn then map.frames[vpn - map.start]? else none

/-- `alloc_in_memory`; a page that is recorded already fails the `unwrap`. -/
def allocInMemory (vpn ppn : Nat) : Option LinearMap :=
  let index := vpn - map.start
  if map.frames[index]? = some .unallocated then
    some { map with
      frames := map.frames.set index (.inMemory ppn)
      active := map.active ++ [byteIndex index] }
  else none

/-- `remove_in_memory`: the queue forgets the page whatever its record is. -/
def removeInMemory (vpn : Nat) : Option Nat × LinearMap :=
  let index := vpn - map.start
  let active := map.active.filter (fun entry => decide (entry ≠ index))
  match map.frames[index]? with
  | some (Frame.inMemory ppn) =>
    (some ppn, { map with frames := map.frames.set index .unallocated, active := active })
  | _ => (none, { map with active := active })

/-- `set_start` for a start inside the range: rotating left and cutting off the end
drops the frames in front. -/
def setStart (newStart : Nat) : LinearMap :=
  { map with start := newStart, frames := map.frames.drop (newStart - map.start) }

/-- `set_end` for an end behind the start. -/
def setEnd (newEnd : Nat) : LinearMap :=
  { map with
    frames := map.frames.take (newEnd - map.start) ++
      replicate (newEnd - map.start - map.frames.length) .unallocated }

def countCompressedAndSwapped (frames : List Frame) : Nat × Nat :=
  if map.compressed = 0 /\ map.swapped = 0 then (0, 0)
  else
    frames.foldl
      (fun counts frame =>
        match frame with
        | .compressed _ => (counts.1 + 1, counts.2)
        | .swappedOut _ => (counts.1, counts.2 + 1)
        | _ => counts)
      (0, 0)

/-- `into_two`: the lower part stays and the upper part is returned.  The numbers of
the queue and the counters are subtracted in 16 and 64 bits. -/
def intoTwo (cut : Nat) : Option (LinearMap × LinearMap) :=
  if cut <= map.start \/ map.stop <= cut then none
  else
    let index := cut - map.start
    let lower := map.frames.take index
    let counts := map.countCompressedAndSwapped lower
    some
      ({ start := map.start
         frames := lower
         active := map.active.filter (fun entry => decide (entry < index))
         compressed := counts.1
         swapped := counts.2 },
       { start := cut
         frames := map.frames.drop index
         active := (map.active.filter (fun entry => decide (¬ entry < index))).map
           (fun entry => byteIndex (entry + (2 ^ 16 - byteIndex index)))
         compressed := (map.compressed + (2 ^ 64 - counts.1)) % 2 ^ 64
         swapped := (map.swapped + (2 ^ 64 - counts.2)) % 2 ^ 64 })

/-- `into_three`.  When the second cut fails, the first one has been made already and
the upper part is dropped with it: the map that stays is returned in both cases. -/
def intoThree (firstCut secondCut : Nat) :
    LinearMap × Option (LinearMap × LinearMap) :=
  match map.intoTwo firstCut with
  | none => (map, none)
  | some (first, second) => (first, second.intoTwo secondCut)

end Functions

/-! ## The record of a page after an update -/

variable {map : LinearMap} {vpn : Nat}

theorem frame?_eq_some_iff {frame : Frame} :
    map.frame? vpn = some frame ↔ map.start <= vpn /\ map.frames[vpn - map.start]? = some frame := by
  unfold frame?
  split
  · next inside => simp [inside]
  · next outside => simp [outside]

variable (map) in
theorem frame?_isSome_iff (vpn : Nat) : (map.frame? vpn).isSome = true ↔ map.start <= vpn /\ vpn < map.stop := by
  unfold frame? stop
  split
  · next inside =>
      constructor
      · intro recorded
        rcases Option.isSome_iff_exists.mp recorded with ⟨frame, record⟩
        have below := (List.getElem?_eq_some_iff.mp record).1
        exact ⟨inside, by omega⟩
      · rintro ⟨_, below⟩
        rw [getElem?_eq_getElem (show vpn - map.start < map.frames.length by omega)]
        rfl
  · next outside => simp [outside]

theorem frame?_new (start len vpn : Nat) :
    (new start len).frame? vpn = if start <= vpn /\ vpn < start + len then some .unallocated else none := by
  unfold frame? new
  dsimp only
  by_cases inside : start <= vpn
  · rw [if_pos inside, getElem?_replicate]
    by_cases below : vpn < start + len
    · rw [if_pos (by omega), if_pos ⟨inside, below⟩]
    · rw [if_neg (by omega), if_neg (fun both => below both.2)]
  · rw [if_neg inside, if_neg (fun both => inside both.1)]

variable (inside : map.start <= vpn)

include inside

variable (map) in
/-- Replacing the record of a page in the range changes that page only. -/
theorem frame?_set (below : vpn < map.stop) (frame : Frame) (active : List Nat) (other : Nat) :
    ({ map with frames := map.frames.set (vpn - map.start) frame, active := active } : LinearMap).frame? other =
      if other = vpn then some frame else map.frame? other := by
  unfold frame?
  unfold stop at below
  dsimp only
  by_cases same : other = vpn
  · subst same
    rw [if_pos inside, if_pos rfl, getElem?_set_self (by omega)]
  · rw [if_neg same]
    by_cases ahead : map.start <= other
    · rw [if_pos ahead, if_pos ahead, getElem?_set_ne (by omega)]
    · rw [if_neg ahead, if_neg ahead]

theorem allocInMemory_eq_some {after : LinearMap} {ppn : Nat} (taken : map.allocInMemory vpn ppn = some after) :
    map.frame? vpn = some .unallocated /\ after.start = map.start /\ after.stop = map.stop /\
      ∀ other, after.frame? other = if other = vpn then some (.inMemory ppn) else map.frame? other := by
  unfold allocInMemory at taken
  by_cases free : map.frames[vpn - map.start]? = some .unallocated
  · rw [if_pos free] at taken
    cases taken
    have record : map.frame? vpn = some .unallocated := frame?_eq_some_iff.mpr ⟨inside, free⟩
    have below := ((map.frame?_isSome_iff vpn).mp (by rw [record]; rfl)).2
    refine ⟨record, rfl, by simp [stop], ?_⟩
    intro other
    exact map.frame?_set inside below _ _ other
  · rw [if_neg free] at taken
    cases taken

/-- The queue without the entries that name the page. -/
def forget (map : LinearMap) (vpn : Nat) : List Nat :=
  map.active.filter (fun entry => decide (entry ≠ vpn - map.start))

omit inside in
theorem removeInMemory_of_inMemory {ppn : Nat} (record : map.frame? vpn = some (.inMemory ppn)) :
    map.removeInMemory vpn = (some ppn,
      { map with frames := map.frames.set (vpn - map.start) .unallocated, active := map.forget vpn }) := by
  simp only [removeInMemory, (frame?_eq_some_iff.mp record).2]
  rfl

theorem removeInMemory_of_other (other : ∀ ppn, map.frame? vpn ≠ some (.inMemory ppn)) :
    map.removeInMemory vpn = (none, { map with active := map.forget vpn }) := by
  simp only [removeInMemory]
  split
  · next ppn record => cases other ppn (frame?_eq_some_iff.mpr ⟨inside, record⟩)
  · rfl

variable (map)

theorem removeInMemory_spec :
    (map.removeInMemory vpn).2.start = map.start /\ (map.removeInMemory vpn).2.stop = map.stop /\
      (∀ ppn, (map.removeInMemory vpn).1 = some ppn ↔ map.frame? vpn = some (.inMemory ppn)) /\
      ∀ other, (map.removeInMemory vpn).2.frame? other =
        if other = vpn /\ (map.removeInMemory vpn).1.isSome = true then some .unallocated
        else map.frame? other := by
  by_cases resident : ∃ ppn, map.frame? vpn = some (.inMemory ppn)
  · rcases resident with ⟨ppn, record⟩
    have below := ((map.frame?_isSome_iff vpn).mp (by rw [record]; rfl)).2
    rw [removeInMemory_of_inMemory record]
    refine ⟨rfl, by simp [stop], ?_, ?_⟩
    · intro other
      simp [record]
    · intro other
      simpa using map.frame?_set inside below .unallocated _ other
  · rw [removeInMemory_of_other inside (fun ppn record => resident ⟨ppn, record⟩)]
    refine ⟨rfl, rfl, ?_, ?_⟩
    · intro ppn
      exact iff_of_false nofun (fun record => resident ⟨ppn, record⟩)
    · intro other
      simp [frame?]

omit inside

/-! ## Parts of a map

Splitting and trimming hand out parts of the range.  A split in three that fails at its
second cut has made the first one: the pages behind it are gone.
-/

/-- The pages from `first` up to `last` of a map, as a map of their own. -/
structure Part (map : LinearMap) (first last : Nat) (part : LinearMap) : Prop where
  start_eq : part.start = first
  stop_eq : part.stop = last
  frame_eq : ∀ vpn, first <= vpn -> vpn < last -> part.frame? vpn = map.frame? vpn

variable {map} {first last cut firstCut secondCut : Nat} {part lower middle upper : LinearMap}

theorem Part.of_drop (above : map.start <= first) (below : first <= map.stop) (start_eq : part.start = first)
    (frames_eq : part.frames = map.frames.drop (first - map.start)) : Part map first map.stop part := by
  refine ⟨start_eq, ?_, fun vpn ahead _ => ?_⟩
  · rw [stop] at below ⊢
    rw [stop, start_eq, frames_eq, length_drop]
    omega
  · rw [frame?, frame?, start_eq, frames_eq, if_pos ahead, if_pos (above.trans ahead), getElem?_drop]
    congr 1
    omega

theorem Part.of_take (above : map.start <= last) (below : last <= map.stop) (start_eq : part.start = map.start)
    (frames_eq : part.frames = map.frames.take (last - map.start)) : Part map map.start last part := by
  refine ⟨start_eq, ?_, fun vpn ahead behind => ?_⟩
  · rw [stop] at below
    rw [stop, start_eq, frames_eq, length_take]
    omega
  · rw [frame?, frame?, start_eq, frames_eq, if_pos ahead, if_pos ahead, getElem?_take_of_lt (by omega)]

theorem Part.trans (whole : Part map first last middle) {low high : Nat} (part : Part middle low high upper)
    (above : first <= low) (below : high <= last) : Part map low high upper := by
  refine ⟨part.start_eq, part.stop_eq, fun vpn ahead behind => ?_⟩
  rw [part.frame_eq vpn ahead behind, whole.frame_eq vpn (above.trans ahead) (behind.trans_le below)]

theorem setEnd_spec (above : map.start <= last) :
    (map.setEnd last).stop = last /\
      ∀ vpn < last, vpn < map.stop -> (map.setEnd last).frame? vpn = map.frame? vpn := by
  constructor
  · simp only [stop, setEnd, length_append, length_take, length_replicate]
    omega
  · intro vpn behind inside
    rw [stop] at inside
    unfold frame? setEnd
    dsimp only
    by_cases ahead : map.start <= vpn
    · rw [if_pos ahead, if_pos ahead, getElem?_append_left (by rw [length_take]; omega),
        getElem?_take_of_lt (by omega)]
    · rw [if_neg ahead, if_neg ahead]

theorem intoTwo_parts (split : map.intoTwo cut = some (lower, upper)) :
    (map.start < cut /\ cut < map.stop) /\ Part map map.start cut lower /\ Part map cut map.stop upper := by
  unfold intoTwo at split
  split at split
  · cases split
  · next inside =>
    rw [not_or, not_le, not_le] at inside
    cases split
    exact ⟨inside, .of_take inside.1.le inside.2.le rfl rfl, .of_drop inside.1.le inside.2.le rfl rfl⟩

theorem intoTwo_refused (refused : map.intoTwo cut = none) : cut <= map.start \/ map.stop <= cut := by
  unfold intoTwo at refused
  split at refused
  · next outside => exact outside
  · cases refused

theorem intoThree_parts (split : map.intoThree firstCut secondCut = (lower, some (middle, upper))) :
    (map.start < firstCut /\ firstCut < secondCut /\ secondCut < map.stop) /\
      Part map map.start firstCut lower /\ Part map firstCut secondCut middle /\
      Part map secondCut map.stop upper := by
  unfold intoThree at split
  split at split
  · cases split
  · next first rest cut =>
    rcases intoTwo_parts cut with ⟨inside, firstPart, restPart⟩
    rcases intoTwo_parts (Prod.mk.inj split).2 with ⟨behind, middlePart, upperPart⟩
    rw [restPart.start_eq, restPart.stop_eq] at behind
    rw [restPart.start_eq] at middlePart
    rw [restPart.stop_eq] at upperPart
    exact ⟨⟨inside.1, behind⟩, (Prod.mk.inj split).1 ▸ firstPart, restPart.trans middlePart le_rfl behind.2.le,
      restPart.trans upperPart behind.1.le le_rfl⟩

/-- Either the first cut is refused, or the second is and the first was made. -/
theorem intoThree_refused (refused : map.intoThree firstCut secondCut = (lower, none)) :
    (firstCut <= map.start \/ map.stop <= firstCut) /\ lower = map \/
      (map.start < firstCut /\ firstCut < map.stop) /\ (secondCut <= firstCut \/ map.stop <= secondCut) /\
        Part map map.start firstCut lower := by
  unfold intoThree at refused
  split at refused
  · next outside => exact .inl ⟨intoTwo_refused outside, (Prod.mk.inj refused).1.symm⟩
  · next first rest cut =>
    rcases intoTwo_parts cut with ⟨inside, firstPart, restPart⟩
    have outside := intoTwo_refused (Prod.mk.inj refused).2
    rw [restPart.start_eq, restPart.stop_eq] at outside
    exact .inr ⟨inside, outside, (Prod.mk.inj refused).1 ▸ firstPart⟩

def resize (frames : List Frame) (len : Nat) : List Frame :=
  frames.take len ++ replicate (len - frames.length) .unallocated

/-- `set_start` with its check; the flag is whether the result is `Ok`.  A rotation by
more than the length panics. -/
def trySetStart (map : LinearMap) (newStart : Nat) : Option (LinearMap × Bool) :=
  let mid := if newStart < map.start then map.start - newStart else newStart - map.start
  if map.stop < newStart then some (map, false)
  else if map.frames.length < mid then none
  else
    some ({ map with
      start := newStart
      frames := resize (map.frames.drop mid ++ map.frames.take mid) (map.stop - newStart) }, true)

theorem trySetStart_eq (above : map.start <= first) :
    map.trySetStart first = some (if first <= map.stop then (map.setStart first, true) else (map, false)) := by
  unfold trySetStart
  dsimp only
  have length_eq : map.stop = map.start + map.frames.length := rfl
  rw [if_neg above.not_gt]
  split
  · next beyond => rw [if_neg beyond.not_ge]
  · next below =>
    have count_eq : map.stop - first = (map.frames.drop (first - map.start)).length := by
      rw [length_drop]
      omega
    rw [if_neg (by omega), if_pos (not_lt.mp below), resize, count_eq, take_left, length_append,
      Nat.sub_eq_zero_of_le (Nat.le_add_right _ _), replicate_zero, append_nil, setStart]

/-- What splitting and trimming are for: the frame of a page stays, and a refusal changes
nothing.  `set_end` asserts the order of its range before it checks it. -/
structure KeepsPages (map : LinearMap) (firstCut secondCut : Nat) : Prop where
  two : ∀ cut lower upper, map.intoTwo cut = some (lower, upper) ->
    Part map map.start cut lower /\ Part map cut map.stop upper
  three : ∀ lower middle upper, map.intoThree firstCut secondCut = (lower, some (middle, upper)) ->
    Part map map.start firstCut lower /\ Part map firstCut secondCut middle /\ Part map secondCut map.stop upper
  start : ∀ newStart ≥ map.start, map.trySetStart newStart = some (map, false) \/
    ∃ after, map.trySetStart newStart = some (after, true) /\ Part map newStart map.stop after
  stop : ∀ newEnd ≥ map.start, (map.setEnd newEnd).start = map.start /\ (map.setEnd newEnd).stop = newEnd /\
    ∀ vpn < newEnd, vpn < map.stop -> (map.setEnd newEnd).frame? vpn = map.frame? vpn
  refused : ∀ after, map.intoThree firstCut secondCut = (after, none) -> after = map

variable (map firstCut secondCut) in
theorem splits_keep_pages_iff :
    KeepsPages map firstCut secondCut ↔
      firstCut <= map.start \/ map.stop <= firstCut \/ firstCut < secondCut /\ secondCut < map.stop := by
  constructor
  · intro keeps
    cases split : map.intoThree firstCut secondCut with
    | mk after rest =>
      cases rest with
      | none =>
        rcases intoThree_refused split with ⟨outside, _⟩ | ⟨inside, _, part⟩
        · omega
        · rw [keeps.refused after split] at part
          cases inside.2.ne part.stop_eq.symm
      | some parts => exact .inr (.inr (intoThree_parts split).1.2)
  · intro fits
    refine ⟨fun _ _ _ split => (intoTwo_parts split).2, fun _ _ _ split => (intoThree_parts split).2, ?_,
      fun _ above => ⟨rfl, setEnd_spec above⟩, ?_⟩
    · intro newStart above
      rw [trySetStart_eq above]
      split
      · next below => exact .inr ⟨_, rfl, .of_drop above below rfl rfl⟩
      · exact .inl rfl
    · intro after split
      rcases intoThree_refused split with ⟨_, same⟩ | ⟨inside, outside, _⟩
      · exact same
      · omega

/-- The first cut leaves one of two pages, and the second is refused. -/
theorem refused_split_loses_page : ¬ KeepsPages (new 0 2) 1 2 := by
  intro keeps
  have lost := keeps.refused (new 0 1) (by decide)
  cases lost

end LinearMap

end GCore.Mm
