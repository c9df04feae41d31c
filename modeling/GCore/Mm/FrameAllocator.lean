import Mathlib.Algebra.BigOperators.Group.Finset.Basic
import GCore.Library.Run
import GCore.Mm.Stores

namespace GCore.Mm

open Library List Page

/-!
# The frame allocator

`StackFrameAllocator` hands out the frames of a range.  Frames that come back are kept on
a stack, and the frames from `current` on have never been handed out.  A single frame is
taken from the stack first; a contiguous piece is always cut off at `current`.

`frame_alloc` and `frames_alloc` make these requests too, and what the handler for a lack of
frames gives back is a release like any other, so they are parts of a run here.

The frames that are in use are not recorded by the allocator.  `FrameWorld` has them beside
it, so that a run of requests can be followed: at any time the frames in use and those on
the stack are the frames below `current`, each of them once.
-/

/-- The stack of returned frames is written with the newest first. -/
structure StackFrameAllocator where
  current : Nat
  stop : Nat
  recycled : List Nat
  deriving DecidableEq

/-- A range of frames, with its ends in machine words. -/
structure FrameRange where
  first : Nat
  last : Nat
  first_le : first <= last
  last_lt : last < 2 ^ 64

/-- The contents of all frames. -/
abbrev FrameContents : Type := Nat -> Page

/-- `FrameTracker::new` clears the frame. -/
def FrameContents.clear (contents : FrameContents) (ppn : Nat) : FrameContents := Function.update contents ppn zero

variable {ppn : Nat}

namespace StackFrameAllocator

def init (range : FrameRange) : StackFrameAllocator := ⟨range.first, range.last, []⟩

section Operations

variable (allocator : StackFrameAllocator)

/-- The frames that have never been handed out. -/
def ahead : Nat := (allocator.stop + 2 ^ 64 - allocator.current) % 2 ^ 64

def unallocatedFrames : Nat := (allocator.ahead + allocator.recycled.length) % 2 ^ 64

/-- Both ways to allocate a frame choose it like this. -/
def takeFrame : Option (Nat × StackFrameAllocator) :=
  match allocator.recycled with
  | ppn :: rest => some (ppn, { allocator with recycled := rest })
  | [] =>
    if allocator.current = allocator.stop then none
    else some (allocator.current, { allocator with current := allocator.current + 1 })

def alloc (contents : FrameContents) : Option (Nat × StackFrameAllocator × FrameContents) :=
  allocator.takeFrame.map (fun (ppn, allocator) => (ppn, allocator, contents.clear ppn))

/-- The frame keeps what is in it. -/
def allocUninit (contents : FrameContents) : Option (Nat × StackFrameAllocator × FrameContents) :=
  allocator.takeFrame.map (fun (ppn, allocator) => (ppn, allocator, contents))

/-- A frame that was not handed out is only noticed in a debug build; one that is on the stack
is always noticed. -/
def dealloc (debug : Bool) (ppn : Nat) : Option StackFrameAllocator :=
  if debug = true /\ allocator.current <= ppn \/ ppn ∈ allocator.recycled then none
  else some { allocator with recycled := ppn :: allocator.recycled }

/-- With the first frame of the piece. -/
def allocContiguous (num : Nat) : Option (Nat × StackFrameAllocator) :=
  if allocator.ahead < num then none
  else some (allocator.current, { allocator with current := allocator.current + num })

/-- Release the frames of a piece one after another. -/
def framesDeallocContiguous (debug : Bool) (startPpn numPages : Nat) : Option StackFrameAllocator :=
  (range' startPpn numPages).foldlM (fun allocator ppn => allocator.dealloc debug ppn) allocator

end Operations

variable {allocator : StackFrameAllocator}

theorem takeFrame_cons {rest : List Nat} (returned : allocator.recycled = ppn :: rest) :
    allocator.takeFrame = some (ppn, { allocator with recycled := rest }) := by
  unfold takeFrame
  rw [returned]

theorem takeFrame_nil (returned : allocator.recycled = []) :
    allocator.takeFrame = if allocator.current = allocator.stop then none
      else some (allocator.current, { allocator with current := allocator.current + 1 }) := by
  unfold takeFrame
  rw [returned]

end StackFrameAllocator

open StackFrameAllocator

/-- The allocator with the contents of the frames and the frames in use. -/
structure FrameWorld where
  allocator : StackFrameAllocator
  contents : FrameContents
  live : List Nat

inductive FrameOp where
  | alloc
  | allocUninit
  | allocContiguous (num : Nat)
  | dealloc (ppn : Nat)
  | framesDeallocContiguous (startPpn numPages : Nat)

namespace FrameWorld

section Operations

variable (world : FrameWorld)

/-- Take over what an allocation of a frame returns. -/
def grant : Option (Nat × StackFrameAllocator × FrameContents) -> FrameWorld
  | none => world
  | some (ppn, allocator, contents) => ⟨allocator, contents, ppn :: world.live⟩

def grantPiece (num : Nat) : Option (Nat × StackFrameAllocator) -> FrameWorld
  | none => world
  | some (first, allocator) => { world with allocator := allocator, live := range' first num ++ world.live }

/-- A request that panics has no world after it. -/
def exec (debug : Bool) : FrameOp -> Option FrameWorld
  | .alloc => some (world.grant (world.allocator.alloc world.contents))
  | .allocUninit => some (world.grant (world.allocator.allocUninit world.contents))
  | .allocContiguous num => some (world.grantPiece num (world.allocator.allocContiguous num))
  | .dealloc ppn =>
    (world.allocator.dealloc debug ppn).map (fun allocator =>
      { world with allocator := allocator, live := world.live.erase ppn })
  | .framesDeallocContiguous startPpn numPages =>
    (world.allocator.framesDeallocContiguous debug startPpn numPages).map (fun allocator =>
      { world with allocator := allocator, live := world.live.diff (range' startPpn numPages) })

/-- Only frames in use are released. -/
def Admits : FrameOp -> Prop
  | .dealloc ppn => ppn ∈ world.live
  | .framesDeallocContiguous startPpn numPages => ∀ ppn ∈ range' startPpn numPages, ppn ∈ world.live
  | _ => True

end Operations

def start (range : FrameRange) (contents : FrameContents) : FrameWorld := ⟨.init range, contents, []⟩

def Step (debug : Bool) (before : FrameWorld) (op : FrameOp) (after : FrameWorld) : Prop :=
  before.Admits op /\ before.exec debug op = some after

/-- The frames in use and those on the stack are the ones below `current`. -/
structure Partitioned (range : FrameRange) (world : FrameWorld) : Prop where
  stop : world.allocator.stop = range.last
  first_le : range.first <= world.allocator.current
  le_stop : world.allocator.current <= range.last
  perm : (world.live ++ world.allocator.recycled).Perm
    (range' range.first (world.allocator.current - range.first))

variable {range : FrameRange} {world after : FrameWorld} {debug : Bool}

theorem Partitioned.initial (range : FrameRange) (contents : FrameContents) : Partitioned range (start range contents) where
  stop := rfl
  first_le := le_rfl
  le_stop := range.first_le
  perm := by
    change ([] : List Nat).Perm (range' range.first (range.first - range.first))
    rw [Nat.sub_self]
    exact Perm.refl []

namespace Partitioned

variable (parts : Partitioned range world)

include parts

theorem nodup : (world.live ++ world.allocator.recycled).Nodup := parts.perm.nodup_iff.mpr (nodup_range' 1)

theorem length : world.live.length + world.allocator.recycled.length = world.allocator.current - range.first := by
  have same := parts.perm.length_eq
  rw [length_append, length_range'] at same
  exact same

theorem below (used : ppn ∈ world.live) : range.first <= ppn /\ ppn < world.allocator.current := by
  have member := parts.perm.mem_iff.mp (mem_append_left _ used)
  rw [mem_range'_1] at member
  omega

theorem ahead : world.allocator.ahead = range.last - world.allocator.current := by
  have high := parts.le_stop
  have small := range.last_lt
  unfold StackFrameAllocator.ahead
  rw [parts.stop]
  omega

theorem unallocatedFrames : world.allocator.unallocatedFrames + world.live.length = range.last - range.first := by
  have count := parts.length
  have low := parts.first_le
  have high := parts.le_stop
  have small := range.last_lt
  unfold StackFrameAllocator.unallocatedFrames
  rw [parts.ahead]
  omega

omit parts

/-! ## Allocation -/

variable {allocator : StackFrameAllocator}

include parts

theorem takeFrame (taken : world.allocator.takeFrame = some (ppn, allocator)) (contents : FrameContents) :
    Partitioned range ⟨allocator, contents, ppn :: world.live⟩ := by
  have perm := parts.perm
  cases returned : world.allocator.recycled with
  | cons first rest =>
    rw [takeFrame_cons returned] at taken
    rw [returned] at perm
    cases taken
    exact ⟨parts.stop, parts.first_le, parts.le_stop, perm_middle.symm.trans perm⟩
  | nil =>
    rw [takeFrame_nil returned] at taken
    rw [returned] at perm
    split at taken
    · cases taken
    · next different =>
        cases taken
        have room : world.allocator.current < range.last := by
          rw [parts.stop] at different
          exact lt_of_le_of_ne parts.le_stop different
        have low := parts.first_le
        refine ⟨parts.stop, Nat.le_succ_of_le low, room, ?_⟩
        have more : world.allocator.current + 1 - range.first = (world.allocator.current - range.first) + 1 := by omega
        have new : range.first + 1 * (world.allocator.current - range.first) = world.allocator.current := by omega
        rw [more, range'_concat, new, returned, cons_append]
        exact (perm.cons _).trans (perm_append_singleton _ _).symm

/-- A frame is found unless all are in use. -/
theorem takeFrame_none (failed : world.allocator.takeFrame = none) : world.allocator.unallocatedFrames = 0 := by
  cases returned : world.allocator.recycled with
  | cons first rest =>
    rw [takeFrame_cons returned] at failed
    cases failed
  | nil =>
    rw [takeFrame_nil returned] at failed
    split at failed
    · next full =>
        unfold StackFrameAllocator.unallocatedFrames
        rw [parts.ahead, full, parts.stop, Nat.sub_self, returned]
        rfl
    · cases failed

theorem allocContiguous {num first : Nat} (cut : world.allocator.allocContiguous num = some (first, allocator)) :
    first = world.allocator.current /\ first + num <= range.last /\
      Partitioned range { world with allocator := allocator, live := range' first num ++ world.live } := by
  have ahead := parts.ahead
  have low := parts.first_le
  have high := parts.le_stop
  unfold StackFrameAllocator.allocContiguous at cut
  split at cut
  · cases cut
  · next enough =>
      cases cut
      have room : world.allocator.current + num <= range.last := by omega
      refine ⟨rfl, room, parts.stop, Nat.le_add_right_of_le low, room, ?_⟩
      have more : world.allocator.current + num - range.first = (world.allocator.current - range.first) + num := by omega
      have new : range.first + 1 * (world.allocator.current - range.first) = world.allocator.current := by omega
      have cuts := @List.range'_append range.first (world.allocator.current - range.first) num 1
      rw [new] at cuts
      rw [more, <- cuts, append_assoc]
      exact perm_append_comm.trans (parts.perm.append_right _)

/-! ## Release -/

theorem dealloc (debug : Bool) (used : ppn ∈ world.live) :
    ∃ allocator, world.allocator.dealloc debug ppn = some allocator /\
      Partitioned range { world with allocator := allocator, live := world.live.erase ppn } := by
  have below := (parts.below used).2
  have apart : ppn ∉ world.allocator.recycled := fun returned =>
    (nodup_append.mp parts.nodup).2.2 ppn used ppn returned rfl
  refine ⟨{ world.allocator with recycled := ppn :: world.allocator.recycled }, ?_, parts.stop, parts.first_le,
    parts.le_stop, ?_⟩
  · unfold StackFrameAllocator.dealloc
    rw [if_neg]
    rintro (⟨_, _⟩ | returned)
    · omega
    · exact apart returned
  · have back : (ppn :: world.live.erase ppn).Perm world.live := (perm_cons_erase used).symm
    exact perm_middle.trans ((back.append_right _).trans parts.perm)

/-- Frames that are in use can be released in any order. -/
theorem deallocs (debug : Bool) {ppns : List Nat} (nodup : ppns.Nodup) (used : ∀ ppn ∈ ppns, ppn ∈ world.live) :
    ∃ allocator, ppns.foldlM (fun allocator ppn => allocator.dealloc debug ppn) world.allocator = some allocator /\
      Partitioned range { world with allocator := allocator, live := world.live.diff ppns } := by
  induction ppns generalizing world with
  | nil => exact ⟨world.allocator, rfl, parts⟩
  | cons ppn ppns ih =>
    rw [nodup_cons] at nodup
    rcases parts.dealloc debug (used ppn mem_cons_self) with ⟨_, released, less⟩
    have others : ∀ other ∈ ppns, other ∈ world.live.erase ppn := by
      intro other member
      have different : other ≠ ppn := fun same => nodup.1 (same ▸ member)
      exact (mem_erase_of_ne different).mpr (used other (mem_cons_of_mem _ member))
    rcases ih less nodup.2 others with ⟨allocator, rest, final⟩
    refine ⟨allocator, ?_, ?_⟩
    · rw [foldlM_cons, released]
      exact rest
    · rw [diff_cons]
      exact final

end Partitioned

/-! ## Runs -/

variable (parts : Partitioned range world)

include parts

theorem Partitioned.grant (filled : Nat -> FrameContents) :
    Partitioned range (world.grant (world.allocator.takeFrame.map (fun (ppn, allocator) => (ppn, allocator, filled ppn)))) := by
  cases taken : world.allocator.takeFrame with
  | none => exact parts
  | some chosen => exact parts.takeFrame taken _

theorem Partitioned.grantPiece (num : Nat) :
    Partitioned range (world.grantPiece num (world.allocator.allocContiguous num)) := by
  cases cut : world.allocator.allocContiguous num with
  | none => exact parts
  | some piece => exact (parts.allocContiguous cut).2.2

/-- No admitted request panics, and each of them keeps the partition. -/
theorem Partitioned.exec (debug : Bool) {op : FrameOp} (admitted : world.Admits op) :
    ∃ after, world.exec debug op = some after /\ Partitioned range after := by
  cases op with
  | alloc => exact ⟨_, rfl, parts.grant world.contents.clear⟩
  | allocUninit => exact ⟨_, rfl, parts.grant (fun _ => world.contents)⟩
  | allocContiguous num => exact ⟨_, rfl, parts.grantPiece num⟩
  | dealloc ppn =>
    rcases parts.dealloc debug admitted with ⟨allocator, released, less⟩
    exact ⟨_, congrArg (Option.map _) released, less⟩
  | framesDeallocContiguous startPpn numPages =>
    rcases parts.deallocs debug (nodup_range' 1) admitted with ⟨allocator, released, less⟩
    exact ⟨_, congrArg (Option.map _) released, less⟩

omit parts

variable {contents : FrameContents}

theorem Partitioned.reached (run : Reached (Step debug) (start range contents) world) :
    Partitioned range world := by
  refine run.invariant (Partitioned.initial range contents) ?_
  intro before op after parts taken
  rcases parts.exec debug taken.1 with ⟨_, done, kept⟩
  rw [taken.2] at done
  cases done
  exact kept

/-- What the allocator owes to its callers. -/
structure Serves (debug : Bool) (range : FrameRange) (world : FrameWorld) : Prop where
  nodup : world.live.Nodup
  inside : ∀ ppn ∈ world.live, range.first <= ppn /\ ppn < range.last
  unallocated : world.allocator.unallocatedFrames + world.live.length = range.last - range.first
  alloc : world.allocator.alloc world.contents = none -> world.allocator.unallocatedFrames = 0
  allocUninit : world.allocator.allocUninit world.contents = none -> world.allocator.unallocatedFrames = 0
  contiguous : ∀ num first allocator, world.allocator.allocContiguous num = some (first, allocator) ->
    ∀ ppn ∈ range' first num, range.first <= ppn /\ ppn < range.last /\ ppn ∉ world.live
  total : ∀ op, world.Admits op -> (world.exec debug op).isSome = true

/-- In every run the frames in use are distinct frames of the range and accounted for, an
allocation fails only if there is no frame left, a contiguous piece is free, and no request
for frames in use panics. -/
theorem allocator_serves_in_every_run {range : FrameRange} {world : FrameWorld} {debug : Bool}
    (run : Reached (Step debug) (start range contents) world) : Serves debug range world := by
  have parts := Partitioned.reached run
  constructor
  · exact (nodup_append.mp parts.nodup).1
  · intro ppn used
    have below := parts.below used
    exact ⟨below.1, below.2.trans_le parts.le_stop⟩
  · exact parts.unallocatedFrames
  · intro failed
    exact parts.takeFrame_none (Option.map_eq_none_iff.mp failed)
  · intro failed
    exact parts.takeFrame_none (Option.map_eq_none_iff.mp failed)
  · intro num first allocator cut ppn member
    rcases parts.allocContiguous cut with ⟨begins, room, _⟩
    have low := parts.first_le
    rw [mem_range'_1] at member
    refine ⟨by omega, by omega, ?_⟩
    intro used
    have below := (parts.below used).2
    omega
  · intro op admitted
    rcases parts.exec debug admitted with ⟨after, done, _⟩
    rw [done]
    rfl

theorem two_frames_serve_after_release :
    ∃ world, Reached (Step true) (start ⟨3, 5, by decide, by decide⟩ (fun _ => zero)) world /\
      world.live = [4] /\ Serves true ⟨3, 5, by decide, by decide⟩ world := by
  have cut : (StackFrameAllocator.mk 3 5 []).allocContiguous 2 = some (3, ⟨5, 5, []⟩) := by decide +kernel
  have piece : Step true (start ⟨3, 5, by decide, by decide⟩ (fun _ => zero)) (.allocContiguous 2)
      ⟨⟨5, 5, []⟩, fun _ => zero, [3, 4]⟩ := ⟨trivial, congrArg (fun cut => some (grantPiece _ 2 cut)) cut⟩
  have release : Step true ⟨⟨5, 5, []⟩, fun _ => zero, [3, 4]⟩ (.dealloc 3)
      ⟨⟨5, 5, [3]⟩, fun _ => zero, [4]⟩ := ⟨mem_cons_self, rfl⟩
  have run := (Reached.refl.next piece).next release
  exact ⟨_, run, rfl, allocator_serves_in_every_run run⟩

end FrameWorld

end GCore.Mm
