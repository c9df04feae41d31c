import Mathlib.Algebra.Order.Ring.Nat
import GCore.Errno
import GCore.Library.Circular
import GCore.Library.Run

namespace GCore.Fs

open Library List

/-!
# Pipes

A pipe is a ring buffer between a read end and a write end.  The ring keeps two
positions and a three-valued status; with equal positions the status alone tells
an empty ring from a full one.  The four transfer calls move bytes in runs that
stop at the end of the array and set the status when they are done.

The calls assume that they move at least one byte.  A call with an empty buffer
moves none and still sets the status to `NORMAL`, although the positions are
equal.  The refinement to a first-in first-out queue is therefore proved for
every run in which no empty write meets an empty ring and no empty read meets a
full one; there is no other exception, and in particular segments may be empty
and calls may interleave freely.
-/

inductive RingBufferStatus where
  | full
  | empty
  | normal
  deriving DecidableEq, Repr

/-- `RING_DEFAULT_BUFFER_SIZE`; both board configurations give the same value. -/
def ringDefaultBufferSize : Nat := 65536

/-- `PipeRingBuffer`.  The two weak references are only ever asked whether the
other end is gone, so that answer stands for them. -/
structure PipeRingBuffer where
  arr : Nat -> UInt8
  head : Nat
  tail : Nat
  status : RingBufferStatus
  allWriteEndsClosed : Bool
  allReadEndsClosed : Bool

namespace PipeRingBuffer

/-- The buffer of `make_pipe`: `PipeRingBuffer::new` with both ends set and open. -/
def makePipe : PipeRingBuffer where
  arr := fun _ => 0
  head := 0
  tail := 0
  status := .empty
  allWriteEndsClosed := false
  allReadEndsClosed := false

/-- The assertion in the third branch fails as a panic. -/
def getUsedSize (ring : PipeRingBuffer) : Option Nat :=
  if ring.status = .full then some ringDefaultBufferSize
  else if ring.status = .empty then some 0
  else if ring.head = ring.tail then none
  else if ring.head < ring.tail then some (ring.tail - ring.head)
  else some (ring.tail + ringDefaultBufferSize - ring.head)

/-- Copy out at most `want` bytes, not past the end of the array. -/
def bufferRead (ring : PipeRingBuffer) (want : Nat) : List UInt8 × PipeRingBuffer :=
  let start := ring.head
  let stop := if ring.tail <= ring.head then ringDefaultBufferSize else ring.tail
  let readBytes := min want (stop - start)
  ((List.range readBytes).map (fun offset => ring.arr (start + offset)),
    { ring with
      head := if start + readBytes = ringDefaultBufferSize then 0 else start + readBytes })

/-- Copy in a prefix of `buf`, not past the end of the array. -/
def bufferWrite (ring : PipeRingBuffer) (buf : List UInt8) : Nat × PipeRingBuffer :=
  let start := ring.tail
  let stop := if ring.tail < ring.head then ring.head else ringDefaultBufferSize
  let writeBytes := min buf.length (stop - start)
  (writeBytes,
    { ring with
      arr := overwrite ring.arr start (buf.take writeBytes)
      tail := if start + writeBytes = ringDefaultBufferSize then 0 else start + writeBytes })

/-! ## The transfer loops

The inner `while` loops have no bound in the source.  They run here on fuel and
give `none` when it runs out; that this never happens is part of what is proved.
The flag says that the loop returned from the call because the positions met. -/

def readBuf : Nat -> PipeRingBuffer -> Nat -> Option (List UInt8 × PipeRingBuffer × Bool)
  | 0, _, _ => none
  | fuel + 1, ring, want =>
    if want = 0 then some ([], ring, false)
    else
      let (bytes, ring) := ring.bufferRead want
      if ring.head = ring.tail then some (bytes, { ring with status := .empty }, true)
      else
        match readBuf fuel ring (want - bytes.length) with
        | none => none
        | some (rest, ring, drained) => some (bytes ++ rest, ring, drained)

def readBufs (ring : PipeRingBuffer) : List Nat -> Option (List UInt8 × PipeRingBuffer × Bool)
  | [] => some ([], ring, false)
  | want :: wants =>
    match readBuf (want + 1) ring want with
    | none => none
    | some (bytes, ring, true) => some (bytes, ring, true)
    | some (bytes, ring, false) =>
      match readBufs ring wants with
      | none => none
      | some (rest, ring, drained) => some (bytes ++ rest, ring, drained)

def writeBuf : Nat -> PipeRingBuffer -> List UInt8 -> Option (Nat × PipeRingBuffer × Bool)
  | 0, _, _ => none
  | fuel + 1, ring, buf =>
    if buf.length = 0 then some (0, ring, false)
    else
      let (count, ring) := ring.bufferWrite buf
      if ring.head = ring.tail then some (count, { ring with status := .full }, true)
      else
        match writeBuf fuel ring (buf.drop count) with
        | none => none
        | some (rest, ring, filled) => some (count + rest, ring, filled)

def writeBufs (ring : PipeRingBuffer) : List (List UInt8) -> Option (Nat × PipeRingBuffer × Bool)
  | [] => some (0, ring, false)
  | buf :: bufs =>
    match writeBuf (buf.length + 1) ring buf with
    | none => none
    | some (count, ring, true) => some (count, ring, true)
    | some (count, ring, false) =>
      match writeBufs ring bufs with
      | none => none
      | some (rest, ring, filled) => some (count + rest, ring, filled)

/-! ## The calls -/

/-- What a call gives back.  A call that would sleep leaves the ring alone and is
tried again later. -/
inductive Reply where
  | blocked
  | errno (code : Int)
  | read (bytes : List UInt8)
  | written (count : Nat)

section Functions

variable (ring : PipeRingBuffer) (offset : Option Nat)

/-- The body shared by `read` and `read_user`. -/
def readAll (wants : List Nat) : Option (Reply × PipeRingBuffer) :=
  if ring.status = .empty then
    if ring.allWriteEndsClosed then some (.read [], ring) else some (.blocked, ring)
  else
    match ring.readBufs wants with
    | none => none
    | some (bytes, ring, true) => some (.read bytes, ring)
    | some (bytes, ring, false) => some (.read bytes, { ring with status := .normal })

/-- The body shared by `write` and `write_user`. -/
def writeAll (bufs : List (List UInt8)) : Option (Reply × PipeRingBuffer) :=
  if ring.status = .full then
    if ring.allReadEndsClosed then some (.written 0, ring) else some (.blocked, ring)
  else
    match ring.writeBufs bufs with
    | none => none
    | some (count, ring, true) => some (.written count, ring)
    | some (count, ring, false) => some (.written count, { ring with status := .normal })

def read (want : Nat) : Option (Reply × PipeRingBuffer) :=
  if offset.isSome then some (.errno ESPIPE, ring) else ring.readAll [want]

def write (buf : List UInt8) :
    Option (Reply × PipeRingBuffer) :=
  if offset.isSome then some (.errno ESPIPE, ring) else ring.writeAll [buf]

def readUser (wants : List Nat) :
    Option (Reply × PipeRingBuffer) :=
  if offset.isSome then some (.errno ESPIPE, ring) else ring.readAll wants

def writeUser (bufs : List (List UInt8)) :
    Option (Reply × PipeRingBuffer) :=
  if offset.isSome then some (.errno ESPIPE, ring) else ring.writeAll bufs

end Functions

/-- One event on the pipe: a transfer call on either end, with the lengths or the
contents of the caller's segments, or the last close of an end. -/
inductive Call where
  | read (offset : Option Nat) (want : Nat)
  | write (offset : Option Nat) (buf : List UInt8)
  | readUser (offset : Option Nat) (wants : List Nat)
  | writeUser (offset : Option Nat) (bufs : List (List UInt8))
  | closeWriteEnd
  | closeReadEnd

def exec (ring : PipeRingBuffer) : Call -> Option (Reply × PipeRingBuffer)
  | .read offset want => ring.read offset want
  | .write offset buf => ring.write offset buf
  | .readUser offset wants => ring.readUser offset wants
  | .writeUser offset bufs => ring.writeUser offset bufs
  | .closeWriteEnd => some (.errno SUCCESS, { ring with allWriteEndsClosed := true })
  | .closeReadEnd => some (.errno SUCCESS, { ring with allReadEndsClosed := true })

/-- An event is a call with the reply it got. -/
abbrev Event := Call × Reply

def Step (before : PipeRingBuffer) (event : Event) (after : PipeRingBuffer) : Prop :=
  before.exec event.1 = some (event.2, after)

/-- The bytes a call offers to the pipe. -/
def offered : Call -> List UInt8
  | .write _ buf => buf
  | .writeUser _ bufs => bufs.flatten
  | _ => []

/-- The bytes that an event put into the pipe: as many of the offered ones as the
call reported. -/
def Event.accepted (event : Event) : List UInt8 :=
  match event.2 with
  | .written count => (offered event.1).take count
  | _ => []

/-- The bytes that an event took out of the pipe. -/
def Event.received (event : Event) : List UInt8 :=
  match event.2 with
  | .read bytes => bytes
  | _ => []

def accepted (events : List Event) : List UInt8 := (events.map Event.accepted).flatten

def received (events : List Event) : List UInt8 := (events.map Event.received).flatten

/-- No empty write into an empty ring and no empty read from a full one. -/
def Admits (ring : PipeRingBuffer) : Call -> Prop
  | .read none want => ring.status = .full -> want ≠ 0
  | .readUser none wants => ring.status = .full -> wants.sum ≠ 0
  | .write none buf => ring.status = .empty -> buf ≠ []
  | .writeUser none bufs => ring.status = .empty -> bufs.flatten ≠ []
  | _ => True

/-- The bytes between the positions, in reading order. -/
def contents (ring : PipeRingBuffer) : Option (List UInt8) :=
  ring.getUsedSize.map (window ring.arr ringDefaultBufferSize ring.head)

/-! ## The occupied part of the array -/

/-- The positions lie in the array and `used` cells lie between them. -/
structure Spans (ring : PipeRingBuffer) (used : Nat) : Prop where
  head_lt : ring.head < ringDefaultBufferSize
  used_le : used <= ringDefaultBufferSize
  tail_eq : ring.tail = (ring.head + used) % ringDefaultBufferSize

variable {ring after : PipeRingBuffer} {used count want : Nat} {buf queue : List UInt8}

/-- The occupied part either lies in one piece or wraps around once. -/
theorem Spans.tail_cases (spans : ring.Spans used) :
    (ring.tail = ring.head + used /\ ring.head + used < ringDefaultBufferSize) \/
      ring.tail + ringDefaultBufferSize = ring.head + used := by
  have head_lt := spans.head_lt
  have used_le := spans.used_le
  have tail_eq := spans.tail_eq
  simp only [ringDefaultBufferSize] at *
  omega

theorem Spans.head_eq_tail_iff (spans : ring.Spans used) :
    ring.head = ring.tail ↔ used = 0 \/ used = ringDefaultBufferSize := by
  have head_lt := spans.head_lt
  rcases spans.tail_cases with plain | wrapped <;> omega

private theorem wrap_eq {position : Nat} (inside : position <= ringDefaultBufferSize) :
    (if position = ringDefaultBufferSize then 0 else position) = position % ringDefaultBufferSize := by
  split
  · next same => rw [same, Nat.mod_self]
  · exact (Nat.mod_eq_of_lt (by omega)).symm

/-- The occupied part of the array is `queue`. -/
structure Holds (ring : PipeRingBuffer) (queue : List UInt8) : Prop where
  spans : ring.Spans queue.length
  cells : window ring.arr ringDefaultBufferSize ring.head queue.length = queue

variable (holds : ring.Holds queue)

include holds

/-- The status and the ends of the pipe play no part in what the ring holds. -/
theorem Holds.congr (arr_eq : after.arr = ring.arr) (head_eq : after.head = ring.head)
    (tail_eq : after.tail = ring.tail) : after.Holds queue where
  spans := ⟨head_eq ▸ holds.spans.head_lt, holds.spans.used_le, by rw [tail_eq, head_eq, holds.spans.tail_eq]⟩
  cells := by
    rw [arr_eq, head_eq]
    exact holds.cells

/-- Moving the head forward inside the occupied part. -/
theorem Holds.advance (inside : count <= queue.length) :
    Holds { ring with head := (ring.head + count) % ringDefaultBufferSize } (queue.drop count) /\
      window ring.arr ringDefaultBufferSize ring.head count = queue.take count := by
  have length_eq : (queue.drop count).length = queue.length - count := length_drop
  have parts := window_add ring.arr ringDefaultBufferSize ring.head count (queue.length - count)
  rw [Nat.add_sub_cancel' inside, holds.cells] at parts
  have both := append_inj ((take_append_drop count queue).trans parts)
    (by rw [length_take_of_le inside, length_window])
  refine ⟨⟨⟨Nat.mod_lt _ (by decide), ?_, ?_⟩, ?_⟩, both.1.symm⟩
  · rw [length_eq]
    exact le_trans (Nat.sub_le _ _) holds.spans.used_le
  · rw [holds.spans.tail_eq, length_eq, Nat.mod_add_mod, Nat.add_assoc, Nat.add_sub_cancel' inside]
  · rw [length_eq]
    exact both.2.symm

/-- Moving the tail forward over a block that is written there. -/
theorem Holds.grow (room : queue.length + buf.length <= ringDefaultBufferSize)
    (inside : ring.tail + buf.length <= ringDefaultBufferSize) :
    Holds { ring with
      arr := overwrite ring.arr ring.tail buf
      tail := (ring.tail + buf.length) % ringDefaultBufferSize } (queue ++ buf) := by
  have length_eq : (queue ++ buf).length = queue.length + buf.length := length_append
  refine ⟨⟨holds.spans.head_lt, length_eq ▸ room, ?_⟩, ?_⟩
  · rw [holds.spans.tail_eq, length_eq, Nat.mod_add_mod, Nat.add_assoc]
  · rw [length_eq, window_overwrite ring.arr holds.spans.tail_eq inside room, holds.cells]

/-! ## Reading -/

/-- What reading `want` bytes out of `queue` does, whichever loop does it. -/
structure Reads (ring : PipeRingBuffer) (queue : List UInt8) (want : Nat) (bytes : List UInt8)
    (after : PipeRingBuffer) (drained : Bool) : Prop where
  bytes_eq : bytes = queue.take want
  holds : after.Holds (queue.drop want)
  status_eq : after.status = if drained then .empty else ring.status
  drained_iff : drained = true ↔ queue.length <= want

omit holds in
/-- A read that left something behind continues with a second one. -/
theorem Reads.append {middle : PipeRingBuffer} {first second : Nat}
    {bytes rest : List UInt8} {drained : Bool} (start : Reads ring queue first bytes middle false)
    (continued : Reads middle (queue.drop first) second rest after drained) :
    Reads ring queue (first + second) (bytes ++ rest) after drained := by
  refine ⟨?_, ?_, ?_, ?_⟩
  · rw [start.bytes_eq, continued.bytes_eq, take_add]
  · rw [<- drop_drop]
    exact continued.holds
  · simpa [start.status_eq] using continued.status_eq
  · rw [continued.drained_iff, length_drop]
    omega

variable (occupied : 0 < queue.length)

include occupied

theorem Reads.none : Reads ring queue 0 [] ring false :=
  ⟨rfl, holds, rfl, by simpa using Nat.pos_iff_ne_zero.mp occupied⟩

/-- One run of `buffer_read` moves the head over a part of the queue, and over at least one
byte if one is wanted. -/
theorem bufferRead_spec (wanted : 0 < want) :
    ∃ count, 0 < count /\ count <= want /\ count <= queue.length /\
      ring.bufferRead want = (queue.take count,
        { ring with head := (ring.head + count) % ringDefaultBufferSize }) := by
  have head_lt := holds.spans.head_lt
  have used_le := holds.spans.used_le
  have bound : ∀ stop, stop = (if ring.tail <= ring.head then ringDefaultBufferSize else ring.tail) ->
      ring.head < stop /\ stop <= ringDefaultBufferSize /\ stop - ring.head <= queue.length := by
    intro stop stop_eq
    rcases holds.spans.tail_cases with plain | wrapped <;> split at stop_eq <;> omega
  rcases bound _ rfl with ⟨_, _⟩
  refine ⟨min want ((if ring.tail <= ring.head then ringDefaultBufferSize else ring.tail) - ring.head),
    by omega, by omega, by omega, ?_⟩
  rw [<- (holds.advance (by omega)).2, window_of_fits _ (by omega), <- wrap_eq (by omega)]
  rfl

theorem readBuf_spec (fuel : Nat) (enough : want < fuel) :
    ∃ bytes after drained,
      readBuf fuel ring want = some (bytes, after, drained) /\
        Reads ring queue want bytes after drained := by
  -- Each round reads at least one byte, so the fuel outlasts the bytes still wanted.
  induction fuel generalizing ring queue want with
  | zero => cases Nat.not_lt_zero _ enough
  | succ fuel ih =>
    by_cases nothing : want = 0
    · subst nothing
      exact ⟨[], ring, false, by simp [readBuf], Reads.none holds occupied⟩
    · rcases bufferRead_spec holds occupied (Nat.pos_of_ne_zero nothing) with
        ⟨count, _, fits, inside, read_eq⟩
      have moved := (holds.advance inside).1
      have used_le := holds.spans.used_le
      have met := moved.spans.head_eq_tail_iff
      rw [length_drop] at met
      by_cases emptied : queue.length = count
      · have at_tail := met.mpr (.inl (by omega))
        refine ⟨queue.take count,
          { ring with head := (ring.head + count) % ringDefaultBufferSize, status := .empty }, true,
          by simp only [readBuf, if_neg nothing, read_eq, if_pos at_tail], ?_, ?_, rfl, by simp; omega⟩
        · rw [take_of_length_le (by omega), take_of_length_le (by omega)]
        · rw [drop_of_length_le (by omega)] at moved ⊢
          exact moved.congr rfl rfl rfl
      · have apart := mt met.mp (by omega)
        have length_eq : (queue.take count).length = count := length_take_of_le inside
        rcases ih moved (by rw [length_drop]; omega) (show want - count < fuel by omega) with
          ⟨rest, after, drained, rest_eq, continued⟩
        have first : Reads ring queue count (queue.take count)
            { ring with head := (ring.head + count) % ringDefaultBufferSize } false :=
          ⟨rfl, moved, rfl, by simp; omega⟩
        refine ⟨queue.take count ++ rest, after, drained,
          by simp only [readBuf, if_neg nothing, read_eq, if_neg apart, length_eq, rest_eq], ?_⟩
        have joined := first.append continued
        rwa [Nat.add_sub_cancel' fits] at joined

theorem readBufs_spec (wants : List Nat) :
    ∃ bytes after drained,
      ring.readBufs wants = some (bytes, after, drained) /\
        Reads ring queue wants.sum bytes after drained := by
  induction wants generalizing ring queue with
  | nil => exact ⟨[], ring, false, rfl, Reads.none holds occupied⟩
  | cons want wants ih =>
    rcases readBuf_spec holds occupied (want + 1) (Nat.lt_succ_self want) with
      ⟨bytes, middle, drained, read_eq, first⟩
    rw [sum_cons]
    cases drained with
    | true =>
      have enough : queue.length <= want := first.drained_iff.mp rfl
      refine ⟨bytes, middle, true, by simp [readBufs, read_eq], ?_, ?_, first.status_eq, by simp; omega⟩
      · rw [first.bytes_eq, take_of_length_le enough, take_of_length_le (by omega)]
      · rw [drop_of_length_le (by omega), <- drop_of_length_le enough]
        exact first.holds
    | false =>
      have left : want < queue.length := by simpa using first.drained_iff
      rcases ih first.holds (by rw [length_drop]; omega) with ⟨rest, after, drained, rest_eq, continued⟩
      exact ⟨bytes ++ rest, after, drained, by simp [readBufs, read_eq, rest_eq], first.append continued⟩

omit holds occupied

/-! ## Writing -/

/-- What writing `buf` behind `queue` does, whichever loop does it. -/
structure Writes (ring : PipeRingBuffer) (queue buf : List UInt8) (count : Nat)
    (after : PipeRingBuffer) (filled : Bool) : Prop where
  count_eq : count = min buf.length (ringDefaultBufferSize - queue.length)
  holds : after.Holds (queue ++ buf.take count)
  status_eq : after.status = if filled then .full else ring.status
  filled_iff : filled = true ↔ ringDefaultBufferSize <= queue.length + buf.length

/-- A write that left room continues with a second one. -/
theorem Writes.append {middle : PipeRingBuffer} {first second : Nat}
    {rest : List UInt8} {filled : Bool} (start : Writes ring queue buf first middle false)
    (continued : Writes middle (queue ++ buf) rest second after filled) :
    Writes ring queue (buf ++ rest) (first + second) after filled := by
  have left : queue.length + buf.length < ringDefaultBufferSize := by simpa using start.filled_iff
  have whole : first = buf.length := by
    rw [start.count_eq]
    omega
  have second_eq := continued.count_eq
  have filled_iff := continued.filled_iff
  rw [length_append] at second_eq filled_iff
  refine ⟨?_, ?_, ?_, ?_⟩
  · rw [length_append]
    omega
  · rw [whole, take_length_add_append, <- append_assoc]
    exact continued.holds
  · simpa [start.status_eq] using continued.status_eq
  · rw [filled_iff, length_append]
    omega

include holds in
theorem Writes.none (room : queue.length < ringDefaultBufferSize) : Writes ring queue [] 0 ring false :=
  ⟨by simp, by simpa using holds, rfl, by simpa using room⟩

/-- Offering more bytes to a full ring changes nothing. -/
theorem Writes.extend (write : Writes ring queue buf count after true) (rest : List UInt8) :
    Writes ring queue (buf ++ rest) count after true := by
  have full := write.filled_iff.mp rfl
  have count_eq := write.count_eq
  refine ⟨?_, ?_, write.status_eq, ?_⟩
  · rw [length_append]
    omega
  · rw [take_append_of_le_length (by omega)]
    exact write.holds
  · simp only [length_append, true_iff]
    omega

variable (room : queue.length < ringDefaultBufferSize)

include holds room

/-- One run of `buffer_write` appends a prefix of the buffer to the queue, and at least one
byte if there is one. -/
theorem bufferWrite_spec (offers : 0 < buf.length) :
    ∃ count, 0 < count /\ count <= buf.length /\ queue.length + count <= ringDefaultBufferSize /\
      ∃ after, ring.bufferWrite buf = (count, after) /\ after.Holds (queue ++ buf.take count) /\
        after.status = ring.status := by
  have head_lt := holds.spans.head_lt
  have bound : ∀ stop, stop = (if ring.tail < ring.head then ring.head else ringDefaultBufferSize) ->
      ring.tail < stop /\ stop <= ringDefaultBufferSize /\
        queue.length + (stop - ring.tail) <= ringDefaultBufferSize := by
    intro stop stop_eq
    rcases holds.spans.tail_cases with plain | wrapped <;> split at stop_eq <;> omega
  rcases bound _ rfl with ⟨_, _⟩
  refine ⟨min buf.length ((if ring.tail < ring.head then ring.head else ringDefaultBufferSize) - ring.tail),
    by omega, by omega, by omega, _, rfl, ?_, rfl⟩
  generalize count_eq : min buf.length
    ((if ring.tail < ring.head then ring.head else ringDefaultBufferSize) - ring.tail) = count
  have length_eq : (buf.take count).length = count := length_take_of_le (by omega)
  refine (@Holds.grow _ (buf.take count) _ holds (by omega) (by omega)).congr rfl rfl ?_
  rw [length_eq, <- wrap_eq (by omega)]

theorem writeBuf_spec (fuel : Nat) (enough : buf.length < fuel) :
    ∃ count after filled,
      writeBuf fuel ring buf = some (count, after, filled) /\ Writes ring queue buf count after filled := by
  induction fuel generalizing ring queue buf with
  | zero => cases Nat.not_lt_zero _ enough
  | succ fuel ih =>
    by_cases nothing : buf.length = 0
    · rw [length_eq_zero_iff] at nothing
      subst nothing
      exact ⟨0, ring, false, by simp [writeBuf], Writes.none holds room⟩
    · rcases bufferWrite_spec holds room (Nat.pos_of_ne_zero nothing) with
        ⟨count, _, fits, _, middle, write_eq, moved, status_eq⟩
      have length_eq : (buf.take count).length = count := length_take_of_le fits
      have met := moved.spans.head_eq_tail_iff
      rw [length_append, length_eq] at met
      by_cases filled : queue.length + count = ringDefaultBufferSize
      · have at_head := met.mpr (.inr filled)
        exact ⟨count, { middle with status := .full }, true,
          by simp only [writeBuf, if_neg nothing, write_eq, if_pos at_head],
          by omega, moved.congr rfl rfl rfl, rfl, by simp; omega⟩
      · have apart := mt met.mp (by omega)
        rcases ih moved (by rw [length_append]; omega)
          (show (buf.drop count).length < fuel by rw [length_drop]; omega) with
          ⟨rest, after, stopped, rest_eq, continued⟩
        have first : Writes ring queue (buf.take count) count middle false := by
          refine ⟨by omega, ?_, status_eq, by simp; omega⟩
          rw [take_take, Nat.min_self]
          exact moved
        refine ⟨count + rest, after, stopped,
          by simp only [writeBuf, if_neg nothing, write_eq, if_neg apart, rest_eq], ?_⟩
        have joined := first.append continued
        rwa [take_append_drop] at joined

theorem writeBufs_spec (bufs : List (List UInt8)) :
    ∃ count after filled,
      ring.writeBufs bufs = some (count, after, filled) /\
        Writes ring queue bufs.flatten count after filled := by
  induction bufs generalizing ring queue with
  | nil => exact ⟨0, ring, false, rfl, Writes.none holds room⟩
  | cons buf bufs ih =>
    rcases writeBuf_spec holds room (buf.length + 1) (Nat.lt_succ_self _) with
      ⟨count, middle, filled, write_eq, first⟩
    cases filled with
    | true => exact ⟨count, middle, true, by simp [writeBufs, write_eq], first.extend bufs.flatten⟩
    | false =>
      have left : queue.length + buf.length < ringDefaultBufferSize := by simpa using first.filled_iff
      have holds := first.holds
      rw [take_of_length_le (by rw [first.count_eq]; omega)] at holds
      rcases ih holds (by rw [length_append]; omega) with ⟨rest, after, filled, rest_eq, continued⟩
      exact ⟨count + rest, after, filled, by simp [writeBufs, write_eq, rest_eq],
        first.append continued⟩

omit holds room

/-! ## Refinement to a queue -/

/-- The ring holds exactly `queue`, and its status says whether that is nothing,
everything or something between. -/
structure Models (ring : PipeRingBuffer) (queue : List UInt8) : Prop extends Holds ring queue where
  empty_iff : ring.status = .empty ↔ queue.length = 0
  full_iff : ring.status = .full ↔ queue.length = ringDefaultBufferSize

theorem Models.makePipe : makePipe.Models [] where
  spans := ⟨by decide, by decide, by decide⟩
  cells := rfl
  empty_iff := by decide
  full_iff := by decide

variable (models : ring.Models queue)

include models

theorem Models.getUsedSize : ring.getUsedSize = some queue.length := by
  have spans := models.spans
  have used_le := spans.used_le
  unfold PipeRingBuffer.getUsedSize
  split
  · next full => rw [models.full_iff.mp full]
  · next not_full =>
      split
      · next empty => rw [models.empty_iff.mp empty]
      · next not_empty =>
          have low := mt models.empty_iff.mpr not_empty
          have high := mt models.full_iff.mpr not_full
          have apart : ¬ ring.head = ring.tail := mt spans.head_eq_tail_iff.mp (by omega)
          rw [if_neg apart]
          rcases spans.tail_cases with plain | wrapped <;> split <;> congr 1 <;> omega

theorem Models.contents : ring.contents = some queue := by
  rw [PipeRingBuffer.contents, models.getUsedSize, Option.map_some, models.cells]

omit models

/-- A status that claims something between, on meeting positions, fails the
assertion of `get_used_size`. -/
theorem getUsedSize_eq_none (status_eq : ring.status = .normal)
    (met : ring.head = ring.tail) : ring.getUsedSize = none := by
  simp [getUsedSize, status_eq, met]

include holds in
/-- A ring that holds something but not everything is rightly marked `NORMAL`. -/
theorem Models.between (some_held : queue.length ≠ 0) (some_free : queue.length ≠ ringDefaultBufferSize) :
    Models { ring with status := .normal } queue where
  toHolds := holds.congr rfl rfl rfl
  empty_iff := iff_of_false nofun some_held
  full_iff := iff_of_false nofun some_free

/-- The call moved bytes as a queue does: what was held and what it put in is
what it took out and what is held now. -/
def Keeps (queue : List UInt8) (call : Call) (outcome : Reply × PipeRingBuffer) : Prop :=
  ∃ rest, outcome.2.Models rest /\
    queue ++ Event.accepted (call, outcome.1) = Event.received (call, outcome.1) ++ rest

include models

theorem Models.readAll (wants : List Nat) (call : Call) :
    ∃ outcome, ring.readAll wants = some outcome /\
      ((ring.status = .full -> wants.sum ≠ 0) -> Keeps queue call outcome) /\
      (¬ (ring.status = .full -> wants.sum ≠ 0) -> outcome.2.getUsedSize = none) := by
  by_cases empty : ring.status = .empty
  · have admitted : ring.status = .full -> wants.sum ≠ 0 := by simp [empty]
    cases closed : ring.allWriteEndsClosed with
    | true =>
      refine ⟨(.read [], ring), by simp [PipeRingBuffer.readAll, empty, closed], ?_, absurd admitted⟩
      intro _
      exact ⟨queue, models, by simp [Event.accepted, Event.received]⟩
    | false =>
      refine ⟨(.blocked, ring), by simp [PipeRingBuffer.readAll, empty, closed], ?_, absurd admitted⟩
      intro _
      exact ⟨queue, models, by simp [Event.accepted, Event.received]⟩
  · have occupied : 0 < queue.length := Nat.pos_of_ne_zero (mt models.empty_iff.mpr empty)
    rcases readBufs_spec models.toHolds occupied wants with ⟨bytes, after, drained, read_eq, reads⟩
    have used_le := models.spans.used_le
    have moved : queue ++ Event.accepted (call, .read bytes) =
        Event.received (call, .read bytes) ++ queue.drop wants.sum := by
      simp [Event.accepted, Event.received, reads.bytes_eq]
    cases drained with
    | true =>
      have everything := reads.drained_iff.mp rfl
      have status_eq : after.status = .empty := reads.status_eq
      have none_left : (queue.drop wants.sum).length = 0 := by
        rw [length_drop]
        omega
      have admitted : ring.status = .full -> wants.sum ≠ 0 := by
        intro _
        omega
      refine ⟨(.read bytes, after), by simp [PipeRingBuffer.readAll, empty, read_eq], ?_, absurd admitted⟩
      intro _
      refine ⟨queue.drop wants.sum, ⟨reads.holds, ?_, ?_⟩, moved⟩
      · simp [status_eq, none_left]
      · simp [status_eq, none_left, ringDefaultBufferSize]
    | false =>
      have left : wants.sum < queue.length := by simpa using reads.drained_iff
      have full_iff := models.full_iff
      refine ⟨(.read bytes, { after with status := .normal }),
        by simp [PipeRingBuffer.readAll, empty, read_eq], ?_, ?_⟩
      · intro admitted
        refine ⟨queue.drop wants.sum, Models.between reads.holds ?_ ?_, moved⟩
        · rw [length_drop]
          omega
        · rw [length_drop]
          by_cases full : ring.status = .full
          · have := admitted full
            omega
          · have := mt full_iff.mpr full
            omega
      · intro refused
        rcases Classical.not_imp.mp refused with ⟨full, _⟩
        have held : (queue.drop wants.sum).length = ringDefaultBufferSize := by
          rw [length_drop, full_iff.mp full]
          omega
        exact getUsedSize_eq_none rfl (reads.holds.spans.head_eq_tail_iff.mpr (.inr held))

theorem Models.writeAll (bufs : List (List UInt8)) {call : Call} (offered_eq : offered call = bufs.flatten) :
    ∃ outcome, ring.writeAll bufs = some outcome /\
      ((ring.status = .empty -> bufs.flatten ≠ []) -> Keeps queue call outcome) /\
      (¬ (ring.status = .empty -> bufs.flatten ≠ []) -> outcome.2.getUsedSize = none) := by
  by_cases full : ring.status = .full
  · have admitted : ring.status = .empty -> bufs.flatten ≠ [] := by simp [full]
    cases closed : ring.allReadEndsClosed with
    | true =>
      refine ⟨(.written 0, ring), by simp [PipeRingBuffer.writeAll, full, closed], ?_, absurd admitted⟩
      intro _
      exact ⟨queue, models, by simp [Event.accepted, Event.received]⟩
    | false =>
      refine ⟨(.blocked, ring), by simp [PipeRingBuffer.writeAll, full, closed], ?_, absurd admitted⟩
      intro _
      exact ⟨queue, models, by simp [Event.accepted, Event.received]⟩
  · have used_le := models.spans.used_le
    have room : queue.length < ringDefaultBufferSize := by
      have := mt models.full_iff.mpr full
      omega
    rcases writeBufs_spec models.toHolds room bufs with ⟨count, after, filled, write_eq, writes⟩
    have count_eq := writes.count_eq
    have length_eq : (queue ++ bufs.flatten.take count).length = queue.length + count := by
      rw [length_append, length_take_of_le (by omega)]
    have moved : queue ++ Event.accepted (call, .written count) =
        Event.received (call, .written count) ++ (queue ++ bufs.flatten.take count) := by
      simp [Event.accepted, Event.received, offered_eq]
    cases filled with
    | true =>
      have everything := writes.filled_iff.mp rfl
      have status_eq : after.status = .full := writes.status_eq
      have all : queue.length + count = ringDefaultBufferSize := by omega
      have admitted : ring.status = .empty -> bufs.flatten ≠ [] := by
        intro empty nothing
        rw [nothing, length_nil] at everything
        omega
      refine ⟨(.written count, after), by simp [PipeRingBuffer.writeAll, full, write_eq], ?_,
        absurd admitted⟩
      intro _
      refine ⟨_, ⟨writes.holds, ?_, ?_⟩, moved⟩
      · rw [status_eq, length_eq, all]
        decide
      · simp only [status_eq, length_eq, all]
    | false =>
      have left : queue.length + bufs.flatten.length < ringDefaultBufferSize := by
        simpa using writes.filled_iff
      have empty_iff := models.empty_iff
      refine ⟨(.written count, { after with status := .normal }),
        by simp [PipeRingBuffer.writeAll, full, write_eq], ?_, ?_⟩
      · intro admitted
        refine ⟨_, Models.between writes.holds ?_ ?_, moved⟩
        · by_cases empty : ring.status = .empty
          · have := length_pos_iff.mpr (admitted empty)
            omega
          · have := mt empty_iff.mpr empty
            omega
        · omega
      · intro refused
        rcases Classical.not_imp.mp refused with ⟨empty, nothing⟩
        have none_held : (queue ++ bufs.flatten.take count).length = 0 := by
          rw [length_eq, empty_iff.mp empty, count_eq, Classical.not_not.mp nothing, length_nil]
          omega
        exact getUsedSize_eq_none rfl (writes.holds.spans.head_eq_tail_iff.mpr (.inl none_held))

/-- Every call on a ring that holds a queue returns.  It moves bytes as a queue
does if it is admitted, and leaves a ring without a used size if it is not. -/
theorem Models.exec (call : Call) : ∃ outcome, ring.exec call = some outcome /\
      (ring.Admits call -> Keeps queue call outcome) /\
      (¬ ring.Admits call -> outcome.2.getUsedSize = none) := by
  have refused : ∀ call, ring.Admits call -> ring.exec call = some (.errno ESPIPE, ring) ->
      ∃ outcome, ring.exec call = some outcome /\
        (ring.Admits call -> Keeps queue call outcome) /\
        (¬ ring.Admits call -> outcome.2.getUsedSize = none) := by
    intro call admitted exec_eq
    refine ⟨_, exec_eq, ?_, absurd admitted⟩
    intro _
    exact ⟨queue, models, by simp [Event.accepted, Event.received]⟩
  cases call with
  | read offset want =>
    cases offset with
    | some position => exact refused _ trivial rfl
    | none =>
      have result := models.readAll [want] (.read none want)
      exact result
  | readUser offset wants =>
    cases offset with
    | some position => exact refused _ trivial rfl
    | none => exact models.readAll wants (.readUser none wants)
  | write offset buf =>
    cases offset with
    | some position => exact refused _ trivial rfl
    | none =>
      have result := models.writeAll [buf] (show offered (.write none buf) = [buf].flatten by simp [offered])
      rw [flatten_singleton] at result
      exact result
  | writeUser offset bufs =>
    cases offset with
    | some position => exact refused _ trivial rfl
    | none => exact models.writeAll bufs rfl
  | closeWriteEnd | closeReadEnd =>
    refine ⟨_, rfl, ?_, absurd trivial⟩
    intro _
    exact ⟨queue, ⟨models.toHolds.congr rfl rfl rfl, models.empty_iff, models.full_iff⟩,
      by simp [Event.accepted, Event.received]⟩

/-- The run that makes only admitted calls. -/
abbrev AdmittedStep : PipeRingBuffer -> Event -> PipeRingBuffer -> Prop :=
  Guarded (fun ring event => ring.Admits event.1) Step

/-- What was accepted is what was received and what the ring still holds. -/
def Balanced (events : List Event) (ring : PipeRingBuffer) : Prop :=
  ∃ queue, ring.Models queue /\ accepted events = received events ++ queue

omit models

theorem balanced_in_admitted_run {events : List Event}
    (run : Trace AdmittedStep makePipe events ring) : Balanced events ring := by
  refine run.invariant ⟨[], Models.makePipe, rfl⟩ ?_
  rintro events before event after ⟨_, models, balance⟩ ⟨admitted, taken⟩
  rcases models.exec event.1 with ⟨_, exec_eq, keeps, _⟩
  obtain rfl := Option.some.inj (exec_eq.symm.trans taken)
  rcases keeps admitted with ⟨rest, held, moved⟩
  refine ⟨rest, held, ?_⟩
  simp only [accepted, received, map_append, map_cons, map_nil, flatten_append,
    flatten_cons, flatten_nil, append_nil, append_assoc] at balance ⊢
  rw [balance, append_assoc, <- moved]

/-- In every run of admitted calls the bytes read so far are a prefix of the bytes
accepted so far, the rest is what the ring holds, and its length is the used size.
The next call returns, and the ring has a used size after it exactly if the call
is admitted. -/
theorem fifo_in_admitted_run {events : List Event} (run : Trace AdmittedStep makePipe events ring) :
    received events <+: accepted events /\
      (∃ queue, ring.contents = some queue /\ accepted events = received events ++ queue) /\
      ring.getUsedSize = some ((accepted events).length - (received events).length) /\
      (accepted events).length - (received events).length <= ringDefaultBufferSize /\
      ∀ call, ∃ outcome, ring.exec call = some outcome /\
        (outcome.2.getUsedSize.isSome = true ↔ ring.Admits call) := by
  rcases balanced_in_admitted_run run with ⟨queue, models, balance⟩
  have difference : (accepted events).length - (received events).length = queue.length := by
    rw [balance, length_append, Nat.add_sub_cancel_left]
  refine ⟨⟨queue, balance.symm⟩, ⟨queue, models.contents, balance⟩, ?_, ?_, ?_⟩
  · rw [difference, models.getUsedSize]
  · rw [difference]
    exact models.spans.used_le
  · intro call
    rcases models.exec call with ⟨outcome, exec_eq, keeps, refused⟩
    refine ⟨outcome, exec_eq, ?_, ?_⟩
    · intro sized
      refine Classical.byContradiction ?_
      intro impossible
      rw [refused impossible] at sized
      exact Bool.noConfusion sized
    · intro admitted
      rcases keeps admitted with ⟨rest, held, _⟩
      rw [held.getUsedSize]
      rfl

/-- A pipe that is written two bytes and read one, up to there. -/
theorem fifo_after_writing_two_reading_one :
    ∃ ring, Trace AdmittedStep makePipe
      [(.write none [1, 2], .written 2), (.read none 1, .read [1])] ring /\
      ring.getUsedSize = some 1 := by
  let filled : PipeRingBuffer :=
    { makePipe with arr := overwrite makePipe.arr 0 [1, 2], tail := 2, status := .normal }
  have first : AdmittedStep makePipe (.write none [1, 2], .written 2) filled :=
    ⟨fun _ => cons_ne_nil _ _, rfl⟩
  have second : AdmittedStep filled (.read none 1, .read [1]) { filled with head := 1 } :=
    ⟨fun _ => Nat.one_ne_zero, rfl⟩
  have run := (Trace.nil.snoc first).snoc second
  exact ⟨_, run, (fifo_in_admitted_run run).2.2.1⟩

/-- Without the condition: an empty write marks the empty ring as `NORMAL`, and the
next read returns a byte that nobody wrote. -/
theorem empty_write_makes_stale_byte_readable :
    ¬ ∀ events ring, Trace Step makePipe events ring -> received events <+: accepted events := by
  intro fifo
  have first : Step makePipe (.write none [], .written 0) { makePipe with status := .normal } := rfl
  have second : Step { makePipe with status := .normal } (.read none 1, .read [0])
      { makePipe with head := 1, status := .normal } := rfl
  have impossible := fifo _ _ ((Trace.nil.snoc first).snoc second)
  exact absurd impossible (by decide)

end PipeRingBuffer

end GCore.Fs
