import Mathlib.Data.List.Forall2
import GCore.Library.Scatter
import GCore.Mm.Stores

namespace GCore.Mm

open Library List Function

/-!
# Ranges of user memory in slices

`translated_byte_buffer` cuts a range of user memory at the ends of its pages, and gives the part
of each page as a slice of its frame.  How the frame of a page is found is a parameter here, with
the state that changes on the way.
-/

def byteAt (memory : Nat -> Page) (pa : Nat) : Nat := memory (floor pa) (pageOffset pa)

/-- Write bytes from a physical address on. -/
def writeBytes : List Nat -> Nat -> (Nat -> Page) -> Nat -> Page
  | [], _, memory => memory
  | byte :: bytes, pa, memory =>
    writeBytes bytes (pa + 1) (Function.update memory (floor pa) ((memory (floor pa)).set (pageOffset pa) byte))

/-- The bytes of a frame from one offset up to another. -/
structure Slice where
  ppn : Nat
  start : Nat
  stop : Nat
  deriving DecidableEq, Repr

namespace Slice

def length (slice : Slice) : Nat := slice.stop - slice.start

def addr (slice : Slice) : Nat := slice.ppn * pageSize + slice.start

end Slice

namespace UserBuffer

def len (buffers : List Slice) : Nat := (buffers.map Slice.length).sum

/-- `UserBuffer::write`, by a function that puts bytes in a row: the number of bytes that are written,
and memory after it. -/
def write {Value Memory : Type} (put : List Value -> Nat -> Memory -> Memory) :
    List Slice -> List Value -> Memory -> Nat × Memory
  | [], _, memory => (0, memory)
  | buffer :: buffers, src, memory =>
    if src.length < buffer.length then (src.length, put src buffer.addr memory)
    else
      let rest := write put buffers (src.drop buffer.length) (put (src.take buffer.length) buffer.addr memory)
      (buffer.length + rest.1, rest.2)

/-- `UserBuffer::read`, into a destination outside of the buffers, by a function that gives the bytes
in a row. -/
def read {Value : Type} (get : Nat -> Nat -> List Value) : List Slice -> Nat -> List Value
  | [], _ => []
  | buffer :: buffers, len =>
    if len < buffer.length then get buffer.addr len
    else get buffer.addr buffer.length ++ read get buffers (len - buffer.length)

/-- The addresses of the bytes, in order. -/
def addrs (buffers : List Slice) : List Nat :=
  buffers.flatMap (fun buffer => range' buffer.addr buffer.length)

end UserBuffer

theorem byteAt_set (memory : Nat -> Page) (pa other byte : Nat) :
    byteAt (update memory (floor pa) ((memory (floor pa)).set (pageOffset pa) byte)) other =
      if other = pa then byte else byteAt memory other := by
  unfold byteAt
  by_cases frame : floor other = floor pa
  · rw [frame, update_self]
    by_cases same : other = pa
    · rw [if_pos same, same]
      exact update_self _ _ _
    · have offset : pageOffset other ≠ pageOffset pa := by
        intro equal
        unfold floor at frame
        unfold pageOffset at equal
        exact same (by rw [<- Nat.div_add_mod other pageSize, <- Nat.div_add_mod pa pageSize, frame, equal])
      rw [if_neg same]
      exact update_of_ne offset _ _
  · rw [update_of_ne frame, if_neg (fun same => frame (congrArg floor same))]

theorem byteAt_writeBytes (bytes : List Nat) (pa : Nat) (memory : Nat -> Page) :
    byteAt (writeBytes bytes pa memory) = scatter (range' pa bytes.length) bytes (byteAt memory) := by
  induction bytes generalizing pa memory with
  | nil => rfl
  | cons byte bytes ih =>
    have head : byteAt (update memory (floor pa) ((memory (floor pa)).set (pageOffset pa) byte)) =
        update (byteAt memory) pa byte := by
      funext other
      rw [byteAt_set, update_apply]
    rw [writeBytes, ih, head]
    rfl

namespace UserBuffer

theorem length_addrs (buffers : List Slice) : (addrs buffers).length = len buffers := by
  simp [addrs, len, length_flatMap]

theorem addrs_cons (buffer : Slice) (buffers : List Slice) :
    addrs (buffer :: buffers) = range' buffer.addr buffer.length ++ addrs buffers := flatMap_cons

/-- A write puts the source at the addresses, as far as both go. -/
theorem write_eq_scatter {Value Memory : Type} {put : List Value -> Nat -> Memory -> Memory}
    {view : Memory -> Nat -> Value}
    (puts : ∀ src pa memory, view (put src pa memory) = scatter (range' pa src.length) src (view memory))
    (buffers : List Slice) (src : List Value) (memory : Memory) :
    view (write put buffers src memory).2 = scatter (addrs buffers) src (view memory) := by
  induction buffers generalizing src memory with
  | nil => rfl
  | cons buffer buffers ih =>
    rw [write, addrs_cons]
    split
    · next short =>
      rw [puts, <- scatter_take src (_ ++ _), take_append_of_le_length (length_range'.symm ▸ short.le),
        take_range'_of_length_ge short.le]
    · next long =>
      rw [scatter_append (by rw [length_range']; omega), length_range', ih, puts, length_take_of_le (not_lt.mp long)]

theorem read_map {Value Other : Type} (form : Value -> Other) (get : Nat -> Nat -> List Value) (buffers : List Slice)
    (len : Nat) : read (fun pa len => (get pa len).map form) buffers len = (read get buffers len).map form := by
  induction buffers generalizing len with
  | nil => rfl
  | cons buffer buffers ih =>
    rw [read, read, ih]
    split
    · rfl
    · exact map_append.symm

end UserBuffer

/-! ## The loop over pages -/

/-- Where a round of `translated_byte_buffer` ends: with the page or with the data. -/
def roundEnd (start stop : Nat) : Nat := min (startAddr (floor start + 1)) stop

/-- The slice of a round. -/
def roundSlice (ppn start stop : Nat) : Slice :=
  ⟨ppn, pageOffset start,
    if pageOffset (roundEnd start stop) = 0 then pageSize else pageOffset (roundEnd start stop)⟩

/-- The first and the last byte are in one page. -/
def onePage (ptr size : Nat) : Bool := decide (floor ptr = floor ((ptr + size + (usizeRange - 1)) % usizeRange))

section Loop

variable {State : Type} (page : State -> Nat -> Option (Except Int Nat × State)) (stop : Nat)

/-- The loop of `translated_byte_buffer`.  A round passes at least one byte, so the number
of bytes is enough rounds, except for a range with the last page of all: from there the
loop goes on with page zero and never returns a buffer. -/
def bufferLoop : Nat -> State -> Nat -> Option (Except Int (List Slice) × State)
  | 0, state, start => if start < stop then none else some (.ok [], state)
  | fuel + 1, state, start =>
    if start < stop then
      (page state (floor start)).bind (fun outcome =>
        match outcome.1 with
        | .error code => some (.error code, outcome.2)
        | .ok ppn => (bufferLoop fuel outcome.2 (roundEnd start stop)).map
            (fun rest => (rest.1.map (fun slices => roundSlice ppn start stop :: slices), rest.2)))
    else some (.ok [], state)

end Loop

/-- An address is in a frame that is found for its page. -/
def Placed (found : Nat -> Nat -> Prop) (va pa : Nat) : Prop :=
  ∃ ppn, found (floor va) ppn /\ ppn * pageSize + pageOffset va = pa

/-- The bytes of a range within a page are next to each other in its frame. -/
theorem placed_range {found : Nat -> Nat -> Prop} {ptr len ppn : Nat} (leads : found (floor ptr) ppn)
    (page : ∀ index < len, floor (ptr + index) = floor ptr /\ pageOffset (ptr + index) = pageOffset ptr + index) :
    Forall₂ (Placed found) (range' ptr len) (range' (ppn * pageSize + pageOffset ptr) len) := by
  rw [range'_eq_map_range, range'_eq_map_range, forall₂_map_left_iff, forall₂_map_right_iff, forall₂_same]
  intro index member
  have here := page index (mem_range.mp member)
  refine ⟨ppn, here.1 ▸ leads, ?_⟩
  rw [here.2, Nat.add_assoc]

/-- The address of a byte in the frame of its page. -/
def locate (translate : Nat -> Option Nat) (va : Nat) : Option Nat :=
  (translate (floor va)).map (fun ppn => ppn * pageSize + pageOffset va)

theorem locate_eq_of_placed {translate : Nat -> Option Nat} {vas pas : List Nat}
    (placed : Forall₂ (Placed fun vpn ppn => translate vpn = some ppn) vas pas) :
    pas.map some = vas.map (locate translate) := by
  induction placed with
  | nil => rfl
  | cons here _ ih =>
    rcases here with ⟨ppn, leads, rfl⟩
    rw [map_cons, map_cons, ih, locate, leads, Option.map_some]

/-- No round is the last one of a range with the last page of all. -/
theorem inside_of_round {start stop : Nat} (_ : start < stop)
    (bound : roundEnd start stop < stop -> stop <= 2 ^ 64 - 4096) : stop <= 2 ^ 64 - 4096 := by
  by_contra beyond
  refine beyond (bound ?_)
  unfold roundEnd startAddr pageSize usizeRange
  omega

section Round

variable {start stop : Nat} (more : start < stop) (inside : stop <= 2 ^ 64 - 4096)

include more inside

theorem roundEnd_eq : roundEnd start stop = min ((floor start + 1) * pageSize) stop := by
  unfold roundEnd startAddr floor pageSize usizeRange
  omega

theorem roundEnd_bounds : start < roundEnd start stop /\ roundEnd start stop <= stop := by
  rw [roundEnd_eq more inside]
  unfold floor pageSize
  omega

theorem roundSlice_length (ppn : Nat) : (roundSlice ppn start stop).length = roundEnd start stop - start := by
  unfold roundSlice Slice.length
  dsimp only
  rw [roundEnd_eq more inside]
  unfold pageOffset floor pageSize
  split <;> omega

theorem floor_of_round {index : Nat} (below : index < roundEnd start stop - start) :
    floor (start + index) = floor start /\ pageOffset (start + index) = pageOffset start + index := by
  rw [roundEnd_eq more inside] at below
  unfold floor pageSize at below
  unfold floor pageOffset pageSize
  omega

/-- The slice of a round, before the slices of the rest. -/
theorem placed_round {found : Nat -> Nat -> Prop} {ppn : Nat} {slices : List Slice} (leads : found (floor start) ppn)
    (rest : Forall₂ (Placed found) (range' (roundEnd start stop) (stop - roundEnd start stop)) (UserBuffer.addrs slices)) :
    Forall₂ (Placed found) (range' start (stop - start)) (UserBuffer.addrs (roundSlice ppn start stop :: slices)) := by
  have bounds := roundEnd_bounds more inside
  have split : range' start (stop - start) = range' start (roundEnd start stop - start) ++
      range' (roundEnd start stop) (stop - roundEnd start stop) := by
    have joined := @List.range'_append_1 start (roundEnd start stop - start) (stop - roundEnd start stop)
    rw [show start + (roundEnd start stop - start) = roundEnd start stop by omega] at joined
    rw [joined]
    congr 1
    omega
  rw [UserBuffer.addrs_cons, split, roundSlice_length more inside]
  exact rel_append (placed_range leads fun index below => floor_of_round more inside below) rest

end Round

section Loop

variable {State : Type} {page : State -> Nat -> Option (Except Int Nat × State)} {stop fuel start : Nat}
  {state after : State}

theorem bufferLoop_of_le (finished : stop <= start) : bufferLoop page stop fuel state start = some (.ok [], state) := by
  cases fuel <;> rw [bufferLoop, if_neg (not_lt.mpr finished)]

/-- What holds of the state stays so, and so does what is found for a page.  If every page is found,
then the slices have the bytes of the range in order. -/
structure Ran (holds : State -> Prop) (found : State -> Nat -> Nat -> Prop) (state : State) (start stop : Nat)
    (result : Except Int (List Slice)) (after : State) : Prop where
  holds : holds after
  kept : ∀ vpn ppn, found state vpn ppn -> found after vpn ppn
  placed : ∀ slices, result = .ok slices -> (start < stop -> stop <= 2 ^ 64 - 4096) /\
    Forall₂ (Placed (found after)) (range' start (stop - start)) (UserBuffer.addrs slices)

variable {holds : State -> Prop} {found : State -> Nat -> Nat -> Prop} {result : Except Int (List Slice)}

theorem Ran.of_le (finished : stop <= start) (begins : holds state)
    (done : bufferLoop page stop fuel state start = some (result, after)) :
    Ran holds found state start stop result after := by
  rw [bufferLoop_of_le finished] at done
  cases done
  refine ⟨begins, fun _ _ known => known, ?_⟩
  rintro slices ⟨⟩
  rw [Nat.sub_eq_zero_of_le finished]
  exact ⟨fun more => absurd more (not_lt.mpr finished), .nil⟩

/-- The rule of the loop.  It never ends with the last page of all, from which it goes on with page
zero. -/
theorem Ran.of_rounds (round : ∀ state start answer after, holds state -> start < stop ->
      page state (floor start) = some (answer, after) -> holds after /\
        (∀ vpn ppn, found state vpn ppn -> found after vpn ppn) /\ ∀ ppn, answer = .ok ppn -> found after (floor start) ppn)
    (begins : holds state) (done : bufferLoop page stop fuel state start = some (result, after)) :
    Ran holds found state start stop result after := by
  induction fuel generalizing state start result with
  | zero =>
    rcases lt_or_ge start stop with more | finished
    · rw [bufferLoop, if_pos more] at done
      cases done
    · exact .of_le finished begins done
  | succ fuel ih =>
    rcases lt_or_ge start stop with more | finished
    · rw [bufferLoop, if_pos more] at done
      rcases Option.bind_eq_some_iff.mp done with ⟨⟨answer, _⟩, looked, going⟩
      rcases round _ _ _ _ begins more looked with ⟨still, kept, here⟩
      cases answer with
      | error code =>
        cases going
        exact ⟨still, kept, nofun⟩
      | ok ppn =>
        rcases Option.map_eq_some_iff.mp going with ⟨⟨rest, _⟩, looped, whole⟩
        cases whole
        have later := ih still looped
        refine ⟨later.holds, fun vpn frame known => later.kept _ _ (kept _ _ known), fun slices succeeds => ?_⟩
        cases rest with
        | error code => cases succeeds
        | ok others =>
          cases succeeds
          rcases later.placed others rfl with ⟨bound, placed⟩
          have inside := inside_of_round more bound
          exact ⟨fun _ => inside, placed_round more inside (later.kept _ _ (here ppn rfl)) placed⟩
    · exact .of_le finished begins done

end Loop

end GCore.Mm
