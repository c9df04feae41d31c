import GCore.Mm.Slices

namespace GCore.Net

open Library Mm List UserBuffer

/-!
# Bytes through a socket

The pages of a user buffer reach a file as a list of segments.  The two internet sockets
make one slice of them.  It starts at the first segment and is as long as all of them, so
it is the buffer only if each segment begins where the one before it ends.
-/

/-! ## Segments -/

/-- `slice::from_raw_parts_mut(buffers[0].as_mut_ptr(), buf.len)`, by its address and its
length; without a segment the index panics. -/
def fromRawParts (buffers : List Slice) : Option (Nat × Nat) :=
  buffers.head?.map fun first => (first.addr, len buffers)

/-- `write_user` of both sockets: the bytes that the transport gets. -/
def writeUser (memory : Nat -> Page) (buffers : List Slice) : Option (List Nat) :=
  (fromRawParts buffers).map fun slice => (range' slice.1 slice.2).map (byteAt memory)

/-- `read_user` of both sockets.  What `_read` receives goes to the front of the slice, and
its error is unwrapped. -/
def readUser (memory : Nat -> Page) (buffers : List Slice) (receive : Nat -> Except Int (List Nat)) :
    Option (Nat × (Nat -> Page)) :=
  (fromRawParts buffers).bind fun slice =>
    match receive slice.2 with
    | .error _ => none
    | .ok bytes => some (bytes.length, writeBytes bytes slice.1 memory)

/-- A socket sends the bytes of the buffer and puts what it receives into the segments in order and
nowhere else, if and only if the segments are next to each other in memory. -/
theorem socket_uses_segments_iff (first : Slice) (rest : List Slice) :
    (∀ memory, writeUser memory (first :: rest) = some ((addrs (first :: rest)).map (byteAt memory)) /\
      ∀ receive bytes, receive (len (first :: rest)) = .ok bytes -> bytes.length <= len (first :: rest) ->
        ∃ after, readUser memory (first :: rest) receive = some (bytes.length, after) /\
          byteAt after = scatter (addrs (first :: rest)) bytes (byteAt memory)) ↔
      addrs (first :: rest) = range' first.addr (len (first :: rest)) := by
  constructor
  · intro uses
    -- in this memory the byte at an address is the address
    let memory : Nat -> Page := fun ppn offset => ppn * pageSize + offset
    have same : byteAt memory = id := by
      funext pa
      exact Nat.div_add_mod' pa pageSize
    have sent : (range' first.addr (len (first :: rest))).map (byteAt memory) =
        (addrs (first :: rest)).map (byteAt memory) := Option.some.inj (uses memory).1
    rw [same, map_id, map_id] at sent
    exact sent.symm
  · intro adjacent memory
    refine ⟨by rw [adjacent]; rfl, fun receive bytes received fits => ⟨writeBytes bytes first.addr memory, ?_, ?_⟩⟩
    · simp only [readUser, fromRawParts, head?_cons, Option.map_some, Option.bind_some, received]
    · rw [adjacent, byteAt_writeBytes, <- scatter_take bytes (range' _ (len _)), take_range'_of_length_ge fits]

/-- Two pages in neighbouring frames. -/
theorem socket_uses_neighbouring_pages :
    writeUser (fun ppn _ => ppn) [⟨4, 4095, 4096⟩, ⟨5, 0, 1⟩] = some [4, 5] :=
  ((socket_uses_segments_iff ⟨4, 4095, 4096⟩ [⟨5, 0, 1⟩]).mpr rfl fun ppn _ => ppn).1

/-- Pages in other frames: the byte behind the first page is sent in place of the second
page.  A buffer without segments is a panic. -/
theorem socket_sends_foreign_byte :
    (writeUser (fun ppn _ => ppn) [⟨4, 4095, 4096⟩, ⟨6, 0, 1⟩] = some [4, 5] /\
      (addrs [⟨4, 4095, 4096⟩, ⟨6, 0, 1⟩]).map (byteAt fun ppn _ => ppn) = [4, 6]) /\
    writeUser (fun ppn _ => ppn) [] = none :=
  ⟨⟨rfl, rfl⟩, rfl⟩

end GCore.Net
