import GCore.Errno
import GCore.Fs.PageCache

namespace GCore.Fs

open Library Memory Option

/-!
# sendfile

`sys_sendfile` copies bytes of a regular file to another file, through a buffer of one
page.  It reads a buffer, offers it to the output until all of it is taken, and then
reads again.  If the output takes nothing more, then the position is set back by the bytes
that are left.

There are two forms of the position: a variable of the caller, or the offset of the open
file.  FAT files advance both by the bytes that they have read.  The read of ext4 files sets
a variable to the number of bytes instead, which is right only at the beginning of the
file.  And if a write fails, then the number of bytes that it was offered is returned in
place of its error.

The output is given by its answers: the number of bytes that it would take in each write,
or an error.
-/

inductive FsType where
  | fat32
  | ext4
  deriving DecidableEq

/-- A regular file with the pages of its cache. -/
structure RegularFile where
  fsType : FsType
  readable : Bool
  pages : Nat -> Memory
  size : Nat

namespace RegularFile

variable (file : RegularFile)

/-- The end of a read. -/
def stop (start len : Nat) : Nat := min ((start + len) % 2 ^ 64) file.size

/-- The loop over the pages, which both file systems have. -/
def readAt (start len : Nat) : List Byte :=
  if file.stop start len <= start then []
  else Paged.readPages cacheSz file.pages (file.stop start len) (file.stop start len - start) start (start / cacheSz)

/-- Read at the variable, or else at the offset of the open file; with the new values of both. -/
def read (offset : Option Nat) (fileOffset len : Nat) : List Byte × Option Nat × Nat :=
  match offset with
  | some place =>
    let bytes := file.readAt place len
    match file.fsType with
    | .fat32 => (bytes, some ((place + bytes.length) % 2 ^ 64), fileOffset)
    | .ext4 => (bytes, some (if file.stop place len <= place then place else bytes.length), fileOffset)
  | none =>
    let bytes := file.readAt fileOffset len
    (bytes, none, (fileOffset + bytes.length) % 2 ^ 64)

end RegularFile

open RegularFile

/-- `lseek` with `SEEK_CUR`. -/
def lseekCur (fileOffset : Nat) (offset : Int) : Except Int Nat :=
  if toIsize fileOffset + offset < 0 then .error EINVAL else .ok (toIsize fileOffset + offset).toNat

/-- The variables of the loop, and the bytes that the output has taken.  The buffer has the
bytes that are still to be offered. -/
structure Transfer where
  offset : Option Nat
  fileOffset : Nat
  buffer : Option (List Byte)
  leftBytes : Nat
  writes : Nat
  written : List Byte

/-- `none` is a panic, and `some none` means that the call has not returned yet. -/
abbrev Transfer.Outcome := Option (Option (Int × Transfer))

namespace Transfer

section Loop

variable (file : RegularFile) (answers : Nat -> Except Int Nat) (count : Nat)

/-- Set the position back. -/
def fallback (transfer : Transfer) (redundantBytes : Nat) : Option Transfer :=
  match transfer.offset with
  | some offset => some { transfer with offset := some ((offset + 2 ^ 64 - redundantBytes) % 2 ^ 64) }
  | none =>
    match lseekCur transfer.fileOffset (-(redundantBytes : Int)) with
    | .ok fileOffset => some { transfer with fileOffset := fileOffset }
    | .error _ => none

/-- The output has taken a part of the buffer. -/
def accept (transfer : Transfer) (bytes : List Byte) (writeSize : Nat) : Transfer :=
  { transfer with
    buffer := if writeSize < bytes.length then some (bytes.drop writeSize) else none
    leftBytes := transfer.leftBytes - writeSize
    writes := transfer.writes + 1
    written := transfer.written ++ bytes.take writeSize }

/-- One write, and what follows. -/
def offer (resume : Transfer -> Outcome) (transfer : Transfer) (bytes : List Byte) : Outcome :=
  match answers transfer.writes with
  | .error _ => (transfer.fallback bytes.length).map (fun transfer => some (bytes.length, transfer))
  | .ok limit =>
    if min limit bytes.length = 0 then
      (transfer.fallback bytes.length).map (fun transfer => some ((count - transfer.leftBytes : Nat), transfer))
    else resume (transfer.accept bytes (min limit bytes.length))

def loop : Nat -> Transfer -> Outcome
  | 0, _ => some none
  | rounds + 1, transfer =>
    match transfer.buffer with
    | some bytes => offer answers count (loop rounds) transfer bytes
    | none =>
      let (bytes, offset, fileOffset) := file.read transfer.offset transfer.fileOffset (min transfer.leftBytes cacheSz)
      let transfer := { transfer with offset := offset, fileOffset := fileOffset }
      if bytes.length = 0 then some (some ((count - transfer.leftBytes : Nat), transfer))
      else offer answers count (loop rounds) { transfer with buffer := some bytes } bytes

end Loop

end Transfer

/-- A call for files that are open. -/
structure SendfileCall where
  file : RegularFile
  writable : Bool
  answers : Nat -> Except Int Nat
  offset : Option Nat
  fileOffset : Nat
  count : Nat

namespace SendfileCall

variable (call : SendfileCall)

def start : Transfer := ⟨call.offset, call.fileOffset, none, call.count, 0, []⟩

/-- With a bound on the rounds of the loop. -/
def sysSendfile (rounds : Nat) : Transfer.Outcome :=
  if call.file.readable = false \/ call.writable = false then some (some (EBADF, call.start))
  else Transfer.loop call.file call.answers call.count rounds call.start

end SendfileCall

/-! ## Positions -/

variable {len : Nat}

namespace RegularFile

variable (file : RegularFile)

def bytes : Memory := Paged.flat cacheSz file.pages

/-- Where a read of some bytes leaves the position. -/
def advance (explicit : Bool) (place len : Nat) : Nat :=
  if file.fsType = .ext4 /\ explicit = true then if len = 0 then place else len else place + len

variable {file}

/-- A read delivers what is there. -/
theorem readAt_eq (small : file.size < 2 ^ 63) {place : Nat} (short : len <= cacheSz) (valid : place < 2 ^ 64) :
    file.readAt place len = file.bytes.load place (min len (file.size - place)) /\
      (file.stop place len <= place ↔ min len (file.size - place) = 0) := by
  unfold cacheSz at short
  have known : file.stop place len <= place ↔ min len (file.size - place) = 0 := by
    unfold stop
    omega
  refine ⟨?_, known⟩
  unfold readAt
  by_cases nothing : min len (file.size - place) = 0
  · rw [if_pos (known.mpr nothing), nothing]
    rfl
  · have more : ¬ file.stop place len <= place := fun done => nothing (known.mp done)
    rw [if_neg more, Paged.readPages_eq (by decide) (not_le.mp more) le_rfl]
    have length_eq : file.stop place len - place = min len (file.size - place) := by
      unfold stop
      omega
    rw [length_eq]
    rfl

end RegularFile

namespace Transfer

variable (transfer : Transfer)

def position : Nat := transfer.offset.getD transfer.fileOffset

def moveTo (place : Nat) : Transfer :=
  match transfer.offset with
  | some _ => { transfer with offset := some place }
  | none => { transfer with fileOffset := place }

variable (place : Nat)

theorem position_moveTo : (transfer.moveTo place).position = place := by
  unfold moveTo position
  cases known : transfer.offset with
  | none | some old => rfl

variable {transfer}

theorem fallback_eq {redundantBytes : Nat} (enough : redundantBytes <= transfer.position)
    (small : transfer.position < 2 ^ 63) :
    transfer.fallback redundantBytes = some (transfer.moveTo (transfer.position - redundantBytes)) := by
  unfold fallback moveTo position at *
  cases known : transfer.offset with
  | some offset =>
    rw [known, getD_some] at enough small
    dsimp only
    rw [getD_some, show (offset + 2 ^ 64 - redundantBytes) % 2 ^ 64 = offset - redundantBytes by omega]
  | none =>
    rw [known, getD_none] at enough small
    rw [getD_none, lseekCur, toIsize, if_pos small, if_neg (by omega)]
    have place : ((transfer.fileOffset : Int) + -(redundantBytes : Int)).toNat = transfer.fileOffset - redundantBytes := by
      omega
    rw [place]

/-- The state after a read of some bytes. -/
def filled (file : RegularFile) (transfer : Transfer) (len : Nat) : Transfer :=
  { transfer.moveTo (file.advance transfer.offset.isSome transfer.position len) with
    buffer := some (file.bytes.load transfer.position len) }

section Rounds

variable {file : RegularFile} {answers : Nat -> Except Int Nat} {count rounds : Nat}

theorem loop_buffer {bytes : List Byte} (holds : transfer.buffer = some bytes) :
    loop file answers count (rounds + 1) transfer = offer answers count (loop file answers count rounds) transfer bytes := by
  rw [loop, holds]

theorem read_eq (small : file.size < 2 ^ 63) (valid : transfer.position < 2 ^ 64) {request : Nat}
    (short : request <= cacheSz) (len_eq : min request (file.size - transfer.position) = len) :
    file.read transfer.offset transfer.fileOffset request = (file.bytes.load transfer.position len,
      (transfer.moveTo (file.advance transfer.offset.isSome transfer.position len)).offset,
      (transfer.moveTo (file.advance transfer.offset.isSome transfer.position len)).fileOffset) := by
  have delivered := readAt_eq small short valid
  rw [len_eq] at delivered
  unfold RegularFile.read moveTo advance
  unfold position at *
  cases known : transfer.offset with
  | some place =>
    rw [known, getD_some] at delivered valid len_eq
    dsimp only
    rw [delivered.1, length_load, getD_some]
    cases file.fsType with
    | fat32 =>
      dsimp only
      rw [if_neg (fun both => nomatch both.1), Nat.mod_eq_of_lt (by omega)]
    | ext4 =>
      by_cases nothing : len = 0
      · rw [if_pos (delivered.2.mpr nothing), if_pos ⟨rfl, rfl⟩, if_pos nothing]
      · rw [if_neg (fun done => nothing (delivered.2.mp done)), if_pos ⟨rfl, rfl⟩, if_neg nothing]
  | none =>
    rw [known, getD_none] at delivered valid len_eq
    dsimp only
    rw [delivered.1, length_load, getD_none, if_neg (fun both => nomatch both.2), Nat.mod_eq_of_lt (by omega)]

@[simp] theorem leftBytes_moveTo : (transfer.moveTo place).leftBytes = transfer.leftBytes := by
  unfold moveTo
  split
  · rfl
  · rfl

@[simp] theorem writes_moveTo : (transfer.moveTo place).writes = transfer.writes := by
  unfold moveTo
  split
  · rfl
  · rfl

@[simp] theorem written_moveTo : (transfer.moveTo place).written = transfer.written := by
  unfold moveTo
  split
  · rfl
  · rfl

@[simp] theorem isSome_moveTo : (transfer.moveTo place).offset.isSome = transfer.offset.isSome := by
  unfold moveTo
  cases known : transfer.offset with
  | none | some old => rfl

theorem moveTo_eq (transfer : Transfer) (place : Nat) :
    { transfer with offset := (transfer.moveTo place).offset, fileOffset := (transfer.moveTo place).fileOffset } =
      transfer.moveTo place := by
  unfold moveTo
  cases transfer.offset with
  | none | some old => rfl

theorem moveTo_position (transfer : Transfer) : transfer.moveTo transfer.position = transfer := by
  rcases transfer with ⟨offset, _⟩
  cases offset with
  | none | some old => rfl

theorem advance_zero (explicit : Bool) (place : Nat) : file.advance explicit place 0 = place := by
  unfold advance
  split
  · rw [if_pos rfl]
  · rfl

/-- A read of the next bytes. -/
theorem loop_read (small : file.size < 2 ^ 63) (valid : transfer.position < 2 ^ 64) (empty : transfer.buffer = none)
    {len : Nat} (len_eq : min (min transfer.leftBytes cacheSz) (file.size - transfer.position) = len) :
    loop file answers count (rounds + 1) transfer =
      if len = 0 then some (some (((count - transfer.leftBytes : Nat) : Int), transfer))
      else loop file answers count (rounds + 1) (filled file transfer len) := by
  rw [loop, empty]
  rw [read_eq small valid (Nat.min_le_right _ _) len_eq]
  dsimp only
  rw [length_load]
  by_cases nothing : len = 0
  · have same : { transfer with
        offset := (transfer.moveTo (file.advance transfer.offset.isSome transfer.position len)).offset
        fileOffset := (transfer.moveTo (file.advance transfer.offset.isSome transfer.position len)).fileOffset } =
          transfer := by
      rw [moveTo_eq, nothing, advance_zero, moveTo_position]
    rw [empty] at same
    rw [if_pos nothing, if_pos nothing, same]
  · rw [if_neg nothing, if_neg nothing, loop_buffer (show (filled file transfer len).buffer = some _ from rfl), filled,
      leftBytes_moveTo, writes_moveTo, written_moveTo]

end Rounds

end Transfer

/-! ## The output -/

/-- What becomes of bytes that are offered: either the output has taken some of them and
takes no more, or a write fails. -/
inductive Fate where
  | ends (sent : Nat)
  | fails (sent offered : Nat)

namespace Fate

def sent : Fate -> Nat
  | .ends sent => sent
  | .fails sent _ => sent

/-- What `sys_sendfile` returns then. -/
def result : Fate -> Nat
  | .ends sent => sent
  | .fails _ offered => offered

end Fate

open Transfer

/-- The next bytes that are offered, after some bytes have been taken. -/
def nextOffer (total sent rest : Nat) : Nat := if rest = 0 then min cacheSz (total - sent) else rest

/-- The fate of `total` bytes that are offered in blocks of one page; `rest` bytes of the
block are left. -/
def fate (answers : Nat -> Except Int Nat) (total : Nat) : Nat -> Nat -> Nat -> Nat -> Fate
  | 0, _, sent, _ => .ends sent
  | rounds + 1, index, sent, rest =>
    if nextOffer total sent rest = 0 then .ends sent
    else
      match answers index with
      | .error _ => .fails sent (nextOffer total sent rest)
      | .ok limit =>
        if min limit (nextOffer total sent rest) = 0 then .ends sent
        else fate answers total rounds (index + 1) (sent + min limit (nextOffer total sent rest))
          (nextOffer total sent rest - min limit (nextOffer total sent rest))

theorem nextOffer_zero (total sent : Nat) : nextOffer total sent 0 = min cacheSz (total - sent) := if_pos rfl

theorem sent_le_fate (answers : Nat -> Except Int Nat) (total rounds index sent rest : Nat) :
    sent <= (fate answers total rounds index sent rest).sent := by
  induction rounds generalizing index sent rest with
  | zero => exact le_rfl
  | succ rounds ih =>
    rw [fate]
    split
    · exact le_rfl
    · split
      · exact le_rfl
      · split
        · exact le_rfl
        · exact le_trans (Nat.le_add_right _ _) (ih _ _ _)

namespace SendfileCall

section Specification

variable (call : SendfileCall)

/-- The initial position. -/
def origin : Nat := call.offset.getD call.fileOffset

/-- The number of bytes that there are to send. -/
def total : Nat := min call.count (call.file.size - call.origin)

/-- What becomes of the bytes if they are offered in order. -/
def outcome : Fate := fate call.answers call.total (call.total + 1) 0 0 0

/-- The call returns.  A result that is not negative is the number of bytes that have been
written, these are the next bytes of the input, and the position has advanced by them.  If
the first write fails, then its error is returned. -/
def Faithful : Prop :=
  ∃ rounds result after,
    call.sysSendfile rounds = some (some (result, after)) /\
    (0 <= result ->
      after.written = ((call.file.bytes.load 0 call.file.size).drop call.origin).take result.toNat /\
      after.written.length = result.toNat /\ after.position = call.origin + result.toNat) /\
    (call.file.readable = true -> call.writable = true -> 0 < call.total ->
      ∀ errno, call.answers 0 = .error errno -> result = errno)

/-- The position is kept right: it is not a variable for an ext4 file, or the file is read
from its beginning and only once. -/
def Tracks : Prop :=
  call.file.fsType = .fat32 \/ call.offset = none \/
    (call.origin = 0 /\ (call.total <= cacheSz \/ call.outcome.sent < cacheSz))

/-- If a write fails, then it was offered as many bytes as were written before. -/
def Reports : Prop := ∀ sent offered, call.outcome = .fails sent offered -> sent = offered

/-- The files are not open for the transfer, or there is nothing to send, or both of the above. -/
def Fits : Prop :=
  call.file.readable = false \/ call.writable = false \/ call.total = 0 \/ (call.Tracks /\ call.Reports)

/-- What the types of the source say: sizes are those of files, positions are words, and error
codes are negative. -/
structure Typed : Prop where
  size_lt : call.file.size < 2 ^ 63
  origin_lt : call.origin < 2 ^ 64
  negative : ∀ index errno, call.answers index = .error errno -> errno < 0

end Specification

/-! ## Reads that keep the position -/

variable {result : Int} {after : Transfer}

section Runs

variable {call : SendfileCall} {transfer : Transfer} {sent rest : Nat}

/-- The state between two rounds: some bytes have been taken, and the rest of the buffer is
still to be offered. -/
structure Aligned (call : SendfileCall) (transfer : Transfer) (sent rest : Nat) : Prop where
  explicit : transfer.offset.isSome = call.offset.isSome
  position : transfer.position = call.origin + sent + rest
  buffer : transfer.buffer = if rest = 0 then none else some (call.file.bytes.load (call.origin + sent) rest)
  left : transfer.leftBytes = call.count - sent
  bound : sent + rest <= call.total
  written : transfer.written = call.file.bytes.load call.origin sent

/-- The end of a transfer with the given fate. -/
structure Delivers (call : SendfileCall) (fate : Fate) (result : Int) (after : Transfer) : Prop where
  result_eq : result = fate.result
  within : fate.sent <= call.total
  written : after.written = call.file.bytes.load call.origin fate.sent
  position : after.position = call.origin + fate.sent

theorem start_aligned (call : SendfileCall) : Aligned call call.start 0 0 :=
  ⟨rfl, rfl, rfl, rfl, Nat.zero_le _, rfl⟩

variable {rounds taken : Nat} (aligned : Aligned call transfer sent rest)

include aligned

theorem Aligned.accept (inside : taken <= rest) :
    Aligned call (transfer.accept (call.file.bytes.load (call.origin + sent) rest) taken) (sent + taken) (rest - taken) := by
  have bound := aligned.bound
  refine ⟨aligned.explicit, ?_, ?_, ?_, by omega, ?_⟩
  · change transfer.position = _
    rw [aligned.position]
    omega
  · change (if taken < (call.file.bytes.load (call.origin + sent) rest).length then _ else none) = _
    rw [length_load]
    by_cases more : taken < rest
    · rw [if_pos more, if_neg (by omega), drop_load _ _ inside, Nat.add_assoc]
    · rw [if_neg more, if_pos (by omega)]
  · change transfer.leftBytes - taken = _
    rw [aligned.left]
    omega
  · change transfer.written ++ _ = _
    rw [aligned.written, take_load _ _ inside, load_add]

/-- The bytes that are left are set back. -/
theorem Aligned.fallback (typed : call.Typed) (positive : 0 < rest) :
    transfer.fallback rest = some (transfer.moveTo (call.origin + sent)) := by
  have position := aligned.position
  have bound := aligned.bound
  have small := typed.size_lt
  unfold total at bound
  rw [fallback_eq (by omega) (by omega), show transfer.position - rest = call.origin + sent by omega]

/-- One write in a state with a buffer. -/
theorem Aligned.loop_succ (typed : call.Typed) (positive : 0 < rest) (rounds : Nat) :
    loop call.file call.answers call.count (rounds + 1) transfer =
      match call.answers transfer.writes with
      | .error _ => some (some ((rest : Int), transfer.moveTo (call.origin + sent)))
      | .ok limit =>
        if min limit rest = 0 then some (some ((sent : Int), transfer.moveTo (call.origin + sent)))
        else loop call.file call.answers call.count rounds
          (transfer.accept (call.file.bytes.load (call.origin + sent) rest) (min limit rest)) := by
  have buffer := aligned.buffer
  have bound := aligned.bound
  have left := aligned.left
  have fewer : sent <= call.count := by
    unfold total at bound
    omega
  rw [if_neg (by omega)] at buffer
  rw [loop_buffer buffer, offer, length_load, aligned.fallback typed positive]
  cases call.answers transfer.writes with
  | error errno => rfl
  | ok limit =>
    dsimp only
    rw [map_some, leftBytes_moveTo, left, Nat.sub_sub_self fewer]

omit aligned

/-- The read is right at this place. -/
def Reads (call : SendfileCall) (fate : Fate) (sent rest : Nat) : Prop :=
  call.file.fsType = .fat32 \/ call.offset = none \/
    (call.origin = 0 /\ (call.total <= cacheSz \/ fate.sent < cacheSz) /\
      ((sent = 0 /\ rest = 0) \/ min cacheSz call.total <= sent + rest))

theorem Aligned.read_len (aligned : Aligned call transfer sent 0) :
    min (min transfer.leftBytes cacheSz) (call.file.size - transfer.position) = nextOffer call.total sent 0 := by
  rw [aligned.position, aligned.left, nextOffer, if_pos rfl, total]
  omega

theorem Aligned.valid (aligned : Aligned call transfer sent 0) (typed : call.Typed) : transfer.position < 2 ^ 64 := by
  have bound := aligned.bound
  have small := typed.size_lt
  have word := typed.origin_lt
  rw [aligned.position]
  unfold total at bound
  omega

/-- A read that is right gives a state of the same kind. -/
theorem Aligned.filled (aligned : Aligned call transfer sent 0) (more : nextOffer call.total sent 0 ≠ 0)
    (right : call.file.advance transfer.offset.isSome transfer.position (nextOffer call.total sent 0) =
      transfer.position + nextOffer call.total sent 0) :
    Aligned call (filled call.file transfer (nextOffer call.total sent 0)) sent (nextOffer call.total sent 0) := by
  have position := aligned.position
  refine ⟨?_, ?_, ?_, ?_, ?_, ?_⟩
  · exact (isSome_moveTo _).trans aligned.explicit
  · change (transfer.moveTo _).position = _
    rw [position_moveTo, right, position]
    omega
  · rw [if_neg more]
    change some (call.file.bytes.load transfer.position _) = _
    rw [position, Nat.add_zero]
  · exact (leftBytes_moveTo _).trans aligned.left
  · rw [nextOffer_zero] at more ⊢
    omega
  · exact (written_moveTo _).trans aligned.written

variable {fuel : Nat}

theorem fate_filled (answers : Nat -> Except Int Nat) {total index sent : Nat} (more : nextOffer total sent 0 ≠ 0) :
    fate answers total (fuel + 1) index sent (nextOffer total sent 0) = fate answers total (fuel + 1) index sent 0 := by
  have same : nextOffer total sent (nextOffer total sent 0) = nextOffer total sent 0 := if_neg more
  rw [fate, fate, same]

theorem Reads.advance (reads : Reads call (fate call.answers call.total (fuel + 1) transfer.writes sent 0) sent 0)
    (aligned : Aligned call transfer sent 0) (more : nextOffer call.total sent 0 ≠ 0) :
    call.file.advance transfer.offset.isSome transfer.position (nextOffer call.total sent 0) =
      transfer.position + nextOffer call.total sent 0 := by
  unfold RegularFile.advance
  by_cases set : call.file.fsType = .ext4 /\ transfer.offset.isSome = true
  · rw [if_pos set, if_neg more]
    rcases reads with fat | shared | ⟨_, _⟩
    · rw [fat] at set
      cases set.1
    · rw [aligned.explicit, shared] at set
      cases set.2
    · have reached := sent_le_fate call.answers call.total (fuel + 1) transfer.writes sent 0
      rw [nextOffer_zero] at more
      rw [aligned.position]
      omega
  · rw [if_neg set]

theorem Reads.later {fate : Fate} (reads : Reads call fate sent rest) {later left : Nat}
    (place : (sent = 0 /\ rest = 0) \/ min cacheSz call.total <= sent + rest -> min cacheSz call.total <= later + left) :
    Reads call fate later left :=
  reads.imp_right (Or.imp_right (And.imp_right (And.imp_right fun here => .inr (place here))))

/-- The transfer ends with the given fate, unless there are too few rounds. -/
def Ends (call : SendfileCall) (rounds : Nat) (transfer : Transfer) (steps : Nat) (fate : Fate) : Prop :=
  (rounds <= steps /\ Transfer.loop call.file call.answers call.count rounds transfer = some none) \/
    ∃ result after,
      Transfer.loop call.file call.answers call.count rounds transfer = some (some (result, after)) /\
        Delivers call fate result after

/-- As long as the reads are right, the transfer ends with the fate of its bytes. -/
theorem Aligned.loop (typed : call.Typed) (aligned : Aligned call transfer sent rest)
    (enough : call.total - sent < fuel)
    (reads : Reads call (fate call.answers call.total fuel transfer.writes sent rest) sent rest) :
    Ends call rounds transfer (call.total - sent) (fate call.answers call.total fuel transfer.writes sent rest) := by
  induction rounds generalizing transfer sent rest fuel with
  | zero => exact .inl ⟨Nat.zero_le _, rfl⟩
  | succ rounds ih =>
    cases fuel with
    | zero => omega
    | succ fuel =>
      -- a state with a buffer first; a state without one is filled and is then of this kind
      have buffered : ∀ (transfer : Transfer) (rest : Nat), 0 < rest -> Aligned call transfer sent rest ->
          Reads call (fate call.answers call.total (fuel + 1) transfer.writes sent rest) sent rest ->
          Ends call (rounds + 1) transfer (call.total - sent)
            (fate call.answers call.total (fuel + 1) transfer.writes sent rest) := by
        intro transfer rest positive aligned reads
        unfold Ends
        have bound := aligned.bound
        have offer_eq : nextOffer call.total sent rest = rest := if_neg (by omega)
        rw [aligned.loop_succ typed positive]
        rw [fate, offer_eq, if_neg (by omega)] at reads ⊢
        cases answer : call.answers transfer.writes with
        | error errno =>
          refine .inr ⟨_, _, rfl, rfl, by exact Nat.le_of_add_right_le bound, ?_, position_moveTo _ _⟩
          exact (written_moveTo _).trans aligned.written
        | ok limit =>
          rw [answer] at reads
          dsimp only at reads ⊢
          by_cases nothing : min limit rest = 0
          · rw [if_pos nothing, if_pos nothing]
            refine .inr ⟨_, _, rfl, rfl, by exact Nat.le_of_add_right_le bound, ?_, position_moveTo _ _⟩
            exact (written_moveTo _).trans aligned.written
          · rw [if_neg nothing] at reads
            rw [if_neg nothing, if_neg nothing]
            have next := aligned.accept (Nat.min_le_right limit rest)
            have still := @Reads.later _ _ _ _ reads (sent + min limit rest) (rest - min limit rest) (by omega)
            rcases ih next (show call.total - (sent + min limit rest) < fuel by omega) still with
              ⟨_, waits⟩ | returned
            · exact .inl ⟨by omega, waits⟩
            · exact .inr returned
      by_cases empty : rest = 0
      · subst empty
        unfold Ends
        rw [loop_read typed.size_lt (aligned.valid typed) (by rw [aligned.buffer, if_pos rfl]) aligned.read_len]
        by_cases nothing : nextOffer call.total sent 0 = 0
        · have fewer : sent <= call.count := by
            have bound := aligned.bound
            unfold total at bound
            omega
          rw [if_pos nothing, fate, if_pos nothing]
          refine .inr ⟨_, _, rfl, ?_, aligned.bound, aligned.written, aligned.position⟩
          rw [aligned.left, Nat.sub_sub_self fewer]
          rfl
        · have more := Nat.pos_of_ne_zero nothing
          rw [if_neg nothing, <- fate_filled call.answers nothing]
          have ready := aligned.filled nothing (reads.advance aligned nothing)
          have same : (Transfer.filled call.file transfer (nextOffer call.total sent 0)).writes = transfer.writes :=
            writes_moveTo _
          rw [<- same]
          apply buffered _ _ more ready
          rw [same, fate_filled call.answers nothing]
          apply reads.later
          rw [nextOffer_zero]
          omega
      · exact buffered transfer rest (Nat.pos_of_ne_zero empty) aligned reads

/-! ## Reads that lose the position -/

/-- The variable of the caller is behind the position: it has only the bytes that were taken
of the last read. -/
structure Lagging (call : SendfileCall) (transfer : Transfer) (taken rest : Nat) : Prop where
  ext4 : call.file.fsType = .ext4
  explicit : transfer.offset.isSome = true
  position : transfer.position = taken + rest
  small : taken + rest <= cacheSz
  buffer : if rest = 0 then transfer.buffer = none
    else ∃ bytes, transfer.buffer = some bytes /\ bytes.length = rest
  left : transfer.leftBytes + transfer.written.length = call.count
  inside : rest <= transfer.leftBytes
  behind : taken < call.origin + transfer.written.length

/-- The number of bytes that is returned does not fit to the position. -/
def Misplaced (call : SendfileCall) (result : Int) (after : Transfer) : Prop :=
  0 <= result /\ (after.written.length = result.toNat -> after.position ≠ call.origin + result.toNat)

/-- A read that is not at the beginning makes the variable lag. -/
theorem lagging_filled (ext4 : call.file.fsType = .ext4) (explicit : transfer.offset.isSome = true)
    (left : transfer.leftBytes + transfer.written.length = call.count)
    (later : 0 < call.origin + transfer.written.length) (more : len ≠ 0)
    (len_eq : min (min transfer.leftBytes cacheSz) (call.file.size - transfer.position) = len) :
    Lagging call (filled call.file transfer len) 0 len := by
  have written_eq : (filled call.file transfer len).written = transfer.written := written_moveTo _
  have left_eq : (filled call.file transfer len).leftBytes = transfer.leftBytes := leftBytes_moveTo _
  refine ⟨ext4, (isSome_moveTo _).trans explicit, ?_, by omega, ?_, ?_, ?_, ?_⟩
  · change (transfer.moveTo _).position = _
    rw [position_moveTo, advance, if_pos ⟨ext4, explicit⟩, if_neg more, Nat.zero_add]
  · rw [if_neg more]
    exact ⟨_, rfl, length_load _ _ _⟩
  · rw [written_eq, left_eq]
    exact left
  · omega
  · rw [written_eq]
    exact later

variable (typed : call.Typed)

include typed

theorem Lagging.misplaced (lagging : Lagging call transfer taken rest)
    (returned : loop call.file call.answers call.count rounds transfer = some (some (result, after))) :
    Misplaced call result after := by
  induction rounds generalizing transfer taken rest with
  | zero => cases returned
  | succ rounds ih =>
    have buffered : ∀ (transfer : Transfer) (taken rest : Nat), rest ≠ 0 -> Lagging call transfer taken rest ->
        loop call.file call.answers call.count (rounds + 1) transfer = some (some (result, after)) ->
        Misplaced call result after := by
      intro transfer taken rest positive lagging returned
      have behind := lagging.behind
      have left := lagging.left
      have position := lagging.position
      have small := lagging.small
      have buffer := lagging.buffer
      rw [if_neg positive] at buffer
      rcases buffer with ⟨bytes, buffer, length_eq⟩
      unfold cacheSz at small
      have back : transfer.fallback bytes.length = some (transfer.moveTo taken) := by
        rw [length_eq, fallback_eq (by omega) (by omega), show transfer.position - rest = taken by omega]
      rw [loop_buffer buffer, offer, back] at returned
      cases answer : call.answers transfer.writes with
      | error errno =>
        rw [answer] at returned
        cases returned
        refine ⟨Int.natCast_nonneg _, ?_⟩
        rw [position_moveTo, written_moveTo, Int.toNat_natCast]
        omega
      | ok limit =>
        rw [answer] at returned
        dsimp only at returned
        by_cases nothing : min limit bytes.length = 0
        · rw [if_pos nothing] at returned
          cases returned
          refine ⟨Int.natCast_nonneg _, ?_⟩
          rw [position_moveTo, written_moveTo, leftBytes_moveTo, Int.toNat_natCast]
          omega
        · rw [if_neg nothing] at returned
          have inside := lagging.inside
          have grown : (transfer.accept bytes (min limit bytes.length)).written.length =
              transfer.written.length + min limit bytes.length := by
            change (transfer.written ++ bytes.take _).length = _
            rw [List.length_append, List.length_take]
            omega
          refine @ih (transfer.accept bytes (min limit bytes.length)) (rest - min limit bytes.length)
            (taken + min limit bytes.length) ⟨lagging.ext4, lagging.explicit, ?_, ?_, ?_, ?_, ?_, ?_⟩ returned
          · change transfer.position = _
            omega
          · unfold cacheSz
            omega
          · by_cases whole : rest - min limit bytes.length = 0
            · rw [if_pos whole]
              exact if_neg (by omega)
            · rw [if_neg whole]
              refine ⟨bytes.drop (min limit bytes.length), if_pos (by omega), ?_⟩
              rw [List.length_drop, length_eq]
          · change transfer.leftBytes - min limit bytes.length + _ = _
            omega
          · change _ <= transfer.leftBytes - min limit bytes.length
            omega
          · omega
    by_cases empty : rest = 0
    · subst empty
      have behind := lagging.behind
      have left := lagging.left
      have position := lagging.position
      have small := lagging.small
      have buffer := lagging.buffer
      unfold cacheSz at small
      rw [loop_read typed.size_lt (by omega) buffer rfl] at returned
      split at returned
      · cases returned
        refine ⟨Int.natCast_nonneg _, ?_⟩
        omega
      · rename_i more
        exact buffered _ _ _ more (lagging_filled lagging.ext4 lagging.explicit left (by omega) more rfl) returned
    · exact buffered transfer taken rest empty lagging returned

/-- From the beginning of a longer file: if the output takes the first page, then the second
read loses the position. -/
theorem Aligned.misplaced
    (ext4 : call.file.fsType = .ext4) (explicit : call.offset.isSome = true) (zero : call.origin = 0)
    (long : cacheSz < call.total) (aligned : Aligned call transfer sent rest) (positive : 0 < rest)
    (first : sent + rest = cacheSz)
    (taken : cacheSz <= (fate call.answers call.total fuel transfer.writes sent rest).sent)
    (returned : Transfer.loop call.file call.answers call.count rounds transfer = some (some (result, after))) :
    Misplaced call result after := by
  induction rounds generalizing transfer sent rest fuel with
  | zero => cases returned
  | succ rounds ih =>
    cases fuel with
    | zero =>
      change cacheSz <= sent at taken
      omega
    | succ fuel =>
      have offer_eq : nextOffer call.total sent rest = rest := if_neg (by omega)
      rw [aligned.loop_succ typed positive] at returned
      rw [fate, offer_eq, if_neg (by omega)] at taken
      cases answer : call.answers transfer.writes with
      | error errno =>
        rw [answer] at taken
        change cacheSz <= sent at taken
        omega
      | ok limit =>
        rw [answer] at taken returned
        dsimp only at taken returned
        by_cases nothing : min limit rest = 0
        · rw [if_pos nothing] at taken
          change cacheSz <= sent at taken
          omega
        · rw [if_neg nothing] at taken returned
          have next := aligned.accept (Nat.min_le_right limit rest)
          by_cases more : 0 < rest - min limit rest
          · exact ih next more (by omega) taken returned
          · have done : rest - min limit rest = 0 := by omega
            have page : sent + min limit rest = cacheSz := by omega
            rw [done, page] at next
            cases rounds with
            | zero => cases returned
            | succ rounds =>
              have len : nextOffer call.total cacheSz 0 ≠ 0 := by
                rw [nextOffer_zero]
                omega
              rw [loop_read typed.size_lt (next.valid typed) (by rw [next.buffer, if_pos rfl])
                next.read_len, if_neg len] at returned
              have length_eq : (transfer.accept (call.file.bytes.load (call.origin + sent) rest)
                  (min limit rest)).written.length = cacheSz := by
                rw [next.written, length_load]
              have left := next.left
              refine (lagging_filled ext4 (next.explicit.trans explicit) ?_ ?_ len next.read_len).misplaced typed
                returned
              · unfold total at long
                omega
              · omega

/-- A call that does not keep the position is not faithful. -/
theorem misplaced_of_not_tracks (lost : ¬ call.Tracks) (more : call.total ≠ 0)
    (returned : loop call.file call.answers call.count rounds call.start = some (some (result, after))) :
    Misplaced call result after := by
  rcases not_or.mp lost with ⟨other, lost⟩
  rcases not_or.mp lost with ⟨variable_given, lost⟩
  have ext4 : call.file.fsType = .ext4 := by
    cases known : call.file.fsType with
    | fat32 => exact absurd known other
    | ext4 => rfl
  have explicit : call.offset.isSome = true := isSome_iff_ne_none.mpr variable_given
  have aligned := start_aligned call
  have len : nextOffer call.total 0 0 ≠ 0 := by
    rw [nextOffer_zero]
    unfold cacheSz
    omega
  cases rounds with
  | zero => cases returned
  | succ rounds =>
    have filled_eq := @Transfer.loop_read call.start call.file call.answers call.count rounds typed.size_lt
      (aligned.valid typed) rfl _ aligned.read_len
    rw [if_neg len] at filled_eq
    by_cases zero : call.origin = 0
    · -- the first read is right, and the output takes a page of more than one
      have long : ¬ (call.total <= cacheSz \/ call.outcome.sent < cacheSz) := fun either => lost ⟨zero, either⟩
      rcases not_or.mp long with ⟨total_gt, taken⟩
      have page : nextOffer call.total 0 0 = cacheSz := by
        rw [nextOffer_zero]
        omega
      have ready := aligned.filled len (by
        unfold advance
        rw [if_pos ⟨ext4, explicit⟩, if_neg len, aligned.position, zero, Nat.zero_add])
      rw [filled_eq] at returned
      have same : (filled call.file call.start (nextOffer call.total 0 0)).writes = 0 :=
        writes_moveTo _
      have whole : cacheSz <= (fate call.answers call.total (call.total + 1)
          (filled call.file call.start (nextOffer call.total 0 0)).writes 0 (nextOffer call.total 0 0)).sent := by
        rw [same, fate_filled call.answers len]
        exact not_lt.mp taken
      exact ready.misplaced typed ext4 explicit zero (not_le.mp total_gt) (Nat.pos_of_ne_zero len)
        (by rw [page, Nat.zero_add]) whole returned
    · rw [filled_eq] at returned
      exact (lagging_filled ext4 explicit rfl (by omega) len aligned.read_len).misplaced typed returned

/-- With right reads the call returns, and the bytes meet their fate. -/
theorem delivers_of_tracks (tracks : call.Tracks) : Ends call rounds call.start call.total call.outcome := by
  apply (start_aligned call).loop typed (Nat.lt_succ_self _)
  rcases tracks with fat | shared | ⟨zero, once⟩
  · exact .inl fat
  · exact .inr (.inl shared)
  · exact .inr (.inr ⟨zero, once, .inl ⟨rfl, rfl⟩⟩)

end Runs

/-! ## The call -/

variable {call : SendfileCall}

/-- The first write of a call. -/
theorem outcome_of_error {errno : Int} (more : 0 < call.total) (failed : call.answers 0 = .error errno) :
    ∃ offered, 0 < offered /\ call.outcome = .fails 0 offered := by
  have len : nextOffer call.total 0 0 ≠ 0 := by
    rw [nextOffer_zero]
    unfold cacheSz
    omega
  refine ⟨nextOffer call.total 0 0, Nat.pos_of_ne_zero len, ?_⟩
  rw [outcome, fate, if_neg len, failed]

/-- The bytes of the input from the initial position on. -/
theorem Delivers.contents {fate : Fate} (delivers : Delivers call fate result after) :
    after.written = ((call.file.bytes.load 0 call.file.size).drop call.origin).take fate.sent := by
  have within := delivers.within
  unfold total at within
  rw [delivers.written]
  by_cases beyond : call.file.size <= call.origin
  · have zero : fate.sent = 0 := by omega
    rw [zero, List.take_zero]
    rfl
  · rw [drop_load _ _ (by omega), take_load _ _ (by omega), Nat.zero_add]

theorem sysSendfile_open (ready : ¬ (call.file.readable = false \/ call.writable = false)) (rounds : Nat) :
    call.sysSendfile rounds = loop call.file call.answers call.count rounds call.start :=
  if_neg ready

/-- There is nothing to send. -/
theorem faithful_of_nothing (typed : call.Typed) (ready : ¬ (call.file.readable = false \/ call.writable = false))
    (nothing : call.total = 0) : call.Faithful := by
  have aligned := start_aligned call
  have len : nextOffer call.total 0 0 = 0 := by
    unfold nextOffer
    rw [if_pos rfl]
    omega
  refine ⟨1, 0, call.start, ?_, ?_, ?_⟩
  · rw [sysSendfile_open ready, loop_read typed.size_lt (aligned.valid typed) rfl aligned.read_len, if_pos len,
      aligned.left, Nat.sub_zero, Nat.sub_self]
    rfl
  · intro _
    exact ⟨rfl, rfl, rfl⟩
  · intro _ _ more
    omega

/-- If the position is kept, then only the report of a failed write may be wrong. -/
theorem faithful_iff_reports (typed : call.Typed) (ready : ¬ (call.file.readable = false \/ call.writable = false))
    (tracks : call.Tracks) : call.Faithful ↔ call.Reports := by
  constructor
  · rintro ⟨_, result, after, returned, right, _⟩ sent offered failed
    rw [sysSendfile_open ready] at returned
    rcases delivers_of_tracks typed tracks with ⟨_, waits⟩ | ⟨outcome, _, done, delivers⟩
    · rw [waits] at returned
      cases returned
    · rw [done] at returned
      cases returned
      have result_eq := delivers.result_eq
      have written := delivers.written
      rw [failed] at result_eq written
      have lengths := (right (by rw [result_eq]; exact Int.natCast_nonneg _)).2.1
      rw [written, length_load, result_eq, Int.toNat_natCast] at lengths
      exact lengths
  · intro reports
    rcases @delivers_of_tracks call (call.total + 1) typed tracks with ⟨_, _⟩ | ⟨result, after, done, delivers⟩
    · omega
    · have result_eq := delivers.result_eq
      have same : call.outcome.result = call.outcome.sent := by
        cases fate_eq : call.outcome with
        | ends sent => rfl
        | fails sent offered => exact (reports sent offered fate_eq).symm
      rw [same] at result_eq
      refine ⟨call.total + 1, result, after, (sysSendfile_open ready _).trans done, ?_, ?_⟩
      · intro _
        rw [result_eq, Int.toNat_natCast]
        refine ⟨delivers.contents, ?_, delivers.position⟩
        rw [delivers.written, length_load]
      · intro _ _ positive errno failed
        rcases outcome_of_error positive failed with ⟨offered, _, fate_eq⟩
        have zero := reports 0 offered fate_eq
        omega

/-- A call is faithful if and only if its input and its output are as described. -/
theorem sendfile_is_faithful_iff (call : SendfileCall) (typed : call.Typed) : call.Faithful ↔ call.Fits := by
  by_cases closed : call.file.readable = false \/ call.writable = false
  · refine ⟨fun _ => closed.elim .inl (fun refused => .inr (.inl refused)), fun _ => ?_⟩
    refine ⟨0, EBADF, call.start, if_pos closed, ?_, ?_⟩
    · intro impossible
      exact absurd impossible (by decide)
    · intro readable writable
      rw [readable, writable] at closed
      rcases closed with impossible | impossible
      · cases impossible
      · cases impossible
  · rcases not_or.mp closed with ⟨readable, writable⟩
    by_cases nothing : call.total = 0
    · exact ⟨fun _ => .inr (.inr (.inl nothing)), fun _ => faithful_of_nothing typed closed nothing⟩
    · by_cases tracks : call.Tracks
      · rw [faithful_iff_reports typed closed tracks]
        constructor
        · intro reports
          exact .inr (.inr (.inr ⟨tracks, reports⟩))
        · rintro (refused | refused | none_left | ⟨_, reports⟩)
          · exact absurd refused readable
          · exact absurd refused writable
          · exact absurd none_left nothing
          · exact reports
      · constructor
        · rintro ⟨rounds, result, after, returned, right, _⟩
          rw [sysSendfile_open closed] at returned
          have misplaced := misplaced_of_not_tracks typed tracks nothing returned
          have parts := right misplaced.1
          exact absurd parts.2.2 (misplaced.2 parts.2.1)
        · rintro (refused | refused | none_left | ⟨kept, _⟩)
          · exact absurd refused readable
          · exact absurd refused writable
          · exact absurd none_left nothing
          · exact absurd kept tracks

/-- Five bytes of an ext4 file from its offset on, to an output that takes three bytes at once. -/
def fiveBytes : SendfileCall :=
  { file := ⟨.ext4, true, fun _ place => BitVec.ofNat 8 place, 100⟩
    writable := true
    answers := fun _ => .ok 3
    offset := none
    fileOffset := 10
    count := 5 }

theorem sendfile_sends_five_bytes : fiveBytes.Faithful /\ fiveBytes.total = 5 := by
  have typed : fiveBytes.Typed := ⟨by decide, by decide, nofun⟩
  refine ⟨(sendfile_is_faithful_iff fiveBytes typed).mpr (.inr (.inr (.inr ⟨.inr (.inl rfl), ?_⟩))), rfl⟩
  intro sent offered failed
  cases failed

/-- The same bytes with a variable for the position. -/
theorem sendfile_loses_the_position : ¬ ∀ call : SendfileCall, call.Typed -> call.Faithful := by
  intro claimed
  have typed : SendfileCall.Typed { fiveBytes with offset := some 10 } := ⟨by decide, by decide, nofun⟩
  have lost : ¬ SendfileCall.Tracks { fiveBytes with offset := some 10 } := by
    rintro (fat | shared | ⟨zero, _⟩)
    · cases fat
    · cases shared
    · cases zero
  rcases claimed _ typed with ⟨rounds, result, after, returned, right, _⟩
  have misplaced := misplaced_of_not_tracks typed lost (by decide) returned
  have parts := right misplaced.1
  exact misplaced.2 parts.2.1 parts.2.2

end SendfileCall

end GCore.Fs
