import GCore.Library.BitField

namespace GCore.Fs.Ext4

open Library List Option BitVec

/-!
# Bitmaps of an ext4 volume

The functions of `bitmap.rs` on a slice of bytes.  An index behind the end of the slice
is a panic, which is `none` here.  The search for a clear bit goes bit by bit up to a
multiple of eight, byte by byte as long as eight bits are left, and bit by bit again.
In the first stretch it answers with the start of the search instead of the clear bit,
so the search is right if that stretch has no clear bit.
-/

section Functions

variable (bmap : List (BitVec 8)) (index : Nat)

def ext4BmapIsBitSet : Option Bool :=
  bmap[index / 8]?.map (fun byte => decide (byte &&& (1#8 <<< (index % 8)) ≠ 0))

def ext4BmapIsBitClr : Option Bool := (ext4BmapIsBitSet bmap index).map (!·)

def ext4BmapBitSet : Option (List (BitVec 8)) :=
  bmap[index / 8]?.map (fun byte => bmap.set (index / 8) (byte ||| (1#8 <<< (index % 8))))

def ext4BmapBitClr : Option (List (BitVec 8)) :=
  bmap[index / 8]?.map (fun byte => bmap.set (index / 8) (byte &&& ~~~ (1#8 <<< (index % 8))))

end Functions

/-- How the loop up to a multiple of eight ends. -/
inductive Scan where
  | done (result : Option Nat)
  | aligned (index bcnt : Nat)
  deriving DecidableEq, Repr

/-- The loop up to a multiple of eight.  What it reports is `sbit`. -/
def scanUnaligned (bmap : List (BitVec 8)) (sbit : Nat) : Nat -> Nat -> Option Scan
  | 0, index => if index % 8 = 0 then some (.aligned index 0) else some (.done none)
  | bcnt + 1, index =>
    if index % 8 = 0 then some (.aligned index (bcnt + 1))
    else (ext4BmapIsBitClr bmap index).bind (fun clear =>
      if clear then some (.done (some sbit)) else scanUnaligned bmap sbit bcnt (index + 1))

/-- A loop over single bits from `index` on, numbered from `sbit`. -/
def scanBits (bmap : List (BitVec 8)) (sbit : Nat) : Nat -> Nat -> Option (Option Nat)
  | 0, _ => some none
  | bcnt + 1, index => (ext4BmapIsBitClr bmap index).bind (fun clear =>
    if clear then some (some (sbit + index)) else scanBits bmap sbit bcnt (index + 1))

/-- The loop over whole bytes, and what is left behind them. -/
def scanBytes : List (BitVec 8) -> Nat -> Nat -> Option (Option Nat)
  | [], bcnt, sbit => if 8 <= bcnt then none else scanBits [] sbit bcnt 0
  | byte :: rest, bcnt, sbit =>
    if 8 <= bcnt then
      if byte ≠ 0xFF#8 then (scanBits (byte :: rest) sbit 8 0).bind (fun result =>
        match result with
        | some index => some (some index)
        | none => scanBytes rest (bcnt - 8) (sbit + 8))
      else scanBytes rest (bcnt - 8) (sbit + 8)
    else scanBits (byte :: rest) sbit bcnt 0

/-- The bit that `bit_id` is set to, if the function returns `true`. -/
def ext4BmapBitFindClr (bmap : List (BitVec 8)) (sbit ebit : Nat) : Option (Option Nat) :=
  (scanUnaligned bmap sbit ((ebit + 2 ^ 32 - sbit) % 2 ^ 32) sbit).bind (fun scan =>
    match scan with
    | .done result => some result
    | .aligned index bcnt =>
      if index / 8 <= bmap.length then scanBytes (bmap.drop (index / 8)) bcnt index else none)

/-- The second number is the last bit to be cleared. -/
def ext4BmapBitsFree (bmap : List (BitVec 8)) (startBit endBit : Nat) : Option (List (BitVec 8)) :=
  (List.range' startBit (endBit + 1 - startBit)).foldlM ext4BmapBitClr bmap

/-! ## Single bits -/

variable {bmap : List (BitVec 8)} {index : Nat} (below : index < 8 * bmap.length)

include below

theorem inside_of_lt : index / 8 < bmap.length := by omega

theorem isBitSet_eq : ext4BmapIsBitSet bmap index = some (bit bmap index) := by
  have inside := inside_of_lt below
  have found : bmap[index / 8]? = some bmap[index / 8] := getElem?_eq_getElem inside
  rw [ext4BmapIsBitSet, found, map_some, bit_eq_of_getElem found, <- twoPow_eq, and_twoPow]
  cases set : bmap[index / 8].getLsbD (index % 8) with
  | false => rfl
  | true =>
    have nonzero : twoPow 8 (index % 8) ≠ 0#8 := by
      intro zero
      have same := congrArg (fun byte => getLsbD byte (index % 8)) zero
      simp [Nat.mod_lt index (by decide : 0 < 8)] at same
    simp [nonzero]

theorem isBitClr_eq : ext4BmapIsBitClr bmap index = some (!bit bmap index) := by
  rw [ext4BmapIsBitClr, isBitSet_eq below, map_some]

theorem bitSet_eq : ext4BmapBitSet bmap index = some (putBit bmap index true) := by
  have inside := inside_of_lt below
  rw [ext4BmapBitSet, List.getElem?_eq_getElem inside, map_some, putBit, mask, twoPow_eq]
  simp [modify_eq_set_getElem?, inside]

theorem bitClr_eq : ext4BmapBitClr bmap index = some (putBit bmap index false) := by
  have inside := inside_of_lt below
  rw [ext4BmapBitClr, List.getElem?_eq_getElem inside, map_some, putBit, mask, twoPow_eq]
  simp [modify_eq_set_getElem?, inside]

omit below

/-! ## Searches -/

/-- A search over bits of a slice that begins at a byte of a bitmap. -/
theorem bit_drop (bmap : List (BitVec 8)) (start index : Nat) : bit (bmap.drop start) index = bit bmap (8 * start + index) := by
  rw [bit, bit, getD_eq_getElem?_getD, getD_eq_getElem?_getD, getElem?_drop,
    Nat.mul_add_div (by decide), Nat.mul_add_mod]

theorem scanBits_spec {whole : List (BitVec 8)} {start : Nat} (bcnt index : Nat)
    (slice : bmap = whole.drop start) (room : index + bcnt <= 8 * bmap.length) :
    ∃ result, scanBits bmap (8 * start) bcnt index = some result /\
      FirstVacant (bit whole) (8 * start + index) (8 * start + index + bcnt) result := by
  induction bcnt generalizing index with
  | zero => exact ⟨none, rfl, FirstVacant.empty _ _⟩
  | succ bcnt ih =>
    have here : bit bmap index = bit whole (8 * start + index) := by rw [slice, bit_drop]
    rw [scanBits, isBitClr_eq (by omega), bind_some]
    cases used : bit bmap index with
    | false =>
      refine ⟨some (8 * start + index), by simp, le_rfl, by omega, ?_, ?_⟩
      · rw [<- here, used]
      · intro other above below
        omega
    | true =>
      rcases ih (index + 1) (by omega) with ⟨result, scanned, rest⟩
      refine ⟨result, by simpa using scanned, ?_⟩
      rw [show 8 * start + (index + 1) + bcnt = 8 * start + index + (bcnt + 1) by omega] at rest
      apply rest.prepend (by omega)
      intro other above below
      rw [show other = 8 * start + index by omega, <- here, used]

/-- The byte loop finds the first clear bit, by induction on the slice. -/
theorem scanBytes_spec {whole : List (BitVec 8)} (slice : List (BitVec 8)) (start bcnt : Nat)
    (dropped : slice = whole.drop start) (room : bcnt <= 8 * slice.length) :
    ∃ result, scanBytes slice bcnt (8 * start) = some result /\
      FirstVacant (bit whole) (8 * start) (8 * start + bcnt) result := by
  induction slice generalizing start bcnt with
  | nil =>
    rw [scanBytes, if_neg (by simp only [length_nil] at room; omega)]
    exact scanBits_spec bcnt 0 dropped (by simpa using room)
  | cons byte rest ih =>
    by_cases more : 8 <= bcnt
    · have next : rest = whole.drop (start + 1) := by
        rw [<- tail_drop, <- dropped, tail_cons]
      rcases ih (start + 1) (bcnt - 8) next (by rw [length_cons] at room; omega) with ⟨later, scanned, found⟩
      rw [show 8 * (start + 1) = 8 * start + 8 by omega] at scanned found
      rw [show 8 * start + 8 + (bcnt - 8) = 8 * start + bcnt by omega] at found
      rw [scanBytes, if_pos more]
      by_cases full : byte = 0xFF#8
      · rw [if_neg (not_not.mpr full)]
        refine ⟨later, scanned, found.prepend (by omega) ?_⟩
        intro index above below
        have offset : bit (byte :: rest) (index - 8 * start) = bit whole index := by
          rw [dropped, bit_drop, Nat.add_sub_cancel' above]
        rw [<- offset, full, bit, Nat.div_eq_of_lt (by omega), getD_cons_zero]
        have every : ∀ place < 8, (0xFF#8).getLsbD place = true := by decide
        exact every _ (Nat.mod_lt _ (by decide))
      · rw [if_pos full]
        rcases scanBits_spec 8 0 dropped (by rw [length_cons]; omega) with ⟨result, bits, first⟩
        rw [bits, bind_some]
        cases result with
        | some index => exact ⟨some index, rfl, first.extend (by omega)⟩
        | none => exact ⟨later, scanned, found.prepend (by omega) first⟩
    · rw [scanBytes, if_neg more]
      exact scanBits_spec bcnt 0 dropped (by simpa using room)

/-- The loop up to a multiple of eight passes a stretch without clear bits. -/
theorem scanUnaligned_spec (sbit bcnt index : Nat) (room : index + bcnt <= 8 * bmap.length)
    (taken : ∀ other, index <= other -> other < index + bcnt -> other < (index + 7) / 8 * 8 ->
      bit bmap other = true) :
    (scanUnaligned bmap sbit bcnt index = some (.done none) /\ index + bcnt <= (index + 7) / 8 * 8) \/
      scanUnaligned bmap sbit bcnt index = some (.aligned ((index + 7) / 8 * 8) (index + bcnt - (index + 7) / 8 * 8)) /\
        (index + 7) / 8 * 8 <= index + bcnt := by
  induction bcnt generalizing index with
  | zero =>
    by_cases aligned : index % 8 = 0
    · right
      rw [scanUnaligned, if_pos aligned]
      refine ⟨?_, by omega⟩
      rw [show (index + 7) / 8 * 8 = index by omega, Nat.add_zero, Nat.sub_self]
    · left
      rw [scanUnaligned, if_neg aligned]
      exact ⟨rfl, by omega⟩
  | succ bcnt ih =>
    by_cases aligned : index % 8 = 0
    · right
      rw [scanUnaligned, if_pos aligned, show (index + 7) / 8 * 8 = index by omega, Nat.add_sub_cancel_left]
      exact ⟨rfl, by omega⟩
    · have used : bit bmap index = true := taken index le_rfl (by omega) (by omega)
      have next : (index + 1 + 7) / 8 * 8 = (index + 7) / 8 * 8 := by omega
      have rest := ih (index + 1) (by omega) (by
        rw [next]
        intro other above below before
        exact taken other (by omega) (by omega) before)
      rw [next, show index + 1 + bcnt = index + (bcnt + 1) by omega] at rest
      rw [scanUnaligned, if_neg aligned, isBitClr_eq (by omega), bind_some, used]
      exact rest

/-- The search is right if the bits up to the next multiple of eight are set. -/
theorem bitFindClr_spec {sbit ebit : Nat} (ordered : sbit <= ebit) (small : ebit < 2 ^ 32)
    (room : ebit <= 8 * bmap.length)
    (taken : ∀ index, sbit <= index -> index < ebit -> index < (sbit + 7) / 8 * 8 -> bit bmap index = true) :
    ∃ result, ext4BmapBitFindClr bmap sbit ebit = some result /\ FirstVacant (bit bmap) sbit ebit result := by
  have bcnt_eq : (ebit + 2 ^ 32 - sbit) % 2 ^ 32 = ebit - sbit := by omega
  have total : sbit + (ebit - sbit) = ebit := by omega
  have scanned := @scanUnaligned_spec bmap sbit (ebit - sbit) sbit (by omega) (by rw [total]; exact taken)
  rw [ext4BmapBitFindClr, bcnt_eq]
  rw [total] at scanned
  rcases scanned with ⟨ended, _⟩ | ⟨aligned, long⟩
  · rw [ended, bind_some]
    exact ⟨none, rfl, fun index above below => taken index above below (by omega)⟩
  · have start_eq : (sbit + 7) / 8 * 8 = 8 * ((sbit + 7) / 8) := Nat.mul_comm _ _
    have bytes := @scanBytes_spec bmap (bmap.drop ((sbit + 7) / 8)) ((sbit + 7) / 8) (ebit - (sbit + 7) / 8 * 8) rfl (by
      rw [length_drop]
      omega)
    rcases bytes with ⟨result, found, first⟩
    rw [<- start_eq, Nat.add_sub_cancel' long] at first
    rw [aligned, bind_some]
    dsimp only
    rw [Nat.mul_div_cancel _ (by decide : 0 < 8), if_pos (by omega), start_eq]
    rw [start_eq] at found
    refine ⟨result, found, first.prepend (by omega) ?_⟩
    intro index above below
    exact taken index above (by omega) below

/-- The loop up to a multiple of eight stops at a clear bit and reports where the search began. -/
theorem scanUnaligned_of_clear {other : Nat} (sbit bcnt index : Nat) (room : index + bcnt <= 8 * bmap.length)
    (above : index <= other) (below : other < index + bcnt) (before : other < (index + 7) / 8 * 8)
    (clear : bit bmap other = false) : scanUnaligned bmap sbit bcnt index = some (.done (some sbit)) := by
  induction bcnt generalizing index with
  | zero => omega
  | succ bcnt ih =>
    rw [scanUnaligned, if_neg (by omega), isBitClr_eq (by omega), bind_some]
    cases used : bit bmap index with
    | false => rfl
    | true =>
      have later : index ≠ other := by
        rintro rfl
        rw [used] at clear
        cases clear
      exact ih (index + 1) (by omega) (by omega) (by omega) (by omega)

/-- The search finds the first clear bit exactly if it begins at a clear bit or
no bit up to the next multiple of eight is clear. -/
theorem bitFindClr_finds_first_iff {sbit ebit : Nat} (ordered : sbit <= ebit) (small : ebit < 2 ^ 32)
    (room : ebit <= 8 * bmap.length) :
    (∃ result, ext4BmapBitFindClr bmap sbit ebit = some result /\ FirstVacant (bit bmap) sbit ebit result) ↔
      bit bmap sbit = false \/
        ∀ index, sbit <= index -> index < ebit -> index < (sbit + 7) / 8 * 8 -> bit bmap index = true := by
  by_cases taken : ∀ index, sbit <= index -> index < ebit -> index < (sbit + 7) / 8 * 8 -> bit bmap index = true
  · exact iff_of_true (bitFindClr_spec ordered small room taken) (.inr taken)
  · have stopped : ext4BmapBitFindClr bmap sbit ebit = some (some sbit) := by
      push Not at taken
      rcases taken with ⟨index, above, below, before, clear⟩
      rw [ext4BmapBitFindClr, show (ebit + 2 ^ 32 - sbit) % 2 ^ 32 = ebit - sbit by omega,
        scanUnaligned_of_clear sbit (ebit - sbit) sbit (by omega) above (by omega) before (by simpa using clear),
        bind_some]
    have inside : sbit < ebit := by
      by_contra outside
      exact taken (fun index above below => by omega)
    simp only [stopped, some.injEq, exists_eq_left', taken, or_false]
    constructor
    · intro first
      exact first.2.2.1
    · intro clear
      exact ⟨le_rfl, inside, clear, fun index above below => by omega⟩

theorem bitFindClr_at_clear_start :
    ∃ result, ext4BmapBitFindClr [0xF7#8] 3 8 = some result /\ FirstVacant (bit [0xF7#8]) 3 8 result :=
  (bitFindClr_finds_first_iff (by decide) (by decide) (by decide)).mpr (.inl rfl)

theorem bitFindClr_reports_start :
    ext4BmapBitFindClr [0x02#8] 1 8 = some (some 1) /\ bit [0x02#8] 1 = true /\ bit [0x02#8] 2 = false := by decide

/-! ## Clearing a stretch -/

theorem foldlM_bitClr (indices : List Nat) (bmap : List (BitVec 8))
    (room : ∀ index ∈ indices, index < 8 * bmap.length) :
    ∃ after, indices.foldlM ext4BmapBitClr bmap = some after /\ after.length = bmap.length /\
      ∀ index, bit after index = (bit bmap index && !decide (index ∈ indices)) := by
  induction indices generalizing bmap with
  | nil => exact ⟨bmap, rfl, rfl, fun index => by simp⟩
  | cons first rest ih =>
    have below := room first mem_cons_self
    have cleared := bitClr_eq below
    rcases ih (putBit bmap first false) (by
      intro index member
      rw [length_putBit]
      exact room index (mem_cons_of_mem first member)) with ⟨after, done, length_eq, bits⟩
    refine ⟨after, ?_, length_eq.trans (length_putBit _ _ _), ?_⟩
    · rw [foldlM_cons, cleared]
      exact done
    · intro index
      rw [bits, bit_putBit (inside_of_lt below)]
      by_cases same : index = first
      · simp [same]
      · simp [same]

theorem bitsFree_spec {startBit endBit : Nat} (room : startBit <= endBit -> endBit < 8 * bmap.length) :
    ∃ after, ext4BmapBitsFree bmap startBit endBit = some after /\ after.length = bmap.length /\
      ∀ index, bit after index = (bit bmap index && !decide (startBit <= index /\ index <= endBit)) := by
  have members : ∀ index, index ∈ range' startBit (endBit + 1 - startBit) ↔
      startBit <= index /\ index <= endBit := by
    intro index
    rw [mem_range'_1]
    omega
  rcases foldlM_bitClr (range' startBit (endBit + 1 - startBit)) bmap (by
    intro index member
    have within := (members index).mp member
    exact within.2.trans_lt (room (within.1.trans within.2))) with ⟨after, done, length_eq, bits⟩
  refine ⟨after, done, length_eq, ?_⟩
  intro index
  rw [bits, decide_eq_decide.mpr (members index)]

end GCore.Fs.Ext4
