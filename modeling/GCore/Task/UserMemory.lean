import GCore.Library.Bytes
import GCore.Mm.SteadyPages

namespace GCore.Task

open Library List Option
open Mm

/-!
# User memory as the signal code reaches it

The signal code reads and writes user memory by `translated_ref`,
`translated_refmut`, `copy_to_user` and `copy_from_user`.  Physical memory is
taken by bytes here, and an address space is the frames of its pages, selected by
the low 27 bits of the page number.  Page faults that the kernel takes on the way
are taken to have happened before: a page without a frame is one that no fault
can bring in.  A copy that succeeds so is the same copy in a world of address spaces, whose
resident pages these are.

Addresses are 64-bit words.  A copy over several pages ends at once if the end of
its range wraps around, and one that enters the topmost page starts again at
address zero; both come from the loop of `translated_byte_buffer`.
-/

/-- The frames of the pages of an address space. -/
abbrev Pages := Nat -> Option Nat

namespace Pages

section Functions

variable (pages : Pages) (memory : Memory)

def translate (vpn : Nat) : Option Nat := pages (slot vpn)

/-- `translate_va`, which is `translated_ref` and `translated_refmut` as well. -/
def translateVa (va : Nat) : Option Nat :=
  (pages.translate (floor va)).map fun ppn => ppn * pageSize + pageOffset va

/-- The frame of a page, with nothing that changes. -/
def translatedPage (_ : Unit) (vpn : Nat) : Option (Except Int Nat × Unit) :=
  some ((pages.translate vpn).elim (.error EFAULT) .ok, ())

def translatedByteBuffer (ptr len : Nat) : Option (List Slice) :=
  (bufferLoop pages.translatedPage ((ptr + len) % usizeRange) len () ptr).bind (fun outcome => outcome.1.toOption)

def copyToUser (dst : Nat) (src : List Byte) : Option Memory :=
  if onePage dst src.length then (pages.translateVa dst).map fun pa => memory.store pa src
  else (pages.translatedByteBuffer dst src.length).map fun buffers =>
      (UserBuffer.write (fun src pa memory => memory.store pa src) buffers src memory).2

def copyFromUser (src len : Nat) : Option (List Byte) :=
  if onePage src len then (pages.translateVa src).map fun pa => memory.load pa len
  else (pages.translatedByteBuffer src len).map fun buffers => UserBuffer.read memory.load buffers len

end Functions

/-! ## Addresses -/

variable {pages : Pages} {memory : Memory} {ptr len : Nat}

theorem onePage_iff (nonempty : 0 < len) (fits : ptr + len <= usizeRange) :
    onePage ptr len = true ↔ floor ptr = floor (ptr + len - 1) := by
  have last : (ptr + len + (usizeRange - 1)) % usizeRange = ptr + len - 1 := by
    unfold usizeRange at fits ⊢
    omega
  rw [onePage, last, decide_eq_true_iff]

theorem translatedPage_eq_ok {vpn ppn : Nat} {answer : Except Int Nat} {after : Unit}
    (looked : pages.translatedPage () vpn = some (answer, after)) (found : answer = .ok ppn) :
    pages.translate vpn = some ppn := by
  subst found
  cases leads : pages.translate vpn with
  | none => simp [translatedPage, leads] at looked
  | some frame =>
    simp only [translatedPage, leads, Option.elim_some, some.injEq, Prod.mk.injEq, Except.ok.injEq] at looked
    rw [looked.1]

theorem exists_bufferLoop {stop rounds start : Nat} (inside : stop <= 2 ^ 64 - 4096) (enough : stop <= start + rounds)
    (mapped : ∀ va, start <= va -> va < stop -> ∃ pa, pages.translateVa va = some pa) :
    ∃ buffers, bufferLoop pages.translatedPage stop rounds () start = some (.ok buffers, ()) := by
  induction rounds generalizing start with
  | zero => exact ⟨[], bufferLoop_of_le enough⟩
  | succ rounds ih =>
    rcases lt_or_ge start stop with more | finished
    · have bounds := roundEnd_bounds more inside
      rcases mapped start le_rfl more with ⟨pa, found⟩
      rcases Option.map_eq_some_iff.mp found with ⟨ppn, leads, _⟩
      rcases @ih (roundEnd start stop) (by omega) (fun va above => mapped va (by omega)) with ⟨rest, further⟩
      refine ⟨roundSlice ppn start stop :: rest, ?_⟩
      have looked : pages.translatedPage () (floor start) = some (.ok ppn, ()) := by rw [translatedPage, leads]; rfl
      rw [bufferLoop, if_pos more, looked, bind_some]
      dsimp only
      rw [further]
      rfl
    · exact ⟨[], bufferLoop_of_le finished⟩

theorem store_eq (src : List Byte) (pa : Nat) (memory : Memory) :
    memory.store pa src = scatter (range' pa src.length) src memory := by
  induction src generalizing memory pa with
  | nil => exact memory.store_nil pa
  | cons byte src ih =>
    have head : memory.store pa [byte] = Function.update memory pa byte := by
      funext place
      unfold Memory.store
      by_cases here : place = pa
      · simp [here]
      · rw [Function.update_of_ne here, if_neg (by simp only [length_singleton]; omega)]
    have split := memory.store_append pa [byte] src
    rw [head, length_singleton, ih] at split
    exact split.symm

theorem load_eq (memory : Memory) (pa len : Nat) : memory.load pa len = (range' pa len).map memory := by
  rw [Memory.load, range'_eq_map_range, List.map_map]
  rfl

variable {buffers : List Slice} {index : Nat}

theorem write_eq (src : List Byte) (buffers : List Slice) :
    (UserBuffer.write (fun src pa memory => Memory.store memory pa src) buffers src memory).2 =
      scatter (UserBuffer.addrs buffers) src memory :=
  @UserBuffer.write_eq_scatter _ _ _ id store_eq buffers src memory

theorem read_eq (buffers : List Slice) : UserBuffer.read memory.load buffers (UserBuffer.len buffers) =
    (UserBuffer.addrs buffers).map memory := by
  induction buffers with
  | nil => rfl
  | cons buffer buffers ih =>
    have total : UserBuffer.len (buffer :: buffers) = buffer.length + UserBuffer.len buffers := by
      simp [UserBuffer.len]
    rw [UserBuffer.read, total, if_neg (by omega), Nat.add_sub_cancel_left, ih, load_eq, UserBuffer.addrs_cons, map_append]

/-! ## The resident pages of a space -/

/-- The pages of a space that have a frame. -/
def resident (world : World) (space : Nat) : Pages := world.translate space

/-- The same bytes, in frames and by their addresses. -/
def Alike (world : World) (memory : Memory) : Prop := Mm.byteAt world.memory = BitVec.toNat ∘ memory

section Resident

variable {world : World} {space pa : Nat} {surroundings : World.Surroundings} {src : List Byte} {after : Memory}

theorem resident_translate (vpn : Nat) : (resident world space).translate vpn = world.translate space vpn :=
  world.translate_of_slot space (Nat.mod_mod vpn (2 ^ 27))

theorem resident_translateVa (found : (resident world space).translateVa ptr = some pa) :
    world.translatedRefmut surroundings space ptr = some (.ok pa, world) := by
  rw [translateVa, resident_translate, World.translate_eq_map, Option.map_map] at found
  rw [World.translatedRefmut, World.translateVa_eq_map]
  exact found ▸ rfl

theorem resident_bufferLoop {stop rounds start : Nat}
    (looped : bufferLoop (resident world space).translatedPage stop rounds () start = some (.ok buffers, ())) :
    bufferLoop (fun world vpn => world.translatedPage surroundings space vpn) stop rounds world start =
      some (.ok buffers, world) := by
  induction rounds generalizing start buffers with
  | zero => simpa [bufferLoop] using looped
  | succ rounds ih =>
    rcases lt_or_ge start stop with more | finished
    · rw [bufferLoop, if_pos more] at looped ⊢
      rcases Option.bind_eq_some_iff.mp looped with ⟨⟨answer, _⟩, looked, going⟩
      cases answer with
      | error code => cases going
      | ok ppn =>
        have found := translatedPage_eq_ok looked rfl
        rw [resident_translate] at found
        rcases Option.map_eq_some_iff.mp going with ⟨⟨rest, _⟩, further, whole⟩
        cases rest with
        | error code => cases whole
        | ok others =>
          cases whole
          rw [World.translatedPage, found, bind_some]
          dsimp only
          rw [ih further]
          rfl
    · rw [bufferLoop_of_le finished] at looped ⊢
      cases looped
      rfl

theorem resident_translatedByteBuffer (walked : (resident world space).translatedByteBuffer ptr len = some buffers) :
    world.translatedByteBuffer surroundings space ptr len = some (.ok buffers, world) := by
  rcases Option.bind_eq_some_iff.mp walked with ⟨⟨answer, _⟩, looped, ok⟩
  cases answer with
  | error code => cases ok
  | ok found =>
    cases ok
    exact resident_bufferLoop looped

/-- A copy to resident pages is a copy in the world, which takes no page fault for it. -/
theorem Alike.copyToUser (alike : Alike world memory) (done : (resident world space).copyToUser memory ptr src = some after) :
    ∃ next, world.copyToUser surroundings space ptr (src.map BitVec.toNat) = some (.ok (), next) /\ Alike next after := by
  unfold Alike at alike
  unfold World.copyToUser World.copyBytes
  unfold Pages.copyToUser at done
  rw [length_map]
  split at done
  · next one =>
    rcases Option.map_eq_some_iff.mp done with ⟨pa, found, rfl⟩
    rw [if_pos one, World.assign, resident_translateVa found]
    refine ⟨_, rfl, ?_⟩
    rw [Alike, World.withMemory, byteAt_writeBytes, alike, length_map, scatter_map, store_eq]
  · next several =>
    rcases Option.map_eq_some_iff.mp done with ⟨buffers, walked, rfl⟩
    rw [if_neg several, World.fillBuffer, length_map, resident_translatedByteBuffer walked]
    refine ⟨_, rfl, ?_⟩
    rw [Alike, World.withMemory, UserBuffer.write_eq_scatter byteAt_writeBytes, alike, scatter_map]
    exact congrArg _ (write_eq src buffers).symm

theorem Alike.readBytes_eq (alike : Alike world memory) :
    World.readBytes world.memory = fun pa len => (memory.load pa len).map BitVec.toNat := by
  funext pa len
  rw [World.readBytes, alike, Memory.load, List.map_map]
  rfl

theorem Alike.copyFromUser (alike : Alike world memory)
    (done : (resident world space).copyFromUser memory ptr len = some src) :
    world.copyFromUser surroundings space ptr len = some (.ok (src.map BitVec.toNat), world) := by
  unfold World.copyFromUser
  unfold Pages.copyFromUser at done
  split at done
  · next one =>
    rcases Option.map_eq_some_iff.mp done with ⟨pa, found, rfl⟩
    rw [if_pos one, resident_translateVa found, map_some]
    dsimp only
    rw [alike.readBytes_eq]
    rfl
  · next several =>
    rcases Option.map_eq_some_iff.mp done with ⟨buffers, walked, rfl⟩
    rw [if_neg several, resident_translatedByteBuffer walked, <- UserBuffer.read_map, <- alike.readBytes_eq]
    rfl

end Resident

/-! ## Bytes at virtual addresses -/

/-- The byte that a program finds at an address. -/
def byteAt (pages : Pages) (memory : Memory) (va : Nat) : Option Byte := (pages.translateVa va).map memory

variable {va pa dst : Nat} {src : List Byte}

theorem translateVa_mod (found : pages.translateVa va = some pa) : pa % pageSize = va % pageSize := by
  rcases Option.map_eq_some_iff.mp found with ⟨_, _, rfl⟩
  rw [pageOffset, Nat.mul_comm, Nat.mul_add_mod, Nat.mod_mod]

/-- Addresses at different places in their pages are different bytes. -/
theorem translateVa_apart {other : Nat} (different : va % pageSize ≠ other % pageSize)
    (found : pages.translateVa va = some pa) : pages.translateVa other ≠ some pa :=
  fun same => different ((translateVa_mod found).symm.trans (translateVa_mod same))

theorem translateVa_same (same : floor (va + index) = floor va) :
    pages.translateVa (va + index) = (pages.translateVa va).map (· + index) := by
  have offset : pageOffset (va + index) = pageOffset va + index := by
    unfold floor pageOffset pageSize at *
    omega
  rw [translateVa, translateVa, same, offset, Option.map_map]
  refine Option.map_congr fun ppn _ => ?_
  exact (Nat.add_assoc _ _ _).symm

/-- The range does not cross into the topmost page. -/
def Plain (ptr len : Nat) : Prop := floor ptr = floor (ptr + len - 1) \/ ptr + len <= usizeRange - pageSize

/-- The places of the bytes of a range. -/
def Places (pages : Pages) (ptr len : Nat) (addrs : List Nat) : Prop :=
  addrs.map some = (List.range' ptr len).map pages.translateVa

section Places

variable {addrs : List Nat} (places : Places pages ptr len addrs)

include places

theorem Places.length_eq : addrs.length = len := by simpa using congrArg length places

/-- Bytes of at most a page have different places, even in one frame. -/
theorem Places.nodup (small : len <= pageSize) : addrs.Nodup := by
  apply Nodup.of_map some
  rw [places]
  apply List.Nodup.map_on _ nodup_range'
  intro first firstIn second secondIn same
  have found : pages.translateVa first ∈ addrs.map some := by
    rw [places]
    exact mem_map_of_mem firstIn
  rcases mem_map.mp found with ⟨_, _, leads⟩
  have offsets := (translateVa_mod leads.symm).symm.trans (translateVa_mod (same.symm.trans leads.symm))
  rw [mem_range'_1] at firstIn secondIn
  unfold pageSize at small offsets
  omega

theorem Places.map_byteAt (memory : Memory) :
    (range' ptr len).map (pages.byteAt memory) = (addrs.map memory).map some := by
  change (range' ptr len).map (fun va => (pages.translateVa va).map memory) = _
  rw [<- Function.comp_def, <- List.map_map, <- places]
  simp

theorem Places.byteAt_eq (memory : Memory) (below : index < len) :
    pages.byteAt memory (ptr + index) = some ((addrs.map memory).getD index 0) := by
  have whole := congrArg (fun bytes => bytes[index]?) (places.map_byteAt memory)
  have inside : index < addrs.length := places.length_eq.symm ▸ below
  simpa [getElem?_range', below, getD_eq_getElem?_getD, getElem?_eq_getElem inside] using whole

end Places

theorem places_of_page (nonempty : 0 < len) (inside : floor ptr = floor (ptr + len - 1))
    (found : pages.translateVa ptr = some pa) : Places pages ptr len (range' pa len) := by
  rcases Option.map_eq_some_iff.mp found with ⟨_, leads, rfl⟩
  refine locate_eq_of_placed (placed_range leads fun index below => ?_)
  unfold floor pageOffset pageSize at *
  omega

theorem places_of_buffers (below : ptr + len < usizeRange)
    (walked : pages.translatedByteBuffer ptr len = some buffers) :
    Places pages ptr len (UserBuffer.addrs buffers) /\ (0 < len -> ptr + len <= usizeRange - pageSize) := by
  rcases bind_eq_some_iff.mp walked with ⟨⟨answer, after⟩, looped, succeeds⟩
  rw [Nat.mod_eq_of_lt below] at looped
  have ran : Ran (fun _ => True) (fun _ vpn ppn => pages.translate vpn = some ppn) () ptr (ptr + len) answer after :=
    .of_rounds (fun _ _ _ _ _ _ looked => ⟨trivial, fun _ _ found => found, fun _ => translatedPage_eq_ok looked⟩)
      trivial looped
  cases answer with
  | error code => cases succeeds
  | ok slices =>
    cases succeeds
    rcases ran.placed _ rfl with ⟨bound, placed⟩
    have located := locate_eq_of_placed placed
    rw [Nat.add_sub_cancel_left] at located
    exact ⟨located, fun nonempty => bound (by omega)⟩

/-- What `copy_to_user` does to memory. -/
structure Written (pages : Pages) (memory : Memory) (dst : Nat) (src : List Byte) (after : Memory) : Prop where
  plain : Plain dst src.length
  bytes : ∀ index < src.length, pages.byteAt after (dst + index) = some (src.getD index 0)
  others : ∀ pa, (∀ index < src.length, pages.translateVa (dst + index) ≠ some pa) ->
    after pa = memory pa

theorem Written.of_places {addrs : List Nat} (plain : Plain dst src.length) (small : src.length <= pageSize)
    (places : Places pages dst src.length addrs) : Written pages memory dst src (scatter addrs src memory) := by
  refine ⟨plain, ?_, ?_⟩
  · intro index below
    rw [places.byteAt_eq _ below, map_scatter (places.nodup small) places.length_eq]
  · intro pa apart
    refine scatter_of_not_mem fun member => ?_
    have found : some pa ∈ (range' dst src.length).map pages.translateVa := by
      rw [<- places]
      exact mem_map_of_mem member
    rcases mem_map.mp found with ⟨va, range, leads⟩
    rw [mem_range'_1] at range
    refine apart (va - dst) (by omega) ?_
    rw [Nat.add_sub_cancel' range.1]
    exact leads

/-- A range of at most a page that leaves its page ends below the end of the next one. -/
theorem below_of_crosses (nonempty : 0 < len) (small : len <= pageSize) (fits : ptr + len <= usizeRange)
    (crosses : floor ptr ≠ floor (ptr + len - 1)) : ptr + len < usizeRange := by
  unfold floor pageSize usizeRange at *
  omega

theorem copyToUser_written {after : Memory} (nonempty : 0 < src.length)
    (small : src.length <= pageSize) (fits : dst + src.length <= usizeRange)
    (done : pages.copyToUser memory dst src = some after) : Written pages memory dst src after := by
  rw [copyToUser] at done
  by_cases inside : floor dst = floor (dst + src.length - 1)
  · rw [if_pos ((onePage_iff nonempty fits).mpr inside)] at done
    rcases Option.map_eq_some_iff.mp done with ⟨_, found, rfl⟩
    rw [store_eq]
    exact .of_places (.inl inside) small (places_of_page nonempty inside found)
  · rw [if_neg fun one => inside ((onePage_iff nonempty fits).mp one)] at done
    rcases Option.map_eq_some_iff.mp done with ⟨_, walked, rfl⟩
    rcases places_of_buffers (below_of_crosses nonempty small fits inside) walked with ⟨places, below⟩
    rw [write_eq]
    exact .of_places (.inr (below nonempty)) small places

/-- A range that wraps around is not written at all. -/
theorem copyToUser_wrapped (small : src.length <= pageSize) (word : dst < usizeRange)
    (wraps : usizeRange < dst + src.length) : pages.copyToUser memory dst src = some memory := by
  have two : ¬ onePage dst src.length = true := by
    rw [onePage, decide_eq_true_iff]
    unfold floor pageSize usizeRange at *
    omega
  have stop : ¬ dst < (dst + src.length) % usizeRange := by
    unfold pageSize usizeRange at *
    omega
  rw [copyToUser, if_neg two, translatedByteBuffer, bufferLoop_of_le (not_lt.mp stop)]
  rfl

/-- A read from mapped memory finds the bytes of the program. -/
theorem copyFromUser_eq {src : Nat} {data : List Byte} (nonempty : 0 < data.length)
    (small : data.length <= pageSize) (fits : src + data.length <= usizeRange) (plain : Plain src data.length)
    (bytes : ∀ index < data.length, pages.byteAt memory (src + index) = some (data.getD index 0)) :
    pages.copyFromUser memory src data.length = some data := by
  have mapped : ∀ va, src <= va -> va < src + data.length -> ∃ pa, pages.translateVa va = some pa := by
    intro va above below
    have byte := bytes (va - src) (by omega)
    rw [Nat.add_sub_cancel' above] at byte
    rcases Option.map_eq_some_iff.mp byte with ⟨pa, found, _⟩
    exact ⟨pa, found⟩
  have back : ∀ addrs, Places pages src data.length addrs -> addrs.map memory = data := by
    intro addrs places
    apply ext_getElem (by rw [length_map, places.length_eq])
    intro index here there
    have byte := some.inj ((places.byteAt_eq memory there).symm.trans (bytes index there))
    rwa [getD_eq_getElem?_getD, getD_eq_getElem?_getD, getElem?_eq_getElem here,
      getElem?_eq_getElem there] at byte
  rw [copyFromUser]
  by_cases inside : floor src = floor (src + data.length - 1)
  · rcases mapped src le_rfl (by omega) with ⟨pa, found⟩
    rw [if_pos ((onePage_iff nonempty fits).mpr inside), found, map_some, load_eq,
      back _ (places_of_page nonempty inside found)]
  · have below := below_of_crosses nonempty small fits inside
    rcases @exists_bufferLoop pages (src + data.length) data.length src (plain.resolve_left inside) le_rfl
      mapped with ⟨buffers, looped⟩
    have walked : pages.translatedByteBuffer src data.length = some buffers := by
      rw [translatedByteBuffer, Nat.mod_eq_of_lt below, looped]
      rfl
    have places := (places_of_buffers below walked).1
    have total : UserBuffer.len buffers = data.length := by rw [<- UserBuffer.length_addrs, places.length_eq]
    rw [if_neg fun one => inside ((onePage_iff nonempty fits).mp one), walked, map_some, <- total, read_eq,
      back _ places]

/-- What is copied to the program is read back, and no other byte of memory has changed. -/
theorem copyFromUser_copyToUser {after : Memory} (nonempty : 0 < src.length) (small : src.length <= pageSize)
    (fits : dst + src.length <= usizeRange) (done : pages.copyToUser memory dst src = some after) :
    pages.copyFromUser after dst src.length = some src /\
      ∀ pa, (∀ index < src.length, pages.translateVa (dst + index) ≠ some pa) -> after pa = memory pa := by
  have written := copyToUser_written nonempty small fits done
  exact ⟨copyFromUser_eq nonempty small fits written.plain written.bytes, written.others⟩

theorem copy_across_pages : ∃ after : Memory, copyToUser some (fun _ => 0) 4094 [1, 2, 3] = some after /\
    copyFromUser some after 4094 3 = some [1, 2, 3] := by
  have written : ∃ after, copyToUser some (fun _ => 0) 4094 [1, 2, 3] = some after := ⟨_, rfl⟩
  rcases written with ⟨after, done⟩
  exact ⟨after, done, (copyFromUser_copyToUser (by decide) (by decide) (by decide) done).1⟩

end Pages

end GCore.Task
