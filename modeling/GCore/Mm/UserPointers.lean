import GCore.Mm.SteadyPages

namespace GCore.Mm

open List

/-!
# User pointers

Every function that takes a pointer from a program walks the page table of its space and
lets the fault handler map what is missing.  The handler maps pages of areas that the user
may use only; the walk asks for no permission at all.  So a pointer to a page that is
mapped for the kernel is taken as well, such as one to the trap context of a thread.  And the
handler maps the page for the running task: in any other space it stays missing, although the
access succeeds.

The length is checked nowhere.  The slices of a range that ends with the address space are
none, and a reference is looked up at its first byte only.  The one check of a whole buffer,
which two system calls make, looks for its last page behind the wrap.
-/

namespace World

open MemorySet

/-- `translated_ref` differs from `translated_refmut` only in what may be done with the result. -/
def translatedRef (world : World) (surroundings : Surroundings) (space ptr : Nat) : Option (Except Int Nat × World) :=
  world.translatedRefmut surroundings space ptr

/-- `copy_from_user_array`, of elements with the given size in all. -/
def copyFromUserArray (world : World) (surroundings : Surroundings) (space ptr size : Nat) :
    Option (Except Int (List Nat) × World) :=
  world.copyFromUser surroundings space ptr size

inductive UserAccess where
  | translatedByteBuffer
  | translatedRef
  | translatedRefmut
  | copyFromUser
  | copyFromUserArray
  | copyToUser
  | copyToUserArray
  deriving DecidableEq, Repr

def silent {Value : Type} (call : Option (Except Int Value × World)) : Option (Except Int (Option Nat) × World) :=
  call.map (fun outcome => (outcome.1.map (fun _ => none), outcome.2))

/-- An access to as many bytes as the data has, which the copies to the user write.  The
answer of the slice form is the number of bytes in the slices. -/
def access (world : World) (surroundings : Surroundings) (space ptr : Nat) (data : List Nat) :
    UserAccess -> Option (Except Int (Option Nat) × World)
  | .translatedByteBuffer => (world.translatedByteBuffer surroundings space ptr data.length).map
      (fun outcome => (outcome.1.map (fun slices => some (UserBuffer.len slices)), outcome.2))
  | .translatedRef => silent (world.translatedRef surroundings space ptr)
  | .translatedRefmut => silent (world.translatedRefmut surroundings space ptr)
  | .copyFromUser => silent (world.copyFromUser surroundings space ptr data.length)
  | .copyFromUserArray => silent (world.copyFromUserArray surroundings space ptr data.length)
  | .copyToUser => silent (world.copyToUser surroundings space ptr data)
  | .copyToUserArray => silent (world.copyToUserArray surroundings space ptr data)

/-! ## What is expected, and when -/

/-- The range does not wrap around, and the user may use all its pages. -/
def UserRange (world : World) (space ptr len : Nat) : Prop :=
  ptr + len <= usizeRange /\ ∀ addr, ptr <= addr -> addr < ptr + len -> world.UserPage space (floor addr)

/-- The access looks up the page of the address. -/
def LooksUp (ptr len addr : Nat) : UserAccess -> Prop
  | .translatedByteBuffer => ptr + len < usizeRange
  | .translatedRef => slot (floor addr) = slot (floor ptr)
  | .translatedRefmut => slot (floor addr) = slot (floor ptr)
  | _ => if onePage ptr len then slot (floor addr) = slot (floor ptr) else ptr + len < usizeRange

/-- The slices of a range that is not empty end below the end of the address space. -/
def Ends (ptr len : Nat) : UserAccess -> Prop
  | .translatedByteBuffer => len = 0 \/ ptr + len < usizeRange
  | _ => True

/-- The user may use the page, or it is missing and a page fault maps it. -/
def Opened (world : World) (surroundings : Surroundings) (space vpn : Nat) : Prop :=
  world.UserPage space vpn \/ (world.entry space vpn = none /\ surroundings.current = some space)

/-- The pages that are looked up are opened, and the user may use the others already. -/
def Proper (world : World) (surroundings : Surroundings) (space ptr len : Nat) (way : UserAccess) : Prop :=
  ptr + len <= usizeRange /\ Ends ptr len way /\ ∀ addr, ptr <= addr -> addr < ptr + len ->
    (LooksUp ptr len addr way -> world.Opened surroundings space (floor addr)) /\
      (¬ LooksUp ptr len addr way -> world.UserPage space (floor addr))

/-! ## What a translation maps -/

variable {world after : World} {surroundings : Surroundings} {space : Nat} {vpn ptr len : Nat} {slices : List Slice}
  {result : Except Int Nat}

/-- A page that is mapped afterwards is one of the user unless it was mapped for the kernel. -/
theorem Opens.userPage_iff (opens : Opens world space after) (own : surroundings.current = some space)
    (mapped : after.entry space vpn ≠ none) : after.UserPage space vpn ↔ world.Opened surroundings space vpn := by
  rcases opens vpn with same | ⟨absent, user⟩
  · rw [same] at mapped
    rw [Opened, UserPage, same]
    exact (or_iff_left fun missing => mapped missing.1).symm
  · exact iff_of_true user (.inr ⟨absent, own⟩)

/-! ## A space that does not run -/

section Foreign

variable (foreign : surroundings.current ≠ some space)

include foreign

theorem userPage_iff_of_foreign (same : after.entry space vpn = world.entry space vpn) :
    after.UserPage space vpn ↔ world.Opened surroundings space vpn := by
  rw [Opened, UserPage, same]
  exact (or_iff_left fun missing => foreign missing.2).symm

theorem checkPageFault_foreign {addr : Nat}
    (done : world.checkPageFault surroundings addr = some (result, after)) :
    after.entry space = world.entry space := by
  unfold checkPageFault at done
  split at done
  · cases done
    rfl
  · next current running =>
    rcases faultIn_eq_some done with ⟨_, _, _, _, _, _, faulted, _, _⟩
    have different : space ≠ current := fun same => foreign (same ▸ running)
    funext vpn
    exact congrArg (Option.bind · _) (faulted.replaces.getElem_other different)

theorem translatedRefmut_foreign
    (done : world.translatedRefmut surroundings space ptr = some (result, after)) :
    after.entry space = world.entry space := by
  unfold translatedRefmut at done
  split at done
  · cases done
    rfl
  · exact checkPageFault_foreign foreign done

theorem translatedPage_foreign
    (done : world.translatedPage surroundings space vpn = some (result, after)) :
    after.entry space = world.entry space := by
  unfold translatedPage at done
  split at done
  · cases done
    rfl
  · rcases Option.map_eq_some_iff.mp done with ⟨_, faulted, same⟩
    cases same
    exact checkPageFault_foreign foreign faulted

theorem translatedByteBuffer_foreign (small : ptr + len < usizeRange)
    (done : world.translatedByteBuffer surroundings space ptr len = some (.ok slices, after)) :
    after.entry space = world.entry space /\ UserBuffer.len slices = len := by
  unfold translatedByteBuffer at done
  rw [Nat.mod_eq_of_lt small] at done
  have ran : Ran (fun reached => reached.entry space = world.entry space) (fun _ _ _ => True) world ptr (ptr + len)
      (.ok slices) after := by
    refine .of_rounds (fun _ _ _ _ kept _ page => ?_) rfl done
    exact ⟨(translatedPage_foreign foreign page).trans kept, fun _ _ _ => trivial, fun _ _ => trivial⟩
  have length_eq := (ran.placed slices rfl).2.length_eq
  rw [length_range', UserBuffer.length_addrs, Nat.add_sub_cancel_left] at length_eq
  exact ⟨ran.holds, length_eq.symm⟩

end Foreign

/-! ## The slices of a range -/

variable (valid : Valid world) (honest : surroundings.Honest world.held)

include valid honest in
/-- The slices of a range that does not wrap around; at the very end there are none. -/
theorem Valid.translatedByteBuffer_visits (inside : ptr + len <= usizeRange)
    (done : world.translatedByteBuffer surroundings space ptr len = some (.ok slices, after)) :
    (ptr + len = usizeRange /\ after = world /\ slices = []) \/
      (ptr + len < usizeRange /\ UserBuffer.len slices = len /\ ∀ addr, ptr <= addr -> addr < ptr + len ->
        (after.UserPage space (floor addr) ↔ world.Opened surroundings space (floor addr))) := by
  rcases Nat.eq_or_lt_of_le inside with whole | small
  · unfold translatedByteBuffer at done
    rw [whole, Nat.mod_self] at done
    left
    cases len with
    | zero | succ len =>
      cases done
      exact ⟨whole, rfl, rfl⟩
  · by_cases own : surroundings.current = some space
    · rcases valid.translatedByteBuffer_located honest own small done with ⟨looked, range, total⟩
      refine .inr ⟨small, total, fun addr above below => looked.opens.userPage_iff own ?_⟩
      have member : after.translateVa space addr ∈ (UserBuffer.addrs slices).map some := by
        rw [range]
        exact mem_map_of_mem (mem_range'_1.mpr ⟨above, below⟩)
      rcases mem_map.mp member with ⟨_, _, found⟩
      intro absent
      rw [translateVa_eq_map, absent] at found
      cases found
    · rcases translatedByteBuffer_foreign own small done with ⟨kept, total⟩
      exact .inr ⟨small, total, fun _ _ _ => userPage_iff_of_foreign own (congrFun kept _)⟩

/-! ## All accesses -/

/-- The range is one of the user exactly if the pages that are looked up are opened, and the others
were pages of the user. -/
theorem userRange_iff {looksUp : Nat -> Prop} (opened : ∀ addr, ptr <= addr -> addr < ptr + len -> looksUp addr ->
      (after.UserPage space (floor addr) ↔ world.Opened surroundings space (floor addr)))
    (kept : ∀ addr, ¬ looksUp addr -> after.entry space (floor addr) = world.entry space (floor addr)) :
    after.UserRange space ptr len ↔ ptr + len <= usizeRange /\ ∀ addr, ptr <= addr -> addr < ptr + len ->
      (looksUp addr -> world.Opened surroundings space (floor addr)) /\
        (¬ looksUp addr -> world.UserPage space (floor addr)) := by
  refine and_congr_right fun _ => forall_congr' fun addr => forall_congr' fun above => forall_congr' fun below => ?_
  by_cases seen : looksUp addr
  · rw [opened addr above below seen]
    exact ⟨fun user => ⟨fun _ => user, fun unseen => absurd seen unseen⟩, fun both => both.1 seen⟩
  · rw [UserPage, kept addr seen]
    exact ⟨fun user => ⟨fun looked => absurd looked seen, fun _ => user⟩, fun both => both.2 seen⟩

include valid honest

theorem Valid.translatedRefmut_userRange_iff {pa : Nat}
    (done : world.translatedRefmut surroundings space ptr = some (.ok pa, after)) (len : Nat) :
    after.UserRange space ptr len ↔ Proper world surroundings space ptr len .translatedRef := by
  have whole : after.UserRange space ptr len ↔ ptr + len <= usizeRange /\ ∀ addr, ptr <= addr -> addr < ptr + len ->
      (LooksUp ptr len addr .translatedRef -> world.Opened surroundings space (floor addr)) /\
        (¬ LooksUp ptr len addr .translatedRef -> world.UserPage space (floor addr)) := by
    by_cases own : surroundings.current = some space
    · rcases valid.translatedRefmut_visited honest own done with ⟨visited, found⟩
      refine userRange_iff (fun addr _ _ (same : slot (floor addr) = slot (floor ptr)) => ?_)
        (fun addr apart => visited.elsewhere (floor addr) apart)
      refine visited.opens.userPage_iff own ?_
      rw [entry_of_slot after space same]
      intro absent
      have walked := (found pa rfl).1
      rw [translateVa_eq_map, absent] at walked
      cases walked
    · have kept := translatedRefmut_foreign own done
      exact userRange_iff (fun _ _ _ _ => userPage_iff_of_foreign own (congrFun kept _)) fun _ _ => congrFun kept _
  exact whole.trans (and_congr_right fun _ => (iff_of_eq (true_and _)).symm)

/-- The two cases of a copy. -/
theorem Valid.copy_userRange_iff {ptr len : Nat}
    (looked : if onePage ptr len then ∃ pa, world.translatedRefmut surroundings space ptr = some (.ok pa, after)
      else ∃ slices, world.translatedByteBuffer surroundings space ptr len = some (.ok slices, after)) :
    after.UserRange space ptr len ↔ Proper world surroundings space ptr len .copyToUser := by
  have looksUp_eq : ∀ addr, LooksUp ptr len addr .copyToUser =
      if onePage ptr len then slot (floor addr) = slot (floor ptr) else ptr + len < usizeRange := fun _ => rfl
  unfold Proper Ends
  simp only [looksUp_eq, true_and]
  split at looked
  · rename_i short
    rcases looked with ⟨pa, translated⟩
    simp only [short, if_true]
    exact (valid.translatedRefmut_userRange_iff honest translated len).trans (and_congr_right fun _ => iff_of_eq (true_and _))
  · rename_i long
    rcases looked with ⟨slices, translated⟩
    simp only [long, Bool.false_eq_true, if_false]
    by_cases inside : ptr + len <= usizeRange
    · rcases valid.translatedByteBuffer_visits honest inside translated with
        ⟨_, rfl, _⟩ | ⟨small, _, opened⟩
      · exact userRange_iff (fun _ _ _ below => absurd below (by omega)) fun _ _ => rfl
      · exact userRange_iff (fun addr above below _ => opened addr above below) fun _ high => absurd small high
    · exact iff_of_false (fun user => inside user.1) fun proper => inside proper.1

theorem Valid.copyFromUser_userRange_iff {bytes : List Nat}
    (done : world.copyFromUser surroundings space ptr len = some (.ok bytes, after)) :
    after.UserRange space ptr len ↔ Proper world surroundings space ptr len .copyToUser := by
  apply valid.copy_userRange_iff honest
  unfold copyFromUser at done
  split at done
  · rename_i short
    rcases map_eq_ok done with ⟨pa, translated, _⟩
    rw [if_pos short]
    exact ⟨pa, translated⟩
  · rename_i long
    rcases map_eq_ok done with ⟨slices, translated, _⟩
    rw [if_neg long]
    exact ⟨slices, translated⟩

theorem Valid.copyBytes_userRange_iff {data : List Nat}
    (done : world.copyBytes surroundings space ptr data = some (.ok (), after)) :
    after.UserRange space ptr data.length ↔ Proper world surroundings space ptr data.length .copyToUser := by
  unfold copyBytes at done
  split at done
  · rename_i short
    rcases writeThrough_eq_ok.mp done with ⟨pa, reached, translated, rfl⟩
    apply @Valid.copy_userRange_iff world reached surroundings space valid honest ptr data.length
    rw [if_pos short]
    exact ⟨pa, translated⟩
  · rename_i long
    rcases writeThrough_eq_ok.mp done with ⟨slices, reached, translated, rfl⟩
    apply @Valid.copy_userRange_iff world reached surroundings space valid honest ptr data.length
    rw [if_neg long]
    exact ⟨slices, translated⟩

omit valid honest

end World

namespace MemorySet

/-! ## Buffers of system calls -/

/-- The end of the buffer wraps around, and so does its last page. -/
def containsValidBuffer (set : MemorySet) (buf size : Nat) (perm : MapPermission) : Bool :=
  let startVpn := floor buf
  let endVpn := ceil ((buf + size) % usizeRange)
  (set.areas.find? (fun area => area.mapPerm.contains { perm with u := true } && decide (area.start <= startVpn) &&
    decide (endVpn <= area.stop))).isSome

/-- All bytes are in one area that allows the access to the user. -/
def Accessible (set : MemorySet) (buf size : Nat) (perm : MapPermission) : Prop :=
  ∃ area, area ∈ set.areas /\ area.mapPerm.contains { perm with u := true } = true /\
    ∀ va, buf <= va -> va < buf + size -> area.Holds (floor va)

/-- If the buffer ends in the last page or behind it, then its end is wrapped around, and some
memory set is trusted wrongly. -/
theorem buffer_check_is_sound_iff (buf size : Nat) (perm : MapPermission) :
    (∀ set : MemorySet, set.containsValidBuffer buf size perm = true -> set.Accessible buf size perm) ↔
      size = 0 \/ buf + size <= usizeRange - pageSize := by
  constructor
  · intro sound
    by_contra beyond
    -- an area from page zero on, as long as the check wants it
    let area : MapArea := ⟨.new 0 (ceil ((buf + size) % usizeRange)), { perm with u := true }, false, none⟩
    have self : area.mapPerm.contains { perm with u := true } = true := by
      rcases perm with ⟨r, w, x, u⟩
      cases r <;> cases w <;> cases x <;> rfl
    have stop_eq : area.stop = ceil ((buf + size) % usizeRange) := by
      simp [area, MapArea.stop, LinearMap.stop, LinearMap.new]
    have found : MemorySet.containsValidBuffer ⟨PageTable.new, [area]⟩ buf size perm = true := by
      simp [containsValidBuffer, self, stop_eq, show area.start = 0 from rfl]
    rcases sound _ found with ⟨other, member, _, holds⟩
    rw [mem_singleton.mp member] at holds
    have last := (holds (buf + size - 1) (by omega) (by omega)).2
    unfold ceil floor usizeRange pageSize at *
    omega
  · intro inside set found
    rcases find?_isSome.mp found with ⟨area, member, chosen⟩
    simp only [Bool.and_eq_true, decide_eq_true_eq] at chosen
    refine ⟨area, member, chosen.1.1, fun va low high => ⟨?_, ?_⟩⟩
    · exact chosen.1.2.trans (Nat.div_le_div_right low)
    · refine lt_of_lt_of_le ?_ chosen.2
      unfold ceil floor usizeRange pageSize at *
      omega

/-- A buffer that wraps around to its own page is accepted. -/
theorem wrapping_buffer_is_accepted :
    MemorySet.containsValidBuffer ⟨PageTable.new, [⟨.new 0x10 1, ⟨true, true, false, true⟩, false, none⟩]⟩ 0x10000
        (usizeRange - 0x8000) ⟨true, false, false, false⟩ = true /\
      ¬ MemorySet.Accessible ⟨PageTable.new, [⟨.new 0x10 1, ⟨true, true, false, true⟩, false, none⟩]⟩ 0x10000
        (usizeRange - 0x8000) ⟨true, false, false, false⟩ := by
  refine ⟨by decide, ?_⟩
  rintro ⟨area, member, _, holds⟩
  rw [mem_singleton.mp member] at holds
  exact absurd (holds 0x11000 (by decide) (by decide)).2 (by decide)

end MemorySet

end GCore.Mm
