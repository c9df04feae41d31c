import GCore.Mm.Reclaim

namespace GCore.Mm

open List Option Function

/-!
# The compressed store and the swap device

Pages that are put aside go to one of two stores.  Both hand out an identifier for a
page that is written and take it back when its last tracker is dropped.  The compressed
store keeps a stack of returned identifiers below a high-water mark, and the swap device
keeps a bitmap.  What is compressed is taken to be what is decompressed, and what is
written to a block of the disk to be what is read from it, so a slot here holds the page
itself.

`Devices.drop` is what dropping a list of trackers does to the stores: a tracker is
returned when it is the last one of its kind.
-/

/-- The bytes of a page, by offset. -/
def Page : Type := Nat -> Nat

def Page.zero : Page := fun _ => 0

/-- Replace one byte. -/
def Page.set (page : Page) (offset byte : Nat) : Page := update page offset byte

inductive ZramError where
  | invalidIndex
  | noSpace
  | notAllocated
  deriving DecidableEq, Repr

/-- The stack of returned identifiers is written with the newest first. -/
structure Zram where
  compressed : List (Option Page)
  recycled : List Nat
  tail : Nat

namespace Zram

def new (capacity : Nat) : Zram := ⟨List.replicate capacity none, [], 0⟩

def insert (zram : Zram) (data : Page) : Except ZramError (Nat × Zram) :=
  match zram.recycled with
  | id :: rest => .ok (id, { zram with compressed := zram.compressed.set id (some data), recycled := rest })
  | [] =>
    if zram.tail = zram.compressed.length then .error .noSpace
    else
      .ok (zram.tail,
        { zram with compressed := zram.compressed.set zram.tail (some data), tail := zram.tail + 1 })

def get (zram : Zram) (id : Nat) : Except ZramError Page :=
  match zram.compressed[id]? with
  | none => .error .invalidIndex
  | some none => .error .notAllocated
  | some (some data) => .ok data

/-- The mark is 16 bits wide. -/
def remove (zram : Zram) (id : Nat) : Except ZramError Zram :=
  match zram.compressed[id]? with
  | none => .error .invalidIndex
  | some none => .error .notAllocated
  | some (some _) =>
    let emptied := zram.compressed.set id none
    if id = (zram.tail + 65535) % 65536 then .ok { zram with compressed := emptied, tail := id }
    else .ok { zram with compressed := emptied, recycled := id :: zram.recycled }

/-- The page that is kept under an identifier. -/
def slot? (zram : Zram) (id : Nat) : Option Page := (zram.compressed[id]?).join

/-- Identifiers that may be handed out are free. -/
structure Sound (zram : Zram) : Prop where
  small : zram.compressed.length < 65536
  tail_le : zram.tail <= zram.compressed.length
  nodup : zram.recycled.Nodup
  recycled_lt : ∀ id ∈ zram.recycled, id < zram.tail
  recycled_free : ∀ id ∈ zram.recycled, zram.slot? id = none
  tail_free : ∀ id, zram.tail <= id -> zram.slot? id = none

variable {zram after : Zram} {id : Nat} {data : Page}

theorem get_eq_ok_iff : zram.get id = .ok data ↔ zram.slot? id = some data := by
  unfold get slot?
  cases zram.compressed[id]? with
  | none => simp
  | some kept => cases kept <;> simp

theorem slot?_set {compressed : List (Option Page)} (inside : id < compressed.length) (entry : Option Page)
    (other : Nat) :
    ((compressed.set id entry)[other]?).join = if other = id then entry else (compressed[other]?).join := by
  by_cases same : other = id
  · subst same
    rw [if_pos rfl, getElem?_set_self inside]
    rfl
  · rw [if_neg same, getElem?_set_ne (Ne.symm same)]

theorem lt_tail_of_slot (sound : Sound zram) (kept : zram.slot? id = some data) : id < zram.tail := by
  by_contra beyond
  rw [sound.tail_free id (not_lt.mp beyond)] at kept
  cases kept

theorem Sound.new {capacity : Nat} (small : capacity < 65536) : Sound (Zram.new capacity) := by
  refine ⟨?_, Nat.zero_le _, nodup_nil, nofun, nofun, ?_⟩
  · rw [Zram.new, length_replicate]
    exact small
  · intro id _
    unfold slot? Zram.new
    rw [getElem?_replicate]
    split
    · rfl
    · rfl

theorem insert_cases (done : zram.insert data = .ok (id, after)) :
    (∃ rest, zram.recycled = id :: rest /\ after = ⟨zram.compressed.set id (some data), rest, zram.tail⟩) \/
      zram.recycled = [] /\ zram.tail ≠ zram.compressed.length /\ id = zram.tail /\
        after = ⟨zram.compressed.set id (some data), [], zram.tail + 1⟩ := by
  unfold insert at done
  cases returned : zram.recycled with
  | cons first rest =>
    simp only [returned] at done
    cases done
    exact .inl ⟨rest, rfl, rfl⟩
  | nil =>
    simp only [returned] at done
    split at done
    · cases done
    · next room =>
      cases done
      exact .inr ⟨rfl, room, rfl, rfl⟩

/-- A page is written to a slot that was free. -/
theorem insert_spec (sound : Sound zram) (done : zram.insert data = .ok (id, after)) :
    zram.slot? id = none /\ Sound after /\
      ∀ other, after.slot? other = if other = id then some data else zram.slot? other := by
  rcases insert_cases done with ⟨rest, returned, rfl⟩ | ⟨_, room, rfl, rfl⟩
  · have member : id ∈ zram.recycled := by
      rw [returned]
      exact mem_cons_self
    have older : ∀ other ∈ rest, other ∈ zram.recycled := by
      intro other present
      rw [returned]
      exact mem_cons_of_mem _ present
    have nodup := sound.nodup
    rw [returned, nodup_cons] at nodup
    have inside := lt_of_lt_of_le (sound.recycled_lt id member) sound.tail_le
    have slots := slot?_set inside (some data)
    refine ⟨sound.recycled_free id member, ⟨?_, ?_, nodup.2, ?_, ?_, ?_⟩, slots⟩
    · exact (length_set).symm ▸ sound.small
    · exact (length_set).symm ▸ sound.tail_le
    · intro other present
      exact sound.recycled_lt other (older other present)
    · intro other present
      have different : other ≠ id := by
        rintro rfl
        exact nodup.1 present
      exact (slots other).trans ((if_neg different).trans (sound.recycled_free other (older other present)))
    · intro other beyond
      have different : other ≠ id := by
        rintro rfl
        exact not_lt.mpr beyond (sound.recycled_lt other member)
      exact (slots other).trans ((if_neg different).trans (sound.tail_free other beyond))
  · have inside := lt_of_le_of_ne sound.tail_le room
    have slots := slot?_set inside (some data)
    refine ⟨sound.tail_free _ le_rfl, ⟨?_, ?_, nodup_nil, nofun, nofun, ?_⟩, slots⟩
    · exact (length_set).symm ▸ sound.small
    · exact (length_set).symm ▸ inside
    · intro other beyond
      have free := sound.tail_free other (le_of_lt beyond)
      exact (slots other).trans ((if_neg (ne_of_gt beyond)).trans free)

/-- A slot goes to the stack unless it is the one below the mark. -/
theorem remove_cases (sound : Sound zram) (done : zram.remove id = .ok after) :
    zram.slot? id ≠ none /\ id < zram.tail /\
      (zram.tail = id + 1 /\ after = ⟨zram.compressed.set id none, zram.recycled, id⟩ \/
        after = ⟨zram.compressed.set id none, id :: zram.recycled, zram.tail⟩) := by
  unfold remove at done
  cases entry : zram.compressed[id]? with
  | none => simp [entry] at done
  | some kept =>
    cases kept with
    | none => simp [entry] at done
    | some data =>
      have kept : zram.slot? id = some data := by
        unfold slot?
        rw [entry]
        rfl
      have below := lt_tail_of_slot sound kept
      have before : (zram.tail + 65535) % 65536 = zram.tail - 1 := by
        have := sound.tail_le
        have := sound.small
        omega
      refine ⟨by simp [kept], below, ?_⟩
      simp only [entry, before] at done
      split at done
      · cases done
        exact .inl ⟨by omega, rfl⟩
      · cases done
        exact .inr rfl

/-- Returning an identifier empties its slot and no other. -/
theorem remove_spec (sound : Sound zram) (done : zram.remove id = .ok after) :
    Sound after /\ ∀ other, after.slot? other = if other = id then none else zram.slot? other := by
  rcases remove_cases sound done with ⟨kept, below, place⟩
  have inside := below.trans_le sound.tail_le
  have slots := slot?_set inside none
  have small : (zram.compressed.set id none).length < 65536 := (length_set).symm ▸ sound.small
  have unreturned : id ∉ zram.recycled := fun member => kept (sound.recycled_free id member)
  -- a slot that was free is free now
  have free : ∀ other, zram.slot? other = none -> ((zram.compressed.set id none)[other]?).join = none := by
    intro other before
    rw [slots, <- slot?, before, ite_self]
  rcases place with ⟨last, rfl⟩ | rfl
  · refine ⟨⟨small, (length_set).symm ▸ inside.le, sound.nodup, ?_, ?_, ?_⟩, slots⟩
    · intro other member
      have different : other ≠ id := fun same => unreturned (same ▸ member)
      have lower := sound.recycled_lt other member
      change other < id
      omega
    · exact fun other member => free other (sound.recycled_free other member)
    · intro other beyond
      change id <= other at beyond
      by_cases same : other = id
      · exact (slots other).trans (if_pos same)
      · exact free other (sound.tail_free other (by omega))
  · refine ⟨⟨small, (length_set).symm ▸ sound.tail_le, nodup_cons.mpr ⟨unreturned, sound.nodup⟩,
      ?_, ?_, ?_⟩, slots⟩
    · intro other member
      rcases mem_cons.mp member with rfl | old
      · exact below
      · exact sound.recycled_lt other old
    · intro other member
      rcases mem_cons.mp member with same | old
      · exact (slots other).trans (if_pos same)
      · exact free other (sound.recycled_free other old)
    · exact fun other beyond => free other (sound.tail_free other beyond)

theorem exists_remove (kept : (zram.slot? id).isSome = true) : ∃ after, zram.remove id = .ok after := by
  unfold slot? at kept
  unfold remove
  cases entry : zram.compressed[id]? with
  | none => simp [entry] at kept
  | some stored =>
    cases stored with
    | none => simp [entry] at kept
    | some data =>
      dsimp only
      split
      · exact ⟨_, rfl⟩
      · exact ⟨_, rfl⟩

end Zram

/-- The swap device, with one entry of the bitmap for each bit of the source's words. -/
structure Swap where
  usable : Bool
  bitmap : List Bool
  pages : Nat -> Page

namespace Swap

def allocPage (swap : Swap) : Option Nat := swap.bitmap.findIdx? (fun taken => !taken)

def write (swap : Swap) (data : Page) : Option (Nat × Swap) :=
  if swap.usable then
    swap.allocPage.map
      (fun id => (id, { swap with bitmap := swap.bitmap.set id true, pages := update swap.pages id data }))
  else none

/-- Nothing is read from a device that is not usable. -/
def read (swap : Swap) (id : Nat) : Option Page := if swap.usable then some (swap.pages id) else none

def discard (swap : Swap) (id : Nat) : Swap := { swap with bitmap := swap.bitmap.set id false }

/-- The identifier is in use. -/
def Taken (swap : Swap) (id : Nat) : Prop := swap.usable = true /\ swap.bitmap[id]? = some true

theorem write_spec {swap after : Swap} {id : Nat} {data : Page} (done : swap.write data = some (id, after)) :
    ¬ swap.Taken id /\ after.Taken id /\ after.pages id = data /\
      ∀ other ≠ id, (swap.Taken other -> after.Taken other) /\ after.pages other = swap.pages other := by
  unfold write at done
  split at done
  · next usable =>
    rcases Option.map_eq_some_iff.mp done with ⟨_, found, same⟩
    cases same
    rcases findIdx?_eq_some_iff_getElem.mp found with ⟨inside, free, _⟩
    refine ⟨?_, ⟨usable, getElem?_set_self inside⟩, update_self _ _ _, ?_⟩
    · rintro ⟨_, taken⟩
      rw [getElem?_eq_getElem inside, some.injEq] at taken
      rw [taken] at free
      cases free
    · intro other different
      refine ⟨?_, update_of_ne different _ _⟩
      rintro ⟨_, taken⟩
      exact ⟨usable, (getElem?_set_ne (Ne.symm different)).trans taken⟩
  · cases done

end Swap

structure Devices where
  zram : Zram
  swap : Swap

namespace Devices

/-- Write the pages that a reclaim pass puts aside, for the identifiers that it got. -/
def putAside (memory : Nat -> Page) : List Store -> Devices -> Option Devices
  | [], devices => some devices
  | .zram ppn id :: stores, devices =>
    match devices.zram.insert (memory ppn) with
    | .error _ => none
    | .ok (given, zram) =>
      if given = id then putAside memory stores { devices with zram := zram } else none
  | .swap ppn id :: stores, devices =>
    match devices.swap.write (memory ppn) with
    | none => none
    | some (given, swap) =>
      if given = id then putAside memory stores { devices with swap := swap } else none

/-- The last tracker of its kind is dropped; `none` is a failed `unwrap`. -/
def discard (frame : Frame) (devices : Devices) : Option Devices :=
  match frame with
  | .compressed id => (devices.zram.remove id).toOption.map (fun zram => { devices with zram := zram })
  | .swappedOut id => some { devices with swap := devices.swap.discard id }
  | _ => some devices

/-- Drop trackers one after another while others remain. -/
def drop (remaining : List Frame) : List Frame -> Devices -> Option Devices
  | [], devices => some devices
  | frame :: frames, devices =>
    if frame ∈ frames \/ frame ∈ remaining then drop remaining frames devices
    else (devices.discard frame).bind (drop remaining frames)

/-- The stores have what is recorded as put aside. -/
def Keeps (devices : Devices) : Frame -> Prop
  | .compressed id => (devices.zram.slot? id).isSome = true
  | .swappedOut id => devices.swap.Taken id
  | _ => True

/-- The content of a page, wherever it is. -/
def content (devices : Devices) (memory : Nat -> Page) : Frame -> Page
  | .inMemory ppn => memory ppn
  | .compressed id => (devices.zram.slot? id).getD Page.zero
  | .swappedOut id => devices.swap.pages id
  | .unallocated => Page.zero

variable {devices after : Devices} {memory : Nat -> Page}

/-- Dropping one tracker does not touch the others. -/
theorem discard_spec {frame : Frame} (sound : devices.zram.Sound) (done : devices.discard frame = some after) :
    after.zram.Sound /\ ∀ other ≠ frame, devices.Keeps other ->
      after.Keeps other /\ after.content memory other = devices.content memory other := by
  cases frame with
  | inMemory ppn | unallocated =>
    cases done
    exact ⟨sound, fun _ _ keeps => ⟨keeps, rfl⟩⟩
  | swappedOut id =>
    cases done
    refine ⟨sound, ?_⟩
    intro other different keeps
    cases other with
    | swappedOut key =>
      have other : id ≠ key := fun same => different (congrArg Frame.swappedOut same.symm)
      exact ⟨⟨keeps.1, (getElem?_set_ne other).trans keeps.2⟩, rfl⟩
    | inMemory ppn | compressed key | unallocated => exact ⟨keeps, rfl⟩
  | compressed id =>
    unfold discard at done
    cases removed : devices.zram.remove id with
    | error cause => simp [removed, Except.toOption] at done
    | ok zram =>
      simp only [removed, Except.toOption, map_some, some.injEq] at done
      subst done
      rcases Zram.remove_spec sound removed with ⟨stays, slots⟩
      refine ⟨stays, ?_⟩
      intro other different keeps
      cases other with
      | compressed key =>
        have slot_eq : zram.slot? key = devices.zram.slot? key := by
          rw [slots, if_neg (fun same => different (congrArg Frame.compressed same))]
        unfold Keeps content
        dsimp only
        rw [slot_eq]
        exact ⟨keeps, rfl⟩
      | inMemory ppn | swappedOut key | unallocated => exact ⟨keeps, rfl⟩

/-- Trackers that remain keep what they stand for. -/
theorem drop_spec {remaining frames : List Frame} (sound : devices.zram.Sound)
    (done : devices.drop remaining frames = some after) :
    after.zram.Sound /\ ∀ frame ∈ remaining, devices.Keeps frame ->
      after.Keeps frame /\ after.content memory frame = devices.content memory frame := by
  induction frames generalizing devices with
  | nil =>
    cases done
    exact ⟨sound, fun _ _ keeps => ⟨keeps, rfl⟩⟩
  | cons first rest ih =>
    unfold drop at done
    split at done
    · exact ih sound done
    · next unique =>
      rcases bind_eq_some_iff.mp done with ⟨_, dropped, later⟩
      rcases discard_spec sound dropped with ⟨middleSound, others⟩
      rcases ih middleSound later with ⟨stays, kept⟩
      refine ⟨stays, ?_⟩
      intro frame member keeps
      have different : frame ≠ first := fun same => unique (.inr (same ▸ member))
      have step := others frame different keeps
      have final := kept frame member step.1
      exact ⟨final.1, final.2.trans step.2⟩

/-- A page that is put aside goes to a free slot, and what is kept stays. -/
theorem putAside_spec {store : Store} {frame moved : Frame} (sound : devices.zram.Sound)
    (evicted : Evicted frame moved store) (put : devices.putAside memory [store] = some after) :
    after.zram.Sound /\ after.Keeps moved /\ after.content memory moved = devices.content memory frame /\
      ∀ other, devices.Keeps other ->
        after.Keeps other /\ after.content memory other = devices.content memory other := by
  cases evicted with
  | zram ppn id =>
    unfold putAside at put
    cases inserted : devices.zram.insert (memory ppn) with
    | error cause => simp [inserted] at put
    | ok pair =>
      rcases pair with ⟨given, zram⟩
      simp only [inserted] at put
      split at put
      · next same =>
        subst same
        cases put
        rcases Zram.insert_spec sound inserted with ⟨free, stays, slots⟩
        refine ⟨stays, ?_, ?_, ?_⟩
        · change (zram.slot? given).isSome = true
          rw [slots, if_pos rfl]
          rfl
        · change (zram.slot? given).getD Page.zero = memory ppn
          rw [slots, if_pos rfl]
          rfl
        · intro other keeps
          cases other with
          | compressed key =>
            have different : key ≠ given := by
              rintro rfl
              change (devices.zram.slot? key).isSome = true at keeps
              rw [free] at keeps
              cases keeps
            have slot_eq : zram.slot? key = devices.zram.slot? key := by rw [slots, if_neg different]
            unfold Keeps content
            dsimp only
            rw [slot_eq]
            exact ⟨keeps, rfl⟩
          | inMemory _ | swappedOut _ | unallocated => exact ⟨keeps, rfl⟩
      · cases put
  | swap ppn id =>
    unfold putAside at put
    cases written : devices.swap.write (memory ppn) with
    | none => simp [written] at put
    | some pair =>
      rcases pair with ⟨given, swap⟩
      simp only [written] at put
      split at put
      · next same =>
        subst same
        cases put
        rcases Swap.write_spec written with ⟨free, taken, page_eq, others⟩
        refine ⟨sound, taken, page_eq, ?_⟩
        intro other keeps
        cases other with
        | swappedOut key =>
          have different : key ≠ given := by
            rintro rfl
            exact free keeps
          exact ⟨(others key different).1 keeps, (others key different).2⟩
        | inMemory _ | compressed _ | unallocated => exact ⟨keeps, rfl⟩
      · cases put

theorem putAside_append {first second : List Store} :
    devices.putAside memory (first ++ second) =
      (devices.putAside memory first).bind (fun middle => middle.putAside memory second) := by
  induction first generalizing devices with
  | nil => rfl
  | cons store rest ih =>
    cases store with
    | zram ppn id =>
      simp only [cons_append, putAside]
      cases devices.zram.insert (memory ppn) with
      | error cause => rfl
      | ok pair =>
        dsimp only
        split
        · exact ih
        · rfl
    | swap ppn id =>
      simp only [cons_append, putAside]
      cases devices.swap.write (memory ppn) with
      | none => rfl
      | some pair =>
        dsimp only
        split
        · exact ih
        · rfl

/-- A tracker of a page that the stores have can be dropped. -/
theorem exists_drop_singleton {frame : Frame} (keeps : devices.Keeps frame) (remaining : List Frame) :
    ∃ after, devices.drop remaining [frame] = some after := by
  unfold drop
  split
  · exact ⟨devices, rfl⟩
  · cases frame with
    | compressed id =>
      rcases Zram.exists_remove keeps with ⟨_, removed⟩
      simp only [discard, removed, Except.toOption, map_some, bind_some, drop]
      exact ⟨_, rfl⟩
    | inMemory ppn | unallocated => exact ⟨devices, rfl⟩
    | swappedOut id => exact ⟨_, rfl⟩

end Devices

end GCore.Mm
