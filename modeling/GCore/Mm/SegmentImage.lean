import GCore.Mm.Stores
import GCore.Mm.UserSpace

namespace GCore.Mm

open List Function

/-!
# The image of a segment

`push_with_offset` maps an area to frames as the allocator finds them and copies the data of
a segment into it.  Its comment promises zeros elsewhere.  The loop over the later pages
clears what it does not copy, but in the first page only the bytes in front of the data are
cleared: if the data ends there, the rest of the page is what the frame had before.
-/

/-- The first page: `first_dst[..offset]` is cleared and the data copied behind it. -/
def fillFirst (offset : Nat) (data : List Nat) (page : Page) : Page := fun place =>
  if place < offset then 0
  else if place < offset + min data.length (pageSize - offset) then data.getD (place - offset) 0
  else page place

/-- A later page, with the data from `start` on. -/
def fillLater (data : List Nat) (start : Nat) : Page := fun place =>
  if start < data.length then
    if start + pageSize <= data.length then data.getD (start + place) 0
    else if place < data.length - start then data.getD (start + place) 0 else 0
  else 0

def fillLoop (data : List Nat) : Nat -> List Nat -> (Nat -> Page) -> Nat -> Page
  | _, [], memory => memory
  | start, ppn :: frames, memory =>
    fillLoop data (start + pageSize) frames (update memory ppn (fillLater data start))

def fillPages (offset : Nat) (data : List Nat) : List Nat -> (Nat -> Page) -> Nat -> Page
  | [], memory => memory
  | ppn :: frames, memory =>
    fillLoop data (pageSize - offset) frames (update memory ppn (fillFirst offset data (memory ppn)))

namespace MemorySet

open MapArea

/-- `push_with_offset`.  Each page is filled when it has been mapped; as nothing is read
before, the pages can be filled at the end. -/
def pushWithOffset (set : MemorySet) (area : MapArea) (offset : Nat) (data frames : List Nat) (memory : Nat -> Page) :
    Except Panic (MemorySet × (Nat -> Page)) :=
  (set.push area frames).map (fun after =>
    (after, fillPages offset data (frames.take (area.stop - area.start)) memory))

/-- The byte of the image at a position of the area. -/
def imageByte (offset : Nat) (data : List Nat) (position : Nat) : Nat :=
  if offset <= position /\ position < offset + data.length then data.getD (position - offset) 0 else 0

/-- The mapped bytes of the area are the data, with zeros around it. -/
def ShowsImage (set : MemorySet) (memory : Nat -> Page) (area : MapArea) (offset : Nat) (data : List Nat) : Prop :=
  ∀ vpn, area.Holds vpn -> ∃ ppn, set.pageTable.translate vpn = some ppn /\
    ∀ place < pageSize, memory ppn place = imageByte offset data ((vpn - area.start) * pageSize + place)

/-- Data that ends in the first page leaves zeros behind it only if they are there already. -/
def CleanTail (area : MapArea) (offset : Nat) (data frames : List Nat) (memory : Nat -> Page) : Prop :=
  area.start < area.stop -> ∀ ppn, frames.head? = some ppn -> ∀ place,
    offset + data.length <= place -> place < pageSize -> memory ppn place = 0

variable {set after : MemorySet} {area afterArea : MapArea} {table afterTable : PageTable}
  {vpns frames data : List Nat} {memory afterMemory : Nat -> Page} {offset index start ppn vpn : Nat}

/-- The pages get the frames in order. -/
theorem mapPages_translate (done : mapPages vpns frames area table = .ok (afterArea, afterTable))
    (inside : ∀ vpn ∈ vpns, area.start <= vpn) (page : vpns[index]? = some vpn) :
    ∃ ppn, frames[index]? = some ppn /\ afterTable.translate vpn = some ppn := by
  induction vpns generalizing frames area table index with
  | nil => cases page
  | cons first rest ih =>
    have whole := mapPages_maps inside done
    rcases mapPages_cons_eq_ok done with ⟨ppn, _, middle, rfl, one, onward⟩
    rcases mapFrame_eq_ok (inside first mem_cons_self) one with ⟨_, _, records, mapped⟩
    have later : ∀ vpn ∈ rest, middle.1.start <= vpn := fun vpn member =>
      records.start_eq ▸ inside vpn (mem_cons_of_mem _ member)
    cases index with
    | zero =>
      cases page
      have entry := (mapPages_maps later onward).entry_eq vpn (nodup_cons.mp whole.nodup).1
      exact ⟨ppn, rfl, by simp [PageTable.translate, entry, mapped]⟩
    | succ index => simpa using ih onward later page

theorem fillLoop_of_not_mem (absent : ppn ∉ frames) : fillLoop data start frames memory ppn = memory ppn := by
  induction frames generalizing start memory with
  | nil => rfl
  | cons first rest ih =>
    rw [mem_cons, not_or] at absent
    rw [fillLoop, ih absent.2, update_of_ne absent.1]

theorem fillLoop_eq (distinct : frames.Nodup) (frame : frames[index]? = some ppn) :
    fillLoop data start frames memory ppn = fillLater data (start + index * pageSize) := by
  induction frames generalizing start memory index with
  | nil => cases frame
  | cons first rest ih =>
    rw [nodup_cons] at distinct
    cases index with
    | zero =>
      cases frame
      rw [fillLoop, fillLoop_of_not_mem distinct.1, update_self, Nat.zero_mul, Nat.add_zero]
    | succ index =>
      rw [fillLoop, ih distinct.2 frame, Nat.add_assoc, Nat.succ_mul, Nat.add_comm pageSize]

/-- A later page shows its part of the image. -/
theorem fillLater_eq {place : Nat} (small : offset < pageSize) (within : place < pageSize) :
    fillLater data (pageSize - offset + index * pageSize) place =
      imageByte offset data ((index + 1) * pageSize + place) := by
  unfold fillLater imageByte
  grind

/-- The first page does so up to the bytes behind the data. -/
theorem fillFirst_eq_iff {place : Nat} {page : Page} (within : place < pageSize) :
    fillFirst offset data page place = imageByte offset data place ↔ (offset + data.length <= place -> page place = 0) := by
  unfold fillFirst imageByte
  grind

theorem fillPages_eq (distinct : frames.Nodup) (frame : frames[index]? = some ppn) :
    fillPages offset data frames memory ppn =
      if index = 0 then fillFirst offset data (memory ppn)
      else fillLater data (pageSize - offset + (index - 1) * pageSize) := by
  cases frames with
  | nil => cases frame
  | cons first rest =>
    rw [nodup_cons] at distinct
    cases index with
    | zero =>
      cases frame
      rw [fillPages, fillLoop_of_not_mem distinct.1, update_self, if_pos rfl]
    | succ index =>
      rw [fillPages, fillLoop_eq distinct.2 frame, if_neg (Nat.succ_ne_zero _), Nat.add_sub_cancel]

/-- A segment is shown as it should be exactly if the rest of its first page was clear. -/
theorem segment_shows_image_iff (small : offset < pageSize) (distinct : frames.Nodup)
    (pushed : set.pushWithOffset area offset data frames memory = .ok (after, afterMemory)) :
    ShowsImage after afterMemory area offset data ↔ CleanTail area offset data frames memory := by
  unfold pushWithOffset MemorySet.push at pushed
  cases done : mapPages (pages area.start area.stop) frames area set.pageTable with
  | error panic => simp [done, Except.map] at pushed
  | ok outcome =>
    simp only [done, Except.map, Except.ok.injEq, Prod.mk.injEq] at pushed
    rcases pushed with ⟨rfl, rfl⟩
    have taken : (frames.take (area.stop - area.start)).Nodup := distinct.sublist (take_sublist _ _)
    have page {vpn : Nat} (held : area.Holds vpn) : ∃ ppn, frames[vpn - area.start]? = some ppn /\
        outcome.2.translate vpn = some ppn /\ (frames.take (area.stop - area.start))[vpn - area.start]? = some ppn := by
      have listed : (pages area.start area.stop)[vpn - area.start]? = some vpn := by
        unfold pages
        rw [getElem?_range' (Nat.sub_lt_sub_right held.1 held.2), Nat.one_mul, Nat.add_sub_cancel' held.1]
      rcases mapPages_translate done (fun vpn member => (mem_pages.mp member).1) listed with ⟨ppn, frame, mapped⟩
      refine ⟨ppn, frame, mapped, ?_⟩
      rw [getElem?_take_of_lt (Nat.sub_lt_sub_right held.1 held.2), frame]
    constructor
    · intro shows nonempty ppn head place behind within
      rcases shows area.start ⟨le_rfl, nonempty⟩ with ⟨shown, found, bytes⟩
      rcases page ⟨le_rfl, nonempty⟩ with ⟨given, frame, mapped, listed⟩
      rw [mapped] at found
      cases found
      rw [Nat.sub_self, <- head?_eq_getElem?, head] at frame
      cases frame
      have byte := bytes place within
      rw [fillPages_eq taken listed, Nat.sub_self, if_pos rfl, Nat.zero_mul, Nat.zero_add] at byte
      exact (fillFirst_eq_iff within).mp byte behind
    · intro clean vpn held
      rcases page held with ⟨ppn, frame, mapped, listed⟩
      refine ⟨ppn, mapped, fun place within => ?_⟩
      rw [fillPages_eq taken listed]
      split
      · next first =>
        rw [first, <- head?_eq_getElem?] at frame
        rw [first, Nat.zero_mul, Nat.zero_add]
        exact (fillFirst_eq_iff within).mpr fun behind =>
          clean (held.1.trans_lt held.2) ppn frame place behind within
      · next later => rw [fillLater_eq small within, Nat.sub_one_add_one later]

/-- The layout of a program whose segment of data ends inside its only page. -/
def shortSegment : MapArea := ⟨LinearMap.new 0x20 1, ⟨true, true, false, true⟩, false, none⟩

theorem short_segment_shows_image :
    ∃ after memory,
      (newUser 1 2).pushWithOffset shortSegment 8 [7] [10] (fun _ => Page.zero) = .ok (after, memory) /\
      ShowsImage after memory shortSegment 8 [7] := by
  have pushed : ∃ after memory,
      (newUser 1 2).pushWithOffset shortSegment 8 [7] [10] (fun _ => Page.zero) = .ok (after, memory) := ⟨_, _, rfl⟩
  rcases pushed with ⟨after, memory, pushed⟩
  refine ⟨after, memory, pushed, (segment_shows_image_iff (by decide) (nodup_singleton _) pushed).mpr ?_⟩
  intro _ _ _ _ _ _
  rfl

/-- Without the condition: the rest of the page shows what was in the frame before. -/
theorem short_segment_shows_old_bytes :
    ¬ ∀ (set after : MemorySet) (area : MapArea) (offset : Nat) (data frames : List Nat) (memory afterMemory : Nat -> Page),
      offset < pageSize -> offset + data.length <= (area.stop - area.start) * pageSize -> frames.Nodup ->
      set.pushWithOffset area offset data frames memory = .ok (after, afterMemory) ->
      ShowsImage after afterMemory area offset data := by
  intro claim
  have shows := claim (newUser 1 2) _ shortSegment 8 [7] [10] (fun _ _ => 5) _ (by decide) (by decide)
    (nodup_singleton _) rfl 0x20 (by decide)
  rcases shows with ⟨ppn, mapped, bytes⟩
  cases mapped
  exact absurd (bytes 9 (by decide)) (by decide)

end MemorySet

end GCore.Mm
