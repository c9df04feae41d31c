import GCore.Mm.UserSpace

namespace GCore.Mm

open Library MapPermission Option List

/-!
# Store faults

A store to a page that is mapped already faults because the entry lacks `W`.  The handler
never asks whether the area may be written: unless `mprotect` has taken the permission away,
it sends every fault to `copy_on_write`, which gives the entry the permission of the area
again and reports success.  In an area without `W` the store then faults as before.
-/

namespace MemorySet

open MapArea

/-- The area that handles a fault on a page. -/
def handler (set : MemorySet) (vpn : Nat) : Option MapArea :=
  (faultArea set.areas vpn).bind (fun index => set.areas[index]?)

/-- The page can be written. -/
def Writable (set : MemorySet) (vpn : Nat) : Prop :=
  ∃ pte, set.pageTable.findPte vpn = some pte /\ pte.perm.w = true

/-- A fault that succeeds leaves the page writable, and one on a page of an area without `W`
is refused. -/
def Progresses (set : MemorySet) (vpn : Nat) (result : Except MemoryError Nat) (after : MemorySet) : Prop :=
  (∀ pa, result = .ok pa -> after.Writable vpn) /\
    ∀ area, set.handler vpn = some area -> area.mapPerm.w = false -> result = .error .noPermission

variable {set after : MemorySet} {area afterArea : MapArea} {table afterTable : PageTable} {addr vpn : Nat}
  {env : FaultEnv} {fill : Fill} {result : Except MemoryError Nat}

/-- Whatever `copy_on_write` does with a mapped page, its entry has the permission of the area. -/
theorem copyOnWrite_entry (mapped : table.isMapped vpn = true)
    (done : area.copyOnWrite table vpn env = .ok (result, afterArea, afterTable, fill)) :
    result = .error .notMapped /\ ¬ Backed area table vpn \/ ∃ ppn, result = .ok ppn /\
      ∃ pte, afterTable.findPte vpn = some pte /\ pte.perm = area.mapPerm := by
  rcases (table.isMapped_iff vpn).mp mapped with ⟨pte, entry⟩
  unfold copyOnWrite at done
  split at done
  · next removed =>
    cases done
    refine .inl ⟨rfl, fun backed => ?_⟩
    rcases removeInMemory_records (backed pte entry) with ⟨_, taken, _⟩
    rw [taken] at removed
    cases removed
  · split at done
    · split at done
      · cases done
      · simp only [PageTable.setPteFlags, entry] at done
        cases done
        exact .inr ⟨_, rfl, _, PageTable.findPte_set_same .., rfl⟩
    · split at done
      · cases done
      · split at done
        · cases done
        · next remapped =>
          cases done
          unfold mapFrame at remapped
          split at remapped
          · cases remapped
          · split at remapped
            · cases remapped
            · next entered =>
              cases remapped
              rw [(PageTable.map_eq_some_iff.mp entered).2]
              exact .inr ⟨_, rfl, _, PageTable.findPte_set_same .., rfl⟩

/-- A fault succeeds on a mapped page of an area that was not stripped, unless the area has no
frame for the page, and the entry has the permission of the area then. -/
theorem doPageFault_mapped (mapped : set.pageTable.isMapped (floor addr) = true)
    (handled : set.handler (floor addr) = some area)
    (done : set.doPageFault addr env = .ok (result, after, fill)) :
    if area.writableStripped = true then result = .error .noPermission
    else result = .error .notMapped /\ ¬ Backed area set.pageTable (floor addr) \/ ((∃ pa, result = .ok pa) /\
      (after.Writable (floor addr) ↔ area.mapPerm.w = true)) := by
  rcases bind_eq_some_iff.mp handled with ⟨_, chosen, found⟩
  simp only [doPageFault, chosen, found, faultIn, mapped, if_true] at done
  split
  · next stripped =>
    rw [if_pos stripped] at done
    cases done
    rfl
  · next kept =>
    rw [if_neg kept] at done
    cases copied : area.copyOnWrite set.pageTable (floor addr) env with
    | error panic => simp [copied] at done
    | ok outcome =>
      rcases outcome with ⟨_, _⟩
      simp only [copied] at done
      cases done
      rcases copyOnWrite_entry mapped copied with ⟨rfl, absent⟩ | ⟨_, rfl, _, entry, perm⟩
      · exact .inl ⟨rfl, absent⟩
      · exact .inr ⟨⟨_, rfl⟩, by simp [Writable, entry, perm]⟩

/-- A fault on a mapped page makes progress exactly if the area that handles it may be written
or has been stripped of `W`. -/
theorem store_fault_progresses_iff (mapped : set.pageTable.isMapped (floor addr) = true)
    (done : set.doPageFault addr env = .ok (result, after, fill)) :
    Progresses set (floor addr) result after ↔
      ∀ area, set.handler (floor addr) = some area -> area.mapPerm.w = true \/ area.writableStripped = true := by
  cases handled : set.handler (floor addr) with
  | none =>
    have refused : result = .error .badAddress := by
      cases chosen : faultArea set.areas (floor addr) with
      | none =>
        simp only [doPageFault, chosen] at done
        cases done
        rfl
      | some index =>
        rw [handler, chosen, bind_some] at handled
        simp [doPageFault, chosen, handled] at done
    simp [Progresses, handled, refused]
  | some area =>
    have outcome := doPageFault_mapped mapped handled done
    simp only [Progresses, handled, some.injEq, forall_eq']
    cases stripped : area.writableStripped with
    | true =>
      rw [stripped, if_pos rfl] at outcome
      simp [outcome]
    | false =>
      rw [stripped, if_neg Bool.false_ne_true] at outcome
      cases writable : area.mapPerm.w with
      | true =>
        rcases outcome with ⟨rfl, _⟩ | ⟨_, written⟩
        · simp
        · simp [written, writable]
      | false =>
        rcases outcome with ⟨rfl, _⟩ | ⟨⟨pa, rfl⟩, _⟩
        · simp
        · simp

theorem stack_store_progresses :
    ∃ set after, loadSmallProgram = .ok set /\
      set.doPageFault 0xbff00008 ⟨none, 1, 0, none⟩ = .ok (.ok 0xb008, after, .none) /\
      Progresses set (floor 0xbff00008) (.ok 0xb008) after := by
  have running : ∃ set after, loadSmallProgram = .ok set /\
      set.pageTable.isMapped (floor 0xbff00008) = true /\
      set.doPageFault 0xbff00008 ⟨none, 1, 0, none⟩ = .ok (.ok 0xb008, after, .none) /\
      (set.handler (floor 0xbff00008)).map (fun area => area.mapPerm.w) = some true :=
    ⟨_, _, rfl, rfl, rfl, rfl⟩
  rcases running with ⟨set, after, loaded, mapped, done, writable⟩
  refine ⟨set, after, loaded, done, (store_fault_progresses_iff mapped done).mpr ?_⟩
  intro area handled
  rw [handled] at writable
  exact .inl (some.inj writable)

/-- Without the condition: a store to the text of a program succeeds in the handler, and the
page is as read-only as before. -/
theorem text_store_faults_again :
    ¬ ∀ start set addr env result after fill, Fresh start -> Reached Step start set ->
      set.pageTable.isMapped (floor addr) = true -> set.doPageFault addr env = .ok (result, after, fill) ->
      Progresses set (floor addr) result after := by
  intro claim
  have failing : ∃ set after, loadSmallProgram = .ok set /\
      set.pageTable.isMapped (floor 0x10000) = true /\
      set.doPageFault 0x10000 ⟨none, 1, 0, none⟩ = .ok (.ok 0xa000, after, .none) /\
      (after.pageTable.findPte (floor 0x10000)).map (fun pte => pte.perm.w) = some false :=
    ⟨_, _, rfl, rfl, rfl, rfl⟩
  rcases failing with ⟨set, after, loaded, mapped, done, kept⟩
  have progress := claim set set _ _ _ _ _ ((Fresh.bare 1 2).of_foldlM loaded) .refl mapped done
  rcases progress.1 _ rfl with ⟨pte, entry, written⟩
  simp [entry, written] at kept

/-!
## After `mprotect`

The mark that `mprotect` leaves on an area without `W` is never taken back.  So the page can be
written again after a later request for `W` only if the mark was not set before, and a page of
an area that never had `W` is not refused at all.
-/

/-- What the handler reads of an area: whether a user may read it, its `W` bit, and the mark. -/
def access (area : MapArea) : Bool × Bool × Bool :=
  (area.mapPerm.r && area.mapPerm.u, area.mapPerm.w, area.writableStripped)

/-- The same after a request. -/
def accessAfter (prot : MapPermission) (given : Bool × Bool × Bool) : Bool × Bool × Bool :=
  (prot.r && prot.u, prot.w, given.2.2 || given.2.1 && !prot.w)

/-- The page lies in an anonymous area. -/
def Governed (set : MemorySet) (vpn : Nat) (given : Bool × Bool × Bool) : Prop :=
  ∃ area, area ∈ set.areas /\ area.Holds vpn /\ area.mapFile = none /\ access area = given

def Covers (addr len vpn : Nat) : Prop := len ≠ 0 /\ floor addr <= vpn /\ vpn < endPage addr len

/-- Requests to `mprotect` that leave the page out. -/
def Elsewhere (vpn : Nat) (_ : MemorySet) : Request -> Prop
  | .mprotect addr len _ => ¬ Covers addr len vpn
  | _ => False

variable {before middle : MemorySet} {prot : MapPermission} {index segStart segEnd : Nat}
  {given : Bool × Bool × Bool} {answer : Except Int Unit}

/-- The pieces that a round puts in the place of an anonymous area. -/
theorem access_of_tiles {piece : MapArea} {pieces : List MapArea} {exec : Bool}
    (tiles : Tiles area (fun part => protect part { prot with x := exec } (area.mapPerm.w && !prot.w)) segStart segEnd pieces)
    (anonymous : area.mapFile = none) (member : piece ∈ pieces) (holds : piece.Holds vpn) : piece.mapFile = none /\
      access piece = if segStart <= vpn /\ vpn < segEnd then accessAfter prot (access area) else access area := by
  rcases tiles.parts piece member with ⟨part, first, last, stretch, file, altered⟩
  rw [anonymous, isSome_none, isSome_eq_false_iff, isNone_iff_eq_none] at file
  rcases altered with ⟨rfl, outside⟩ | ⟨rfl, low, high⟩
  · have bounds := (stretch.holds_iff vpn).mp holds
    have apart := outside anonymous
    rw [if_neg (by omega), access, stretch.perm_eq, stretch.stripped_eq]
    exact ⟨file, rfl⟩
  · have bounds := (stretch.holds_iff vpn).mp holds
    rw [if_pos (by omega)]
    unfold access protect
    dsimp only
    rw [stretch.stripped_eq]
    exact ⟨file, rfl⟩

variable (governed : Governed set vpn given) (consistent : Consistent set)

include governed consistent

theorem Governed.mprotectSegment
    (found : set.areas[index]? = some area) (low : area.start <= segStart) (between : segStart < segEnd)
    (high : segEnd <= area.stop) : Governed (mprotectSegment set index area segStart segEnd prot) vpn
      (if segStart <= vpn /\ vpn < segEnd then accessAfter prot given else given) := by
  rcases governed with ⟨owner, present, held, anonymous, rfl⟩
  rcases mprotectSegment_tiles set index prot low between high with
    ⟨_, _, _, tiles, segment_eq⟩
  by_cases here : area.Holds vpn
  · have same := consistent.eq_of_holds present (mem_of_getElem? found) held here
    subst same
    rcases mem_flatMap.mp (tiles.pages_eq.symm ▸ mem_pages.mpr here) with ⟨piece, member, inside⟩
    have kept := access_of_tiles tiles anonymous member (mem_pages.mp inside)
    rw [segment_eq]
    exact ⟨piece, by simp [replaceAt, member], mem_pages.mp inside, kept⟩
  · have outside : ¬ (segStart <= vpn /\ vpn < segEnd) := fun bounds =>
      here ⟨low.trans bounds.1, bounds.2.trans_le high⟩
    have different : owner ≠ area := by
      rintro rfl
      exact here held
    have kept : owner ∈ set.areas.take index \/ owner ∈ set.areas.drop (index + 1) := by
      rw [areas_split found] at present
      simpa [different] using present
    rw [if_neg outside, segment_eq]
    refine ⟨owner, ?_, held, anonymous, rfl⟩
    rcases kept with front | back
    · simp [replaceAt, front]
    · simp [replaceAt, back]

/-- How far a call has come: the page is changed if it lies behind. -/
def Passed (addr len prot vpn : Nat) (given : Bool × Bool × Bool) (reached : Nat) (set : MemorySet) : Prop :=
  Consistent set /\ Governed set vpn (if floor addr <= vpn /\ vpn < reached then
    (MapPermission.fromProt prot).elim given (fun perm => accessAfter perm given) else given) /\ floor addr <= reached /\
      (floor addr < reached -> len ≠ 0 /\ reached <= endPage addr len)

theorem Governed.mprotect {len prot : Nat} (done : set.mprotect addr len prot = some (answer, after)) :
    Consistent after /\ (¬ Covers addr len vpn -> Governed after vpn given) /\
      (Covers addr len vpn -> answer = .ok () -> ∀ perm, fromProt prot = some perm ->
        Governed after vpn (accessAfter perm given)) := by
  have initial : Passed addr len prot vpn given (floor addr) set := by
    refine ⟨consistent, ?_, le_rfl, fun less => absurd less (lt_irrefl _)⟩
    rw [if_neg (by omega)]
    exact governed
  refine (mprotect_invariant done initial ?_).elim ?_
  · rintro perm accepted nonempty set index area segStart segEnd ⟨kept, moved, low, _⟩ found held between high within
    refine ⟨kept.mprotectSegment found held.1 between high, ?_, by omega, fun _ => ⟨nonempty, within⟩⟩
    have next := @Governed.mprotectSegment _ _ _ perm _ _ _ _ moved kept found held.1 between high
    rw [accepted] at next ⊢
    by_cases inside : segStart <= vpn /\ vpn < segEnd
    · rw [if_pos inside, if_neg (by omega)] at next
      rw [if_pos (by omega)]
      exact next
    · rw [if_neg inside] at next
      by_cases behind : floor addr <= vpn /\ vpn < segStart
      · rw [if_pos behind] at next
        rw [if_pos (by omega)]
        exact next
      · rw [if_neg behind] at next
        rw [if_neg (by omega)]
        exact next
  · rintro reached ⟨⟨kept, moved, _, bound⟩, last⟩
    refine ⟨kept, ?_, ?_⟩
    · intro apart
      rw [if_neg] at moved
      · exact moved
      · rintro ⟨above, below⟩
        rcases bound (above.trans_lt below) with ⟨nonempty, ends⟩
        exact apart ⟨nonempty, above, below.trans_le ends⟩
    · rintro ⟨nonempty, above, below⟩ fine perm accepted
      rw [if_pos ⟨above, below.trans_le (last fine nonempty)⟩, accepted] at moved
      exact moved

/-- The area of the page handles its faults, unless a user cannot read it. -/
theorem Governed.handler : if given.1 = true then ∃ area, area ∈ set.areas /\ area.Holds vpn /\
      area.mapFile = none /\ access area = given /\ set.handler vpn = some area
    else faultArea set.areas vpn = none := by
  rcases governed with ⟨owner, present, held, anonymous, rfl⟩
  cases chosen : faultArea set.areas vpn with
  | none =>
    have passed := findIdx?_eq_none_iff.mp chosen owner present
    simp only [held, decide_true, Bool.and_true] at passed
    rw [if_neg (by rw [access, passed]; exact Bool.false_ne_true)]
  | some index =>
    rcases findIdx?_eq_some_iff_getElem.mp chosen with ⟨inside, readable, _⟩
    simp only [Bool.and_eq_true, decide_eq_true_eq] at readable
    have same := consistent.eq_of_holds present (getElem_mem inside) held readable.2
    have handled : set.handler vpn = some owner := by
      rw [MemorySet.handler, chosen, bind_some, getElem?_eq_getElem inside, same]
    rw [<- same] at readable
    rw [if_pos (by simp [access, readable.1])]
    exact ⟨owner, present, held, anonymous, rfl, handled⟩

/-- The other requests leave the page as the last one to cover it left it. -/
theorem Governed.elsewhere
    (run : Reached (Guarded (Elsewhere vpn) Step) set after) : Consistent after /\ Governed after vpn given := by
  induction run with
  | refl => exact ⟨consistent, governed⟩
  | @next state next request _ taken ih =>
    cases request with
    | mprotect addr len prot =>
      rcases orFailed_eq_ok taken.2 with ⟨_, done⟩
      have kept := ih.2.mprotect ih.1 done
      exact ⟨kept.1, kept.2.1 taken.1⟩
    | _ => cases taken.1

omit governed consistent

/-- A fault on a page of an anonymous area succeeds if a frame is at hand where one is needed, unless
the page is mapped and its area was stripped of `W`.  Then it is refused, and only then. -/
theorem faultIn_anonymous_iff (sound : Sound table area) (held : area.Holds vpn) (anonymous : area.mapFile = none) :
    ((∃ ppn afterArea afterTable fill, faultIn area table vpn env = .ok (.ok ppn, afterArea, afterTable, fill)) ↔
      if table.isMapped vpn = true then area.writableStripped = false /\ (env.strongCount = 1 \/ env.frame.isSome = true)
      else env.frame.isSome = true) /\
    ((∃ afterArea afterTable fill, faultIn area table vpn env = .ok (.error .noPermission, afterArea, afterTable, fill)) ↔
      table.isMapped vpn = true /\ area.writableStripped = true) := by
  rcases held.exists_frame with ⟨frame, record⟩
  have agrees := sound.agrees vpn frame record
  have backed := Sound.backed sound held
  cases mapped : table.isMapped vpn with
  | true =>
    rcases (table.isMapped_iff vpn).mp mapped with ⟨pte, entry⟩
    cases stripped : area.writableStripped with
    | true => simp [faultIn, mapped, stripped]
    | false =>
      cases copied : area.copyOnWrite table vpn env with
      | error panic =>
        have empty := (copyOnWrite_error entry (backed pte entry) copied).2
        simp [faultIn, mapped, stripped, copied, empty]
      | ok outcome =>
        rcases outcome with ⟨result, afterArea, afterTable, fill⟩
        rcases copyOnWrite_entry mapped copied with ⟨_, absent⟩ | ⟨ppn, rfl, _⟩
        · exact absurd backed absent
        · have supplied : env.strongCount = 1 \/ env.frame.isSome = true := by
            cases copyOnWrite_resolved backed mapped copied with
            | placed record placed =>
              rw [backed pte entry] at record
              cases placed with
              | upgraded _ alone => exact .inl alone
              | copied _ _ given => exact .inr (by rw [given]; rfl)
              | zeroed | loaded | cached | unzipped | swappedIn => cases record
          simp [faultIn, mapped, stripped, copied, supplied]
  | false =>
    have unmapped := (table.isMapped_eq_false_iff vpn).mp mapped
    cases given : env.frame with
    | some ppn =>
      rcases faultIn_anonymous record agrees anonymous unmapped given with ⟨_, _, _, done⟩
      simp [done]
    | none =>
      have absent : frame.ppn? = none := by
        rw [<- agrees, PageTable.translate, unmapped]
        rfl
      cases frame with
      | inMemory ppn => cases absent
      | unallocated | compressed id | swappedOut id =>
        simp [faultIn, mapped, anonymous, faultAnonymous, record, given]

/-- The outcome of a store that the last request asked for. -/
def Obeys (perm : MapPermission) (vpn : Nat) (outcome : Except Panic (Except MemoryError Nat × MemorySet × Fill)) :
    Prop :=
  (perm.r = true -> perm.w = true -> ∃ pa after fill, outcome = .ok (.ok pa, after, fill) /\ after.Writable vpn) /\
    (perm.w = false -> ∃ after fill, outcome = .ok (.error .noPermission, after, fill))

/-- The area that handles a fault decides about its outcome. -/
theorem obeys_iff {perm : MapPermission} (handled : set.handler (floor addr) = some area)
    (sound : Sound set.pageTable area) (held : area.Holds (floor addr)) (anonymous : area.mapFile = none)
    (same : area.mapPerm.w = perm.w) :
    Obeys perm (floor addr) (set.doPageFault addr env) ↔
      (perm.r = true -> perm.w = true -> if set.pageTable.isMapped (floor addr) = true
        then area.writableStripped = false /\ (env.strongCount = 1 \/ env.frame.isSome = true)
        else env.frame.isSome = true) /\
      (perm.w = false -> set.pageTable.isMapped (floor addr) = true /\ area.writableStripped = true) := by
  rcases bind_eq_some_iff.mp handled with ⟨index, chosen, found⟩
  have outcomes := @faultIn_anonymous_iff _ _ _ env sound held anonymous
  rw [<- outcomes.1, <- outcomes.2, Obeys]
  simp only [doPageFault, chosen, found]
  cases done : faultIn area set.pageTable (floor addr) env with
  | error panic => simp
  | ok outcome =>
    rcases outcome with ⟨result, afterArea, afterTable, fill⟩
    cases result with
    | error error => simp [Except.map]
    | ok ppn =>
      rcases (faultIn_resolved held (Sound.backed sound held) done).refused_or_placed with
        ⟨_, _, _, _, refused⟩ | ⟨_, _, _, _, rfl⟩
      · cases refused
      · have written : perm.w = true -> Writable ⟨set.pageTable.set (floor addr) (some ⟨ppn, area.mapPerm⟩),
            set.areas.set index afterArea⟩ (floor addr) :=
          fun writable => ⟨_, PageTable.findPte_set_same _ _ _, same.trans writable⟩
        simp_all [Except.map]

end MemorySet

end GCore.Mm
