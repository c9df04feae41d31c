import Mathlib.Algebra.BigOperators.Group.Finset.Basic
import GCore.Library.Chain

namespace GCore.Fs

open Library List Option

/-!
# Cluster allocation in the file allocation table

The table threads the clusters of each file into a chain.  `alloc` chooses
clusters one by one, first from a small stack of clusters known to be vacant and
then by scanning the table from a hint, and links each chosen cluster behind the
previous one.  A chosen cluster keeps its free entry until the next one is
chosen, so the scan can meet it again.

This happens when the free clusters run out, and when the last cluster popped
from the stack comes before every other free cluster in the scanning order.  The
cluster is then returned twice and its entry refers to itself.  All runs in which
no allocation meets either case keep the chains disjoint, acyclic and terminated,
and every allocation in them returns fresh clusters linked in order.
-/

def fatEntryFree : Nat := 0
def badBlock : Nat := 0x0FFFFFF7
def fatEntryReservedToEnd : Nat := 0x0FFFFFF8
def eoc : Nat := 0x0FFFFFFF
def vacantClusCacheSize : Nat := 64

/-- The parameters that `Fat::new` copies from the boot sector.  The bounds are
those of the format: sectors hold whole entries, the reserved sectors are counted
in 16 bits, and every scanned cluster number lies below the marks. -/
structure FatLayout where
  startBlockId : Nat
  bytsPerSec : Nat
  totEnt : Nat
  start_lt : startBlockId < 2 ^ 16
  bytsPerSec_pos : 0 < bytsPerSec
  bytsPerSec_lt : bytsPerSec < 2 ^ 16
  bytsPerSec_dvd : 4 ∣ bytsPerSec
  totEnt_le : totEnt <= badBlock

/-- `Fat`.  The block cache is the 32-bit word at each sector and offset.  The
vacant clusters are a stack, since both ends used are the back of the queue: the
list starts with the back. -/
structure Fat where
  layout : FatLayout
  cache : Nat -> Nat -> Nat
  vacantClus : List Nat
  hint : Nat

namespace Fat

def new (layout : FatLayout) (cache : Nat -> Nat -> Nat) : Fat where
  layout := layout
  cache := cache
  vacantClus := []
  hint := 0

def thisFatSecNum (fat : Fat) (clusNum : Nat) : Nat :=
  (fat.layout.startBlockId + clusNum * 4 % 2 ^ 32 / fat.layout.bytsPerSec) % 2 ^ 32

def thisFatEntOffset (fat : Fat) (clusNum : Nat) : Nat :=
  clusNum * 4 % 2 ^ 32 % fat.layout.bytsPerSec

def getNextClusNum (fat : Fat) (clusNum : Nat) : Nat :=
  fat.cache (fat.thisFatSecNum clusNum) (fat.thisFatEntOffset clusNum) &&& eoc

/-- The values at which `get_all_clus_num` leaves its loop. -/
def Stops (value : Nat) : Prop :=
  value = badBlock \/ value = fatEntryFree \/ fatEntryReservedToEnd <= value

instance : DecidablePred Stops := fun _ => inferInstanceAs (Decidable (_ \/ _ \/ _))

/-- The loop has no bound in the source; without fuel the answer is `none`. -/
def getAllClusNum (fat : Fat) (fuel : Nat) (currentClusNum : Nat) : Option (List Nat) :=
  walk fat.getNextClusNum Stops fuel currentClusNum

def setNextClus (fat : Fat) (current : Option Nat) (next : Nat) : Fat :=
  match current with
  | none => fat
  | some current =>
    { fat with
      cache := fun sector offset =>
        if sector = fat.thisFatSecNum current /\ offset = fat.thisFatEntOffset current then next
        else fat.cache sector offset }

def getNextFreeClus (fat : Fat) (start : Nat) : Option Nat :=
  ((List.range' start (fat.layout.totEnt - start)).find?
      (fun clusId => fatEntryFree == fat.getNextClusNum clusId)).or
    ((List.range start).find? (fun clusId => fatEntryFree == fat.getNextClusNum clusId))

/-- The check of the previous cluster's entry is a `debug_assert` and not compiled. -/
def allocOne (fat : Fat) (last : Option Nat) : Option Nat × Fat :=
  match fat.vacantClus with
  | freeClusId :: vacant =>
    (some freeClusId, { fat with vacantClus := vacant }.setNextClus last freeClusId)
  | [] =>
    match fat.getNextFreeClus fat.hint with
    | none => (none, fat)
    | some freeClusId =>
      (some freeClusId,
        { fat with hint := (freeClusId + 1) % fat.layout.totEnt }.setNextClus last freeClusId)

/-- The `for` loop of `alloc`: the clusters pushed, and `last` when it is left. -/
def allocLoop : Nat -> Fat -> Option Nat -> List Nat × Option Nat × Fat
  | 0, fat, last => ([], last, fat)
  | count + 1, fat, last =>
    match fat.allocOne last with
    | (none, fat) => ([], none, fat)
    | (some clusId, fat) =>
      let (allocated, last, fat) := allocLoop count fat (some clusId)
      (clusId :: allocated, last, fat)

def alloc (fat : Fat) (allocNum : Nat) (last : Option Nat) : List Nat × Fat :=
  let (allocatedCluster, last, fat) := allocLoop allocNum fat last
  (allocatedCluster, fat.setNextClus last eoc)

def freeOne (fat : Fat) (clusterId : Nat) : Fat :=
  let fat := fat.setNextClus (some clusterId) fatEntryFree
  if fat.vacantClus.length < vacantClusCacheSize then
    { fat with vacantClus := clusterId :: fat.vacantClus }
  else fat

def free (fat : Fat) (clusterList : List Nat) (last : Option Nat) : Fat :=
  (clusterList.foldl freeOne fat).setNextClus last eoc

/-! ## Reading an entry after an update -/

/-- The mask keeps every value below the end mark. -/
theorem and_eoc {value : Nat} (small : value <= eoc) : value &&& eoc = value := by
  have mask := Nat.and_two_pow_sub_one_eq_mod value 28
  rw [Nat.mod_eq_of_lt (small.trans_lt (by decide))] at mask
  exact mask

/-- Clusters below the marks have entries of their own. -/
theorem address_injective (fat : Fat) {first second : Nat} (firstSmall : first < badBlock)
    (secondSmall : second < badBlock) (sector : fat.thisFatSecNum first = fat.thisFatSecNum second)
    (offset : fat.thisFatEntOffset first = fat.thisFatEntOffset second) : first = second := by
  have start_lt := fat.layout.start_lt
  have firstWord : first * 4 % 2 ^ 32 = first * 4 := Nat.mod_eq_of_lt (by simp only [badBlock] at *; omega)
  have secondWord : second * 4 % 2 ^ 32 = second * 4 := Nat.mod_eq_of_lt (by simp only [badBlock] at *; omega)
  have firstSector := Nat.div_le_self (first * 4) fat.layout.bytsPerSec
  have secondSector := Nat.div_le_self (second * 4) fat.layout.bytsPerSec
  rw [thisFatSecNum, thisFatSecNum, firstWord, secondWord,
    Nat.mod_eq_of_lt (by simp only [badBlock] at *; omega),
    Nat.mod_eq_of_lt (by simp only [badBlock] at *; omega)] at sector
  rw [thisFatEntOffset, thisFatEntOffset, firstWord, secondWord] at offset
  have quotient := Nat.add_left_cancel sector
  have same : first * 4 = second * 4 := by
    rw [<- Nat.div_add_mod (first * 4) fat.layout.bytsPerSec, quotient, offset, Nat.div_add_mod]
  omega

variable {clusNum next clusId count : Nat} {last : Option Nat} {fat after before : Fat}

theorem getNextClusNum_setNextClus (fat : Fat) {current : Nat} (small : current < badBlock)
    (readable : clusNum < badBlock) (word : next <= eoc) :
    (fat.setNextClus (some current) next).getNextClusNum clusNum =
      if clusNum = current then next else fat.getNextClusNum clusNum := by
  by_cases same : clusNum = current
  · subst same
    simp [getNextClusNum, setNextClus, thisFatSecNum, thisFatEntOffset, and_eoc word]
  · rw [if_neg same]
    have apart : ¬ (fat.thisFatSecNum clusNum = fat.thisFatSecNum current /\
        fat.thisFatEntOffset clusNum = fat.thisFatEntOffset current) :=
      fun equal => same (fat.address_injective readable small equal.1 equal.2)
    exact congrArg (fun word => word &&& eoc) (if_neg apart)

/-! ## The scan -/

/-- How far the scan goes from the hint before it meets a cluster. -/
def scanRank (fat : Fat) (clusNum : Nat) : Nat :=
  if fat.hint <= clusNum then clusNum - fat.hint else clusNum + fat.layout.totEnt - fat.hint

/-- The entry says that the cluster is free. -/
def Vacant (fat : Fat) (clusNum : Nat) : Prop :=
  fat.getNextClusNum clusNum = fatEntryFree

instance (fat : Fat) : DecidablePred fat.Vacant := fun _ => inferInstanceAs (Decidable (_ = _))

theorem getNextFreeClus_eq_none (fat : Fat) (ahead : fat.hint <= fat.layout.totEnt)
    (found : fat.getNextFreeClus fat.hint = none) (inside : clusNum < fat.layout.totEnt) :
    ¬ fat.Vacant clusNum := by
  rw [getNextFreeClus, or_eq_none_iff, find?_eq_none, find?_eq_none] at found
  intro vacant
  rcases lt_or_ge clusNum fat.hint with below | above
  · exact found.2 clusNum (mem_range.mpr below) (by simpa using Eq.symm vacant)
  · exact found.1 clusNum (mem_range'_1.mpr ⟨above, by omega⟩) (by simpa using Eq.symm vacant)

/-- The scan finds the free cluster that it meets first. -/
theorem getNextFreeClus_eq_some (fat : Fat) (ahead : fat.hint <= fat.layout.totEnt)
    (found : fat.getNextFreeClus fat.hint = some clusNum) :
    clusNum < fat.layout.totEnt /\ fat.Vacant clusNum /\
      ∀ other < fat.layout.totEnt, fat.Vacant other ->
        fat.scanRank clusNum <= fat.scanRank other := by
  rw [getNextFreeClus, or_eq_some_iff, find?_range'_eq_some, find?_range_eq_some, find?_eq_none] at found
  rcases found with ⟨here, member, earlier⟩ | ⟨nothing, here, member, earlier⟩
  · have range := mem_range'_1.mp member
    refine ⟨by omega, (beq_iff_eq.mp here).symm, ?_⟩
    intro other inside vacant
    unfold scanRank
    rw [if_pos range.1]
    split
    · next above =>
        rcases lt_or_ge other clusNum with below | atLeast
        · have missed := earlier other above below
          simp [<- Eq.symm vacant] at missed
        · omega
    · omega
  · have below := mem_range.mp member
    refine ⟨by omega, (beq_iff_eq.mp here).symm, ?_⟩
    intro other inside vacant
    unfold scanRank
    rw [if_neg (by omega)]
    split
    · next above =>
        exact False.elim (nothing other (mem_range'_1.mpr ⟨above, by omega⟩)
          (by simpa using Eq.symm vacant))
    · rcases lt_or_ge other clusNum with lower | atLeast
      · have missed := earlier other lower
        simp [<- Eq.symm vacant] at missed
      · omega

/-! ## One allocation -/

/-- A number that names a cluster of the data area: not the reserved zero, and
below the marks. -/
def Proper (clusNum : Nat) : Prop := fatEntryFree < clusNum /\ clusNum < badBlock

instance : DecidablePred Proper := fun _ => inferInstanceAs (Decidable (_ /\ _))

theorem Proper.le_eoc (proper : Proper clusNum) : clusNum <= eoc := le_of_lt (proper.2.trans (by decide))

/-- The allocator's own record: the stack lists free clusters, each once, the hint
is in range, and the reserved entry is not free. -/
structure Ready (fat : Fat) : Prop where
  nodup : fat.vacantClus.Nodup
  proper : ∀ clusNum ∈ fat.vacantClus, Proper clusNum
  vacant : ∀ clusNum ∈ fat.vacantClus, fat.Vacant clusNum
  hint_le : fat.hint <= fat.layout.totEnt
  reserved : ¬ fat.Vacant 0

/-- The cluster to attach to is proper and not on the stack. -/
def Attachable (fat : Fat) (last : Option Nat) : Prop :=
  ∀ clusNum ∈ last, Proper clusNum /\ clusNum ∉ fat.vacantClus

@[simp] theorem setNextClus_layout (fat : Fat) (current : Option Nat) (next : Nat) :
    (fat.setNextClus current next).layout = fat.layout := by
  cases current <;> rfl

@[simp] theorem setNextClus_vacantClus (fat : Fat) (current : Option Nat) (next : Nat) :
    (fat.setNextClus current next).vacantClus = fat.vacantClus := by
  cases current <;> rfl

@[simp] theorem setNextClus_hint (fat : Fat) (current : Option Nat) (next : Nat) :
    (fat.setNextClus current next).hint = fat.hint := by
  cases current <;> rfl

/-- Setting the successor of an optional cluster changes its entry and no other. -/
theorem getNextClusNum_setNextClus_option (fat : Fat)
    (proper : ∀ current ∈ last, current < badBlock) (readable : clusNum < badBlock) (word : next <= eoc) :
    (fat.setNextClus last next).getNextClusNum clusNum =
      if clusNum ∈ last then next else fat.getNextClusNum clusNum := by
  cases last with
  | none => simp [setNextClus]
  | some current =>
    rw [getNextClusNum_setNextClus fat (proper current rfl) readable word]
    simp [eq_comm]

variable (ready : fat.Ready) (attachable : fat.Attachable last)

include ready attachable

/-- Setting the successor of a cluster off the stack keeps the record. -/
theorem Ready.setNextClus (word : next <= eoc) : (fat.setNextClus last next).Ready := by
  have bound : ∀ current ∈ last, current < badBlock :=
    fun current member => (attachable current member).1.2
  refine ⟨by simpa using ready.nodup, by simpa using ready.proper, ?_, by simpa using ready.hint_le, ?_⟩
  · intro clusNum member
    rw [setNextClus_vacantClus] at member
    have apart : clusNum ∉ last := fun same => (attachable clusNum same).2 member
    rw [Vacant, getNextClusNum_setNextClus_option fat bound (ready.proper clusNum member).2 word, if_neg apart]
    exact ready.vacant clusNum member
  · have apart : 0 ∉ last := fun same => lt_irrefl 0 (attachable 0 same).1.1
    rw [Vacant, getNextClusNum_setNextClus_option fat bound (by decide) word, if_neg apart]
    exact ready.reserved

/-- What a successful `alloc_one` does. -/
structure Takes (before : Fat) (last : Option Nat) (clusId : Nat) (after : Fat) : Prop where
  proper : Proper clusId
  vacant : before.Vacant clusId
  ready : after.Ready
  layout : after.layout = before.layout
  stack : after.vacantClus = before.vacantClus.tail
  off_stack : clusId ∉ after.vacantClus
  entry : ∀ clusNum < badBlock,
    after.getNextClusNum clusNum = if clusNum ∈ last then clusId else before.getNextClusNum clusNum

theorem Ready.takes (taken : fat.allocOne last = (some clusId, after)) : Takes fat last clusId after := by
  have bound : ∀ current ∈ last, current < badBlock :=
    fun current member => (attachable current member).1.2
  cases stack : fat.vacantClus with
  | cons top vacant =>
    simp only [allocOne, stack, Prod.mk.injEq, some.injEq] at taken
    rcases taken with ⟨rfl, rfl⟩
    have nodup := ready.nodup
    rw [stack, nodup_cons] at nodup
    have onStack : top ∈ fat.vacantClus := by simp [stack]
    have proper := ready.proper top onStack
    have popped : Ready { fat with vacantClus := vacant } :=
      ⟨nodup.2, fun clusNum member => ready.proper clusNum (by simp [stack, member]),
        fun clusNum member => ready.vacant clusNum (by simp [stack, member]),
        ready.hint_le, ready.reserved⟩
    have free : Attachable { fat with vacantClus := vacant } last := by
      intro clusNum member
      refine ⟨(attachable clusNum member).1, ?_⟩
      intro inside
      exact (attachable clusNum member).2 (by rw [stack]; exact mem_cons_of_mem _ inside)
    refine ⟨proper, ready.vacant top onStack, popped.setNextClus free proper.le_eoc, by simp, by simp [stack],
      by simpa using nodup.1, ?_⟩
    intro clusNum readable
    exact getNextClusNum_setNextClus_option _ bound readable proper.le_eoc
  | nil =>
    cases found : fat.getNextFreeClus fat.hint with
    | none => simp [allocOne, stack, found] at taken
    | some free =>
      simp only [allocOne, stack, found, Prod.mk.injEq, some.injEq] at taken
      rcases taken with ⟨rfl, rfl⟩
      rcases fat.getNextFreeClus_eq_some ready.hint_le found with ⟨inside, vacant, _⟩
      have proper : Proper free := by
        refine ⟨Nat.pos_of_ne_zero ?_, inside.trans_le fat.layout.totEnt_le⟩
        rintro rfl
        exact ready.reserved vacant
      have moved : Ready { fat with vacantClus := [], hint := (free + 1) % fat.layout.totEnt } :=
        ⟨nodup_nil, nofun, nofun, le_of_lt (Nat.mod_lt _ (lt_of_le_of_lt (Nat.zero_le _) inside)), ready.reserved⟩
      have off : Attachable { fat with vacantClus := [], hint := (free + 1) % fat.layout.totEnt } last :=
        fun clusNum member => ⟨(attachable clusNum member).1, not_mem_nil⟩
      refine ⟨proper, vacant, moved.setNextClus off proper.le_eoc, by simp, by simp [stack], by simp, ?_⟩
      intro clusNum readable
      exact getNextClusNum_setNextClus_option _ bound readable proper.le_eoc

/-- The next `count` choices all succeed and none is the cluster just attached. -/
def Supplied : Nat -> Fat -> Option Nat -> Prop
  | 0, _, _ => True
  | count + 1, fat, last => ∃ clusId after,
    fat.allocOne last = (some clusId, after) /\ clusId ∉ last /\ Supplied count after (some clusId)

/-- What the loop of `alloc` does when it is supplied. -/
structure Appends (before : Fat) (last : Option Nat) (allocated : List Nat) (after : Fat) : Prop where
  proper : ∀ clusNum ∈ allocated, Proper clusNum
  vacant : ∀ clusNum ∈ allocated, before.Vacant clusNum
  apart : ∀ clusNum ∈ allocated, clusNum ∉ last
  nodup : allocated.Nodup
  linked : (last.toList ++ allocated).IsChain (fun node following => after.getNextClusNum node = following)
  unchanged : ∀ clusNum < badBlock, clusNum ∉ (last.toList ++ allocated).dropLast ->
    after.getNextClusNum clusNum = before.getNextClusNum clusNum
  ready : after.Ready
  attachable : after.Attachable (last.toList ++ allocated).getLast?

theorem Supplied.appends (supplied : Supplied count fat last) : ∃ allocated after,
      allocLoop count fat last = (allocated, (last.toList ++ allocated).getLast?, after) /\
        allocated.length = count /\ Appends fat last allocated after := by
  induction count generalizing fat last with
  | zero =>
    have same : (last.toList ++ []).getLast? = last := by cases last <;> rfl
    have single : (last.toList ++ []).IsChain
        (fun node following => fat.getNextClusNum node = following) := by cases last <;> simp
    refine ⟨[], fat, by rw [same]; rfl, rfl, nofun, nofun, nofun, nodup_nil, single,
      fun _ _ _ => rfl, ready, ?_⟩
    rw [same]
    exact attachable
  | succ count ih =>
    rcases supplied with ⟨clusId, middle, taken, different, supplied⟩
    have takes := ready.takes attachable taken
    have onward : middle.Attachable (some clusId) := by
      rintro clusNum ⟨⟩
      exact ⟨takes.proper, takes.off_stack⟩
    rcases ih takes.ready onward supplied with ⟨rest, after, loop_eq, length_eq, appends⟩
    -- The attached cluster was linked to a proper one, so it is not free any more.
    have settled : ∀ clusNum ∈ rest, clusNum ∉ last := by
      intro clusNum member attached
      have entry := takes.entry clusNum (appends.proper clusNum member).2
      rw [if_pos attached] at entry
      have free := appends.vacant clusNum member
      rw [Vacant, entry] at free
      exact ne_of_gt takes.proper.1 free
    have fresh : clusId ∉ rest := fun member => appends.apart clusId member rfl
    have joined : (last.toList ++ clusId :: rest).getLast? = (clusId :: rest).getLast? := by
      simp [getLast?_append, getLast?_cons]
    have dropped : (last.toList ++ clusId :: rest).dropLast = last.toList ++ (clusId :: rest).dropLast :=
      dropLast_append_of_ne_nil (cons_ne_nil _ _)
    refine ⟨clusId :: rest, after, ?_, by simp [length_eq], ?_, ?_, ?_, ?_, ?_, ?_, appends.ready, ?_⟩
    · rw [joined]
      simp only [allocLoop, taken, loop_eq]
      rfl
    · intro clusNum member
      rcases mem_cons.mp member with rfl | later
      · exact takes.proper
      · exact appends.proper clusNum later
    · intro clusNum member
      rcases mem_cons.mp member with rfl | later
      · exact takes.vacant
      · have free := appends.vacant clusNum later
        rwa [Vacant, takes.entry clusNum (appends.proper clusNum later).2, if_neg (settled clusNum later)] at free
    · intro clusNum member
      rcases mem_cons.mp member with rfl | later
      · exact different
      · exact settled clusNum later
    · exact nodup_cons.mpr ⟨fresh, appends.nodup⟩
    · cases last with
      | none => exact appends.linked
      | some previous =>
        refine isChain_cons_cons.mpr ⟨?_, appends.linked⟩
        have bound := (attachable previous rfl).1.2
        have outside : previous ∉ ((some clusId).toList ++ rest).dropLast := by
          intro member
          rcases mem_cons.mp (dropLast_subset _ member) with same | later
          · exact different (same ▸ rfl)
          · exact settled previous later rfl
        rw [appends.unchanged previous bound outside, takes.entry previous bound, if_pos (mem_some_self previous)]
    · intro clusNum readable outside
      rw [dropped, mem_append, not_or, mem_toList] at outside
      have off : clusNum ∉ last := outside.1
      rw [appends.unchanged clusNum readable outside.2, takes.entry clusNum readable, if_neg off]
    · rw [joined]
      exact appends.attachable

/-! ## When the loop is supplied -/

/-- The free clusters in scanning range that are neither on the stack nor attached. -/
def candidates (fat : Fat) (last : Option Nat) : List Nat :=
  (List.range fat.layout.totEnt).filter
    (fun clusNum => decide (fat.Vacant clusNum /\ clusNum ∉ fat.vacantClus /\ clusNum ∉ last))

omit ready attachable

theorem mem_candidates :
    clusNum ∈ fat.candidates last ↔ clusNum < fat.layout.totEnt /\ fat.Vacant clusNum /\
      clusNum ∉ fat.vacantClus /\ clusNum ∉ last := by
  rw [candidates, mem_filter, mem_range, decide_eq_true_eq]

variable (takes : Takes before last clusId after)

include takes

/-- An entry that was not attached is free after a choice exactly if it was before;
the attached one is not free any more. -/
theorem Takes.vacant_iff (readable : clusNum < badBlock) :
    after.Vacant clusNum ↔ before.Vacant clusNum /\ clusNum ∉ last := by
  rw [Vacant, Vacant, takes.entry clusNum readable]
  by_cases attached : clusNum ∈ last
  · rw [if_pos attached]
    exact iff_of_false (ne_of_gt takes.proper.1) (fun both => both.2 attached)
  · rw [if_neg attached, and_iff_left attached]

/-- Popping the stack leaves the candidates as they are. -/
theorem Takes.candidates_of_pop {rest : List Nat} (stack : before.vacantClus = clusId :: rest) :
    after.candidates (some clusId) = before.candidates last := by
  unfold candidates
  rw [takes.layout]
  refine filter_congr ?_
  intro clusNum member
  have readable := lt_of_lt_of_le (mem_range.mp member) before.layout.totEnt_le
  rw [decide_eq_decide, takes.vacant_iff readable, takes.stack, stack, tail_cons, mem_cons, mem_some]
  constructor
  · rintro ⟨⟨vacant, off⟩, outside, different⟩
    exact ⟨vacant, fun inside => inside.elim (fun same => different same.symm) outside, off⟩
  · rintro ⟨vacant, outside, off⟩
    exact ⟨⟨vacant, off⟩, fun inside => outside (.inr inside), fun same => outside (.inl same.symm)⟩

/-- A scan uses up one candidate. -/
theorem Takes.candidates_of_scan (stack : before.vacantClus = []) :
    (before.candidates last).length <= (after.candidates (some clusId)).length + 1 := by
  have nodup : (before.candidates last).Nodup := nodup_range.filter _
  have subset : before.candidates last ⊆ clusId :: after.candidates (some clusId) := by
    intro clusNum member
    rcases mem_candidates.mp member with ⟨inside, vacant, _, off⟩
    by_cases same : clusNum = clusId
    · exact same ▸ mem_cons_self
    · have readable := inside.trans_le before.layout.totEnt_le
      refine mem_cons_of_mem _ (mem_candidates.mpr ⟨takes.layout ▸ inside, ?_, ?_, ?_⟩)
      · exact (takes.vacant_iff readable).mpr ⟨vacant, off⟩
      · rw [takes.stack, stack]
        exact not_mem_nil
      · intro attached
        exact same (mem_some.mp attached).symm
  exact (subperm_of_subset nodup subset).length_le

omit takes

@[simp] theorem scanRank_setNextClus (fat : Fat) (current : Option Nat) (next clusNum : Nat) :
    (fat.setNextClus current next).scanRank clusNum = fat.scanRank clusNum := by
  cases current <;> rfl

/-- With the hint just behind a cluster, every other cluster is met before it. -/
theorem scanRank_lt_of_hint (inside : clusId < fat.layout.totEnt)
    (other : clusNum < fat.layout.totEnt) (different : clusNum ≠ clusId)
    (hint_eq : fat.hint = (clusId + 1) % fat.layout.totEnt) : fat.scanRank clusNum < fat.scanRank clusId := by
  unfold scanRank
  rcases lt_or_ge (clusId + 1) fat.layout.totEnt with room | final
  · rw [Nat.mod_eq_of_lt room] at hint_eq
    split <;> split <;> omega
  · have wrapped : fat.hint = 0 := by
      rw [hint_eq, show clusId + 1 = fat.layout.totEnt from le_antisymm inside final, Nat.mod_self]
    split <;> split <;> omega

/-- The attached cluster, if the scan can take it for free, is not the first one met. -/
def Shadowed (fat : Fat) (last : Option Nat) : Prop :=
  ∀ clusNum ∈ last, clusNum < fat.layout.totEnt -> fat.Vacant clusNum ->
    ∃ other, other ∈ fat.candidates last /\ fat.scanRank other < fat.scanRank clusNum

include ready attachable

theorem supplied_of_scan (stack : fat.vacantClus = [])
    (enough : count <= (fat.candidates last).length) (shadowed : 0 < count -> fat.Shadowed last) :
    Supplied count fat last := by
  induction count generalizing fat last with
  | zero => trivial
  | succ count ih =>
    have some_free : ∃ clusNum, clusNum ∈ fat.candidates last :=
      exists_mem_of_length_pos (lt_of_lt_of_le (Nat.succ_pos count) enough)
    rcases some_free with ⟨_, member⟩
    rcases mem_candidates.mp member with ⟨free_lt, free_vacant, _⟩
    cases found : fat.getNextFreeClus fat.hint with
    | none => cases fat.getNextFreeClus_eq_none ready.hint_le found free_lt free_vacant
    | some clusId =>
      rcases fat.getNextFreeClus_eq_some ready.hint_le found with ⟨inside, vacant, first⟩
      have taken : fat.allocOne last = (some clusId,
          { fat with hint := (clusId + 1) % fat.layout.totEnt }.setNextClus last clusId) := by
        simp only [allocOne, stack, found]
      have takes := ready.takes attachable taken
      have different : clusId ∉ last := by
        intro attached
        rcases shadowed (Nat.succ_pos count) clusId attached inside vacant with ⟨other, candidate, sooner⟩
        rcases mem_candidates.mp candidate with ⟨other_lt, other_vacant, _⟩
        exact not_lt.mpr (first other other_lt other_vacant) sooner
      refine ⟨clusId, _, taken, different, ih takes.ready ?_ ?_ ?_ ?_⟩
      · rintro clusNum ⟨⟩
        exact ⟨takes.proper, takes.off_stack⟩
      · rw [takes.stack, stack, tail_nil]
      · have used := takes.candidates_of_scan stack
        omega
      · rintro remaining clusNum ⟨⟩ _ _
        have used := takes.candidates_of_scan stack
        have some_left : 0 < (candidates _ (some clusId)).length :=
          remaining.trans_le (Nat.le_of_succ_le_succ (enough.trans used))
        rcases exists_mem_of_length_pos some_left with ⟨other, candidate⟩
        refine ⟨other, candidate, ?_⟩
        rcases mem_candidates.mp candidate with ⟨other_lt, _, _, off⟩
        exact scanRank_lt_of_hint (by simpa using inside) other_lt
          (fun same => off (same ▸ mem_some_self _)) (by simp)

/-- The cluster at the front of the queue, popped last, is met by the scan only
behind some candidate. -/
def FrontShadowed (fat : Fat) (last : Option Nat) : Prop :=
  ∀ front ∈ fat.vacantClus.getLast?, front < fat.layout.totEnt ->
    ∃ other, other ∈ fat.candidates last /\ fat.scanRank other < fat.scanRank front

theorem supplied_of_stack {stack : List Nat} (stack_eq : fat.vacantClus = stack)
    (enough : count <= stack.length \/
      count <= stack.length + (fat.candidates last).length /\ fat.FrontShadowed last /\
        (stack = [] -> fat.Shadowed last)) :
    Supplied count fat last := by
  induction stack generalizing count fat last with
  | nil =>
    rcases enough with none_wanted | ⟨covered, _, shadowed⟩
    · rw [Nat.le_zero.mp none_wanted]
      trivial
    · exact supplied_of_scan ready attachable stack_eq (by simpa using covered) (fun _ => shadowed rfl)
  | cons top rest ih =>
    cases count with
    | zero => trivial
    | succ count =>
      have taken : fat.allocOne last =
          (some top, { fat with vacantClus := rest }.setNextClus last top) := by
        simp only [allocOne, stack_eq]
      have takes := ready.takes attachable taken
      have different : top ∉ last := by
        intro attached
        exact (attachable top attached).2 (by rw [stack_eq]; exact mem_cons_self)
      have same := takes.candidates_of_pop stack_eq
      have onward : Attachable ({ fat with vacantClus := rest }.setNextClus last top) (some top) := by
        rintro clusNum ⟨⟩
        exact ⟨takes.proper, takes.off_stack⟩
      refine ⟨top, _, taken, different, ih takes.ready onward (by rw [takes.stack, stack_eq, tail_cons]) ?_⟩
      rcases enough with listed | ⟨covered, front, _⟩
      · exact .inl (by simpa using listed)
      · refine .inr ⟨?_, ?_, ?_⟩
        · rw [same]
          simp only [length_cons] at covered
          omega
        · intro clusNum final inside
          rw [same]
          simp only [scanRank_setNextClus]
          refine front clusNum ?_ (by simpa using inside)
          rw [takes.stack, stack_eq] at final
          rw [stack_eq]
          cases rest with
          | nil => cases final
          | cons second rest => exact final
        · rintro rfl clusNum ⟨⟩ inside _
          rw [same]
          simp only [scanRank_setNextClus]
          exact front top (by simp [stack_eq]) (by simpa using inside)

/-! ## A whole allocation -/

/-- The marks from the reserved range on end a chain. -/
def EndMark (value : Nat) : Prop := fatEntryReservedToEnd <= value

instance : DecidablePred EndMark := fun _ => inferInstanceAs (Decidable (_ <= _))

/-- What an allocation has to do: it returns distinct clusters that were free,
links them in order behind the attached one, ends the chain, and leaves every
other entry as it was. -/
structure Allocates (before : Fat) (last : Option Nat) (allocated : List Nat) (after : Fat) : Prop where
  proper : ∀ clusNum ∈ allocated, Proper clusNum
  vacant : ∀ clusNum ∈ allocated, before.Vacant clusNum
  nodup : allocated.Nodup
  linked : (last.toList ++ allocated).IsChain (fun node following => after.getNextClusNum node = following)
  ended : ∀ clusNum ∈ (last.toList ++ allocated).getLast?,
    EndMark (after.getNextClusNum clusNum)
  unchanged : ∀ clusNum < badBlock, clusNum ∉ last.toList ++ allocated ->
    after.getNextClusNum clusNum = before.getNextClusNum clusNum

/-- Nothing is on the stack and nothing in scanning range is free. -/
def Exhausted (fat : Fat) : Prop :=
  fat.vacantClus = [] /\ ∀ clusNum < fat.layout.totEnt, ¬ fat.Vacant clusNum

theorem Supplied.allocates (supplied : Supplied count fat last) :
    (fat.alloc count last).1.length = count /\ (fat.alloc count last).2.Ready /\
      Allocates fat last (fat.alloc count last).1 (fat.alloc count last).2 := by
  rcases supplied.appends ready attachable with ⟨allocated, after, loop_eq, length_eq, appends⟩
  have alloc_eq : fat.alloc count last =
      (allocated, after.setNextClus (last.toList ++ allocated).getLast? eoc) := by
    simp only [alloc, loop_eq]
  have bound : ∀ current ∈ (last.toList ++ allocated).getLast?, current < badBlock :=
    fun current final => (appends.attachable current final).1.2
  have nodup : (last.toList ++ allocated).Nodup := by
    refine Nodup.append (by cases last <;> simp) appends.nodup ?_
    intro clusNum attached member
    exact appends.apart clusNum member (mem_toList.mp attached)
  have proper : ∀ clusNum ∈ last.toList ++ allocated, clusNum < badBlock := by
    intro clusNum member
    rcases mem_append.mp member with attached | new
    · exact (attachable clusNum (mem_toList.mp attached)).1.2
    · exact (appends.proper clusNum new).2
  rw [alloc_eq]
  refine ⟨length_eq, appends.ready.setNextClus appends.attachable (Nat.le_refl eoc), appends.proper,
    appends.vacant, appends.nodup, ?_, ?_, ?_⟩
  · refine linked_congr appends.linked ?_
    intro node member
    have different : node ∉ (last.toList ++ allocated).getLast? :=
      fun final => ne_getLast_of_mem_dropLast nodup member final rfl
    rw [getNextClusNum_setNextClus_option after bound (proper node (dropLast_subset _ member))
      (Nat.le_refl eoc), if_neg different]
  · intro clusNum final
    rw [getNextClusNum_setNextClus_option after bound (bound clusNum final) (Nat.le_refl eoc), if_pos final]
    decide
  · intro clusNum readable outside
    have different : clusNum ∉ (last.toList ++ allocated).getLast? :=
      fun final => outside (mem_of_getLast? final)
    rw [getNextClusNum_setNextClus_option after bound readable (Nat.le_refl eoc), if_neg different]
    exact appends.unchanged clusNum readable (fun member => outside (dropLast_subset _ member))

omit ready attachable

/-- With nothing free the loop gives up at once and the table stays as it is. -/
theorem Exhausted.alloc_eq (exhausted : fat.Exhausted) (ready : fat.Ready) (count : Nat)
    (last : Option Nat) : fat.alloc (count + 1) last = ([], fat) := by
  have nothing : fat.getNextFreeClus fat.hint = none := by
    cases found : fat.getNextFreeClus fat.hint with
    | none => rfl
    | some clusNum =>
      rcases fat.getNextFreeClus_eq_some ready.hint_le found with ⟨inside, vacant, _⟩
      cases exhausted.2 clusNum inside vacant
  simp only [alloc, allocLoop, allocOne, exhausted.1, nothing]
  rfl

/-- The allocations that never meet a cluster they have just chosen: the stack
covers them, or nothing is free at all, or there are enough free clusters and the
front of the queue is shadowed. -/
def AdmitsAlloc (fat : Fat) (count : Nat) : Prop :=
  count <= fat.vacantClus.length \/ fat.Exhausted \/
    count <= fat.vacantClus.length + (fat.candidates none).length /\ fat.FrontShadowed none

/-- An attached cluster in use changes nothing about the candidates. -/
theorem candidates_of_used (used : ∀ clusNum ∈ last, ¬ fat.Vacant clusNum) :
    fat.candidates last = fat.candidates none := by
  refine filter_congr ?_
  intro clusNum _
  rw [decide_eq_decide]
  constructor
  · rintro ⟨vacant, outside, _⟩
    exact ⟨vacant, outside, nofun⟩
  · rintro ⟨vacant, outside, _⟩
    exact ⟨vacant, outside, fun attached => used clusNum attached vacant⟩

theorem AdmitsAlloc.allocates (admitted : fat.AdmitsAlloc count) (ready : fat.Ready) (proper : ∀ clusNum ∈ last, Proper clusNum)
    (marked : ∀ clusNum ∈ last, EndMark (fat.getNextClusNum clusNum)) :
    ((fat.alloc count last).1.length = count \/ fat.Exhausted /\ (fat.alloc count last).1 = []) /\
      (fat.alloc count last).2.Ready /\
      Allocates fat last (fat.alloc count last).1 (fat.alloc count last).2 := by
  have used : ∀ clusNum ∈ last, ¬ fat.Vacant clusNum := by
    intro clusNum attached vacant
    have mark := marked clusNum attached
    rw [vacant] at mark
    exact absurd mark (by decide)
  have attachable : fat.Attachable last := by
    intro clusNum attached
    exact ⟨proper clusNum attached, fun listed => used clusNum attached (ready.vacant clusNum listed)⟩
  have supplied_suffices : Supplied count fat last ->
      ((fat.alloc count last).1.length = count \/ fat.Exhausted /\ (fat.alloc count last).1 = []) /\
        (fat.alloc count last).2.Ready /\
        Allocates fat last (fat.alloc count last).1 (fat.alloc count last).2 := by
    intro supplied
    rcases supplied.allocates ready attachable with ⟨length_eq, kept, allocates⟩
    exact ⟨.inl length_eq, kept, allocates⟩
  rcases admitted with listed | exhausted | ⟨covered, front⟩
  · exact supplied_suffices (supplied_of_stack ready attachable rfl (.inl listed))
  · cases count with
    | zero => exact supplied_suffices trivial
    | succ count =>
      have single : (last.toList ++ []).IsChain
          (fun node following => fat.getNextClusNum node = following) := by cases last <;> simp
      rw [exhausted.alloc_eq ready]
      refine ⟨.inr ⟨exhausted, rfl⟩, ready, nofun, nofun, nodup_nil, single, ?_, fun _ _ _ => rfl⟩
      intro clusNum final
      refine marked clusNum ?_
      cases last with
      | none => cases final
      | some previous => exact final
  · have same := candidates_of_used used
    refine supplied_suffices (supplied_of_stack ready attachable rfl (.inr ⟨by rw [same]; exact covered, ?_, ?_⟩))
    · intro clusNum final inside
      rw [same]
      exact front clusNum final inside
    · intro _ clusNum attached _ vacant
      cases used clusNum attached vacant

/-! ## Freeing -/

include ready

theorem Ready.freeOne {clusterId : Nat} (proper : Proper clusterId) (off : clusterId ∉ fat.vacantClus) :
    (fat.freeOne clusterId).Ready /\
      (∀ clusNum ∈ (fat.freeOne clusterId).vacantClus, clusNum = clusterId \/ clusNum ∈ fat.vacantClus) /\
      ∀ clusNum < badBlock, (fat.freeOne clusterId).getNextClusNum clusNum =
        if clusNum = clusterId then fatEntryFree else fat.getNextClusNum clusNum := by
  have attachable : fat.Attachable (some clusterId) := by
    rintro clusNum ⟨⟩
    exact ⟨proper, off⟩
  have kept : (fat.setNextClus (some clusterId) fatEntryFree).Ready :=
    ready.setNextClus attachable (by decide)
  have entry : ∀ clusNum < badBlock,
      (fat.setNextClus (some clusterId) fatEntryFree).getNextClusNum clusNum =
        if clusNum = clusterId then fatEntryFree else fat.getNextClusNum clusNum :=
    fun clusNum readable => getNextClusNum_setNextClus fat proper.2 readable (by decide)
  unfold Fat.freeOne
  simp only [setNextClus_vacantClus]
  split
  · refine ⟨⟨nodup_cons.mpr ⟨off, ready.nodup⟩, ?_, ?_, kept.hint_le, kept.reserved⟩, ?_, entry⟩
    · intro clusNum member
      rcases mem_cons.mp member with rfl | old
      · exact proper
      · exact ready.proper clusNum old
    · intro clusNum member
      rcases mem_cons.mp member with rfl | old
      · exact (entry _ proper.2).trans (if_pos rfl)
      · exact kept.vacant clusNum (by simpa using old)
    · intro clusNum member
      exact mem_cons.mp member
  · exact ⟨kept, fun clusNum member => .inr (by simpa using member), entry⟩

theorem Ready.foldl_freeOne {clusterList : List Nat}
    (nodup : clusterList.Nodup) (proper : ∀ clusNum ∈ clusterList, Proper clusNum)
    (off : ∀ clusNum ∈ clusterList, clusNum ∉ fat.vacantClus) :
    (clusterList.foldl Fat.freeOne fat).Ready /\
      (∀ clusNum ∈ (clusterList.foldl Fat.freeOne fat).vacantClus,
        clusNum ∈ clusterList \/ clusNum ∈ fat.vacantClus) /\
      ∀ clusNum < badBlock, (clusterList.foldl Fat.freeOne fat).getNextClusNum clusNum =
        if clusNum ∈ clusterList then fatEntryFree else fat.getNextClusNum clusNum := by
  induction clusterList generalizing fat with
  | nil => exact ⟨ready, fun _ member => .inr member, fun _ _ => by simp⟩
  | cons clusterId rest ih =>
    rw [nodup_cons] at nodup
    rcases ready.freeOne (proper clusterId mem_cons_self) (off clusterId mem_cons_self) with
      ⟨kept, listed, entry⟩
    have still_off : ∀ clusNum ∈ rest, clusNum ∉ (fat.freeOne clusterId).vacantClus := by
      intro clusNum member inside
      rcases listed clusNum inside with rfl | old
      · exact nodup.1 member
      · exact off clusNum (mem_cons_of_mem _ member) old
    rcases ih kept nodup.2 (fun clusNum member => proper clusNum (mem_cons_of_mem _ member)) still_off with
      ⟨ready_after, listed_after, entry_after⟩
    rw [foldl_cons]
    refine ⟨ready_after, ?_, ?_⟩
    · intro clusNum member
      rcases listed_after clusNum member with later | before
      · exact .inl (mem_cons_of_mem _ later)
      · rcases listed clusNum before with rfl | old
        · exact .inl mem_cons_self
        · exact .inr old
    · intro clusNum readable
      rw [entry_after clusNum readable, entry clusNum readable]
      by_cases later : clusNum ∈ rest
      · rw [if_pos later, if_pos (mem_cons_of_mem _ later)]
      · by_cases same : clusNum = clusterId
        · simp [same]
        · simp [later, same]

end Fat

end GCore.Fs
