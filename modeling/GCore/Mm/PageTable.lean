import Mathlib.Algebra.Order.Ring.Nat

namespace GCore.Mm

/-!
# Addresses, permissions and the page table

Addresses and page numbers are natural numbers, and the places where the source
computes in 64 bits reduce modulo `2 ^ 64`.  The page table is the partial map that
the three levels of an Sv39 table denote: the walk reads nine bits of the page
number at each level, so only its low 27 bits select an entry and page numbers that
agree on them share one.  The frames of the intermediate levels are left out.
-/

def pageSize : Nat := 4096

/-- The number of values of `usize`. -/
def usizeRange : Nat := 18446744073709551616

/-- `VirtAddr::floor` -/
def floor (va : Nat) : Nat := va / pageSize

/-- `VirtAddr::ceil`: subtracting one and adding a page wrap around together. -/
def ceil (va : Nat) : Nat := (va + 4095) % usizeRange / pageSize

def pageOffset (va : Nat) : Nat := va % pageSize

/-- The address of a page, `VirtAddr::from(VirtPageNum)`. -/
def startAddr (vpn : Nat) : Nat := vpn * pageSize % usizeRange

/-- The part of a page number that `VirtPageNum::indexes` looks at. -/
def slot (vpn : Nat) : Nat := vpn % 2 ^ 27

/-- The bits `R`, `W`, `X` and `U`, of a map area and of a page table entry alike. -/
structure MapPermission where
  r : Bool
  w : Bool
  x : Bool
  u : Bool
  deriving DecidableEq, Repr

namespace MapPermission

def contains (perm other : MapPermission) : Bool :=
  (!other.r || perm.r) && (!other.w || perm.w) && (!other.x || perm.x) && (!other.u || perm.u)

/-- `difference(MapPermission::W)` -/
def withoutW (perm : MapPermission) : MapPermission := { perm with w := false }

/-- `perm | (other & MapPermission::X)` -/
def orX (perm other : MapPermission) : MapPermission := { perm with x := perm.x || other.x }

/-- `MapPermission::from_bits(((prot as u8) << 1) | (1 << 4))`, which fails on the
three bits above the user bit; the bit shifted out of the byte is lost. -/
def fromProt (prot : Nat) : Option MapPermission :=
  if prot.testBit 4 || prot.testBit 5 || prot.testBit 6 then none
  else some ⟨prot.testBit 0, prot.testBit 1, prot.testBit 2, true⟩

theorem fromProt_u {prot : Nat} {perm : MapPermission} (accepted : fromProt prot = some perm) :
    perm.u = true := by
  unfold fromProt at accepted
  split at accepted
  · cases accepted
  · cases accepted
    rfl

end MapPermission

/-- A valid entry.  The accessed and dirty bits are never read by the modelled code. -/
structure Pte where
  ppn : Nat
  perm : MapPermission
  deriving DecidableEq, Repr

/-- The valid entries, by the selecting part of the page number. -/
structure PageTable where
  entries : Nat -> Option Pte

namespace PageTable

def new : PageTable := ⟨fun _ => none⟩

section Operations

variable (table : PageTable) (vpn : Nat)

def findPte : Option Pte := table.entries (slot vpn)

def isMapped : Bool := (table.findPte vpn).isSome

/-- Replace the entry of a page. -/
def set (entry : Option Pte) : PageTable :=
  ⟨fun index => if index = slot vpn then entry else table.entries index⟩

/-- Mapping a mapped page fails an assertion. -/
def map (vpn ppn : Nat) (flags : MapPermission) : Option PageTable :=
  if table.isMapped vpn then none else some (table.set vpn (some ⟨ppn, flags⟩))

def unmap : PageTable := table.set vpn none

def translate : Option Nat := (table.findPte vpn).map Pte.ppn

def translateVa (va : Nat) : Option Nat :=
  (table.findPte (floor va)).map (fun pte => pte.ppn * pageSize + pageOffset va)

/-- Revoke the write permission and return the frame, if the page is mapped. -/
def blockAndRetMut : Option Nat × PageTable :=
  match table.findPte vpn with
  | some pte => (some pte.ppn, table.set vpn (some { pte with perm := pte.perm.withoutW }))
  | none => (none, table)

/-- An unmapped page is reported as an error and left alone. -/
def setPteFlags (flags : MapPermission) : Option PageTable :=
  match table.findPte vpn with
  | some pte => some (table.set vpn (some { pte with perm := flags }))
  | none => none

def getPteFlags : Option MapPermission :=
  (table.findPte vpn).map Pte.perm

end Operations

@[simp] theorem findPte_set_same (table : PageTable) (vpn : Nat) (entry : Option Pte) :
    (table.set vpn entry).findPte vpn = entry :=
  if_pos rfl

variable {table : PageTable}

theorem findPte_set_of_slot {vpn other : Nat} (same : slot other = slot vpn)
    (entry : Option Pte) : (table.set vpn entry).findPte other = entry :=
  if_pos same

theorem findPte_set_of_ne {vpn other : Nat} (apart : slot other ≠ slot vpn)
    (entry : Option Pte) : (table.set vpn entry).findPte other = table.findPte other :=
  if_neg apart

/-- A list of unmapped pages with entries of their own: the first one can be mapped, and the
others are such a list then. -/
theorem unmapped_cons_iff {first : Nat} {rest : List Nat} (pte : Pte) (free : table.findPte first = none) :
    ((rest.map slot).Nodup /\ ∀ vpn ∈ rest, (table.set first (some pte)).findPte vpn = none) ↔
      ((first :: rest).map slot).Nodup /\ ∀ vpn, vpn ∈ first :: rest -> table.findPte vpn = none := by
  have one : ∀ vpn, (table.set first (some pte)).findPte vpn = none ↔
      slot vpn ≠ slot first /\ table.findPte vpn = none := by
    intro vpn
    by_cases same : slot vpn = slot first
    · simp [findPte_set_of_slot same, same]
    · simp [findPte_set_of_ne same, same]
  grind

theorem findPte_of_slot (table : PageTable) {vpn other : Nat} (same : slot other = slot vpn) :
    table.findPte other = table.findPte vpn :=
  congrArg table.entries same

theorem isMapped_iff (table : PageTable) (vpn : Nat) :
    table.isMapped vpn = true ↔ ∃ pte, table.findPte vpn = some pte :=
  Option.isSome_iff_exists

theorem isMapped_eq_false_iff (table : PageTable) (vpn : Nat) :
    table.isMapped vpn = false ↔ table.findPte vpn = none := by
  unfold isMapped
  cases table.findPte vpn <;> simp

theorem map_eq_some_iff {after : PageTable} {vpn ppn : Nat} {flags : MapPermission} :
    table.map vpn ppn flags = some after ↔
      table.findPte vpn = none /\ after = table.set vpn (some ⟨ppn, flags⟩) := by
  unfold map
  cases mapped : table.isMapped vpn with
  | true =>
    rcases (table.isMapped_iff vpn).mp mapped with ⟨_, entry⟩
    simp [entry]
  | false => simp [(table.isMapped_eq_false_iff vpn).mp mapped, eq_comm]

/-- Entries of other pages survive every change of one page. -/
theorem findPte_blockAndRetMut (table : PageTable) (vpn other : Nat) :
    (table.blockAndRetMut vpn).2.findPte other =
      if slot other = slot vpn then
        (table.findPte other).map (fun pte => { pte with perm := pte.perm.withoutW })
      else table.findPte other := by
  unfold blockAndRetMut
  by_cases same : slot other = slot vpn
  · rw [if_pos same, table.findPte_of_slot same]
    cases entry : table.findPte vpn with
    | none => simpa [table.findPte_of_slot same] using entry
    | some pte => simpa using findPte_set_of_slot same _
  · rw [if_neg same]
    cases table.findPte vpn with
    | none => rfl
    | some pte => exact findPte_set_of_ne same _

theorem fst_blockAndRetMut (table : PageTable) (vpn : Nat) :
    (table.blockAndRetMut vpn).1 = table.translate vpn := by
  unfold blockAndRetMut translate
  cases table.findPte vpn <;> rfl

/-- Clearing the entry of a page without one changes nothing. -/
theorem unmap_of_unmapped {vpn : Nat} (absent : table.findPte vpn = none) : table.unmap vpn = table := by
  refine congrArg PageTable.mk (funext fun index => ?_)
  split
  · rename_i same
    rw [same]
    exact absent.symm
  · rfl

theorem entries_foldl_unmap (vpns : List Nat) (table : PageTable) (index : Nat) :
    (vpns.foldl unmap table).entries index = if index ∈ vpns.map slot then none else table.entries index := by
  induction vpns generalizing table with
  | nil => rfl
  | cons first rest ih =>
    rw [List.foldl_cons, ih, List.map_cons]
    by_cases later : index ∈ rest.map slot
    · rw [if_pos later, if_pos (List.mem_cons_of_mem _ later)]
    · simp only [List.mem_cons, later, or_false]
      rfl

end PageTable

end GCore.Mm
