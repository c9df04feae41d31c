import Mathlib.Data.BitVec

namespace GCore.Task

open BitVec

/-!
# Signal sets

`Signals` of `task/signal.rs` is a `bitflags` type over `usize` in which all
sixty-four bits are named, so every word is a signal set.  Signal number `n`
(from 1 to 64) is bit `n - 1`.  A set is a 64-bit word here as well, under the
operations of `bitflags` that the kernel uses.
-/

abbrev Signals := BitVec 64

namespace Signals

def empty : Signals := 0#64

def isEmpty (self : Signals) : Bool := self == 0#64

def insert (self other : Signals) : Signals := self ||| other

/-- Both `remove` and the `-` of two sets. -/
def remove (self other : Signals) : Signals := self &&& ~~~other

def difference (self other : Signals) : Signals := self &&& ~~~other

/-- `1 << (signum - 1)`. -/
def single (signum : Nat) : Signals := 1#64 <<< (signum - 1)

def SIGILL : Signals := single 4
def SIGKILL : Signals := single 9
def SIGSEGV : Signals := single 11
def SIGCHLD : Signals := single 17
def SIGCONT : Signals := single 18
def SIGSTOP : Signals := single 19
def SIGTSTP : Signals := single 20
def SIGTTIN : Signals := single 21
def SIGTTOU : Signals := single 22
def SIGURG : Signals := single 23
def SIGWINCH : Signals := single 28

def CAN_NOT_BE_MASKED : Signals :=
  1#64 <<< 3 ||| 1#64 <<< 8 ||| 1#64 <<< 10 ||| 1#64 <<< 18

def fromSignum (signum : Nat) : Except Unit Signals :=
  if signum = 0 then .ok empty
  else if signum <= 64 then .ok (single signum)
  else .error ()

/-- The number of the lowest signal of the set. -/
def peekFront (self : Signals) : Option Nat :=
  ((List.range 64).find? fun index => self.getLsbD index).map (· + 1)

theorem isEmpty_eq_false_of_insert {self other : Signals} (given : isEmpty other = false) :
    isEmpty (insert self other) = false := by
  rw [isEmpty, beq_eq_false_iff_ne] at given ⊢
  intro zero
  apply given
  apply eq_of_getLsbD_eq
  intro index inside
  have bit := congrArg (getLsbD · index) zero
  simp only [insert, getLsbD_or, getLsbD_zero, Bool.or_eq_false_iff] at bit
  rw [bit.2, getLsbD_zero]

end Signals

end GCore.Task
