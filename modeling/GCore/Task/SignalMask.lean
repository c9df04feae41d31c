import GCore.Task.Delivery

namespace GCore.Task

open Library BitVec
open Mm

/-!
# Signals that must not be masked

The mask of a thread is written at four places.  `sigprocmask` and `do_signal`
take `SIGILL`, `SIGKILL`, `SIGSEGV` and `SIGSTOP` out of what they write, and a
page fault only removes signals.  `sys_sigreturn` copies a word of user memory as
it is.  In every run in which this word never has one of the four, the mask
never has.
-/

namespace Thread

def Unmasked (mask : Signals) : Prop := mask &&& Signals.CAN_NOT_BE_MASKED = 0#64

instance (mask : Signals) : Decidable (Unmasked mask) := inferInstanceAs (Decidable (_ = _))

theorem unmasked_remove_all (mask : Signals) : Unmasked (mask.remove .CAN_NOT_BE_MASKED) := by
  rw [Unmasked, Signals.remove, BitVec.and_assoc, BitVec.and_comm (~~~Signals.CAN_NOT_BE_MASKED)]
  exact and_zero

variable {act : SigAction} {signum : Nat} {mask : Signals}

theorem unmasked_remove (unmasked : Unmasked mask) (signals : Signals) : Unmasked (mask.remove signals) := by
  rw [Unmasked, Signals.remove, BitVec.and_assoc, BitVec.and_comm (~~~signals), <- BitVec.and_assoc, unmasked]
  exact zero_and

theorem unmasked_insert {other : Signals} (first : Unmasked mask) (second : Unmasked other) :
    Unmasked (mask.insert other) := by
  rw [Unmasked, Signals.insert, BitVec.and_comm, and_or_distrib_left, BitVec.and_comm _ mask,
    BitVec.and_comm _ other, first, second]
  rfl

variable {t after : Thread}

theorem unmasked_sigprocmask (unmasked : Unmasked t.sigmask) (how : Nat) (set oldset : BitVec 64) :
    Unmasked (t.sigprocmask how set oldset).2.sigmask := by
  rw [sigprocmask]
  split
  · exact unmasked
  · rename_i reported saved
    have same : reported.sigmask = t.sigmask := by
      split at saved
      · cases saved
        rfl
      · rcases Option.map_eq_some_iff.mp saved with ⟨_, _, rfl⟩
        rfl
    rw [<- same] at unmasked
    split
    · exact unmasked
    · split
      · exact unmasked
      · split
        · exact unmasked_remove_all _
        · exact unmasked_remove_all _
        · exact unmasked_remove_all _
        · exact unmasked

theorem sigmask_sigaction (t : Thread) (signum : Nat) (act oldact : BitVec 64) :
    (t.sigaction signum act oldact).2.sigmask = t.sigmask := by
  rw [sigaction]
  split
  · rfl
  · split
    · rfl
    · rename_i reported saved
      have same : reported.sigmask = t.sigmask := by
        split at saved
        · cases saved
          rfl
        · rcases copyToUser_eq_some saved with ⟨_, _, rfl⟩
          rfl
      split
      · exact same
      · split
        · exact same
        · exact same

theorem sigmask_restartSyscall (t : Thread) (act : SigAction) (syscall : Bool) :
    (t.restartSyscall act syscall).sigmask = t.sigmask := by
  rw [restartSyscall]
  split
  · split <;> rfl
  · rfl

theorem unmasked_doSignal {syscall : Bool} (unmasked : Unmasked t.sigmask)
    (done : t.doSignal syscall = .ok after) : Unmasked after.sigmask := by
  have due := chooseLoop_due (droppable_lt t.sigpending)
  rw [doSignal, chooseSignal] at done
  split at done
  · rename_i chosen
    rw [chosen] at due
    rcases due with ⟨⟨_, rfl⟩, _⟩
    cases done
    exact unmasked
  · rename_i chosen
    rw [chosen] at due
    rcases due with ⟨⟨_, rfl⟩, _⟩
    rcases enterHandler_keeps done with ⟨_, _, masked, entered⟩
    rw [entered, sigmask_restartSyscall]
    exact unmasked_insert unmasked (unmasked_remove_all masked)
  · rename_i chosen
    rw [chosen] at due
    rcases due with ⟨_, rfl⟩
    cases done
    exact unmasked
  · cases done

/-- The frame that `sys_sigreturn` finds has none of the four signals in its mask. -/
def Genuine (t : Thread) : Event -> Prop
  | .sigreturn => ∀ word, t.userWord (t.frameAddr + BitVec.ofNat 64 sigmaskOffset) = some word -> Unmasked word
  | _ => True

theorem Unmasked.step {t after : Thread} {event : Event} (unmasked : Unmasked t.sigmask)
    (genuine : Genuine t event) (taken : Step t event after) : Unmasked after.sigmask := by
  cases event with
  | user memory pages sighand | signal signals =>
    cases taken
    exact unmasked
  | fault signal =>
    cases taken
    exact unmasked_remove unmasked signal
  | sigprocmask how set oldset =>
    cases taken
    exact unmasked_sigprocmask unmasked how set oldset
  | sigaction signum act oldact =>
    cases taken
    rw [sigmask_sigaction]
    exact unmasked
  | doSignal syscall => exact unmasked_doSignal unmasked taken
  | sigreturn =>
    rcases ok_of_bind_ok taken with ⟨⟨_, _⟩, returned, finished⟩
    cases finished
    rcases ok_of_bind_ok returned with ⟨word, found, others⟩
    rcases ok_of_bind_ok others with ⟨_, _, restored⟩
    rw [<- (Prod.mk.inj (Except.ok.inj restored)).2]
    exact genuine word (some_of_unwrap found)

/-- In every run of a thread whose frames are genuine, the four signals stay unmasked. -/
theorem unmaskable_signals_stay_unmasked {start : Thread} (fresh : Unmasked start.sigmask)
    (run : Reached (Guarded Genuine Step) start t) :
    ∀ signal ∈ [Signals.SIGKILL, .SIGSTOP, .SIGSEGV, .SIGILL], t.sigmask &&& signal = 0#64 := by
  have unmasked : Unmasked t.sigmask :=
    @Reached.invariant _ _ _ _ _ (fun t => Unmasked t.sigmask) run fresh
      fun before event after held taken => held.step taken.1 taken.2
  intro signal member
  have part : signal = Signals.CAN_NOT_BE_MASKED &&& signal := by
    simp only [List.mem_cons, List.not_mem_nil, or_false] at member
    rcases member with rfl | rfl | rfl | rfl <;> decide
  rw [part, <- BitVec.and_assoc, unmasked]
  exact zero_and

/-- A thread whose page at `0x1000` has all bits set; its stack pointer is the
address of this page. -/
def forged : Thread where
  memory := fun place => if place / 4096 = 5 then 0xff#8 else if place = 2 * 4096 + 17 then 0x10#8 else 0#8
  pages := fun vpn => if vpn = 1 then some 5 else none
  trapCxPpn := 2
  ustackBase := 0xbffff000#64
  sigmask := .empty
  sigpending := .empty
  sighand := fun _ => none

/-- Setting all bits by `sigprocmask` leaves the four signals unmasked. -/
theorem full_mask_spares_four :
    ∃ t, Reached (Guarded Genuine Step) forged t /\ t.sigmask &&& Signals.single 1 ≠ 0#64 /\
      ∀ signal ∈ [Signals.SIGKILL, .SIGSTOP, .SIGSEGV, .SIGILL], t.sigmask &&& signal = 0#64 := by
  have one : Guarded Genuine Step forged (.sigprocmask 2 0x1000#64 0#64) (forged.sigprocmask 2 0x1000#64 0#64).2 :=
    ⟨trivial, rfl⟩
  exact ⟨_, Reached.refl.next one, by decide, unmaskable_signals_stay_unmasked (by decide) (Reached.refl.next one)⟩

/-- A `sigreturn` without a signal: the mask comes from the page of the program. -/
theorem forged_frame_masks_sigkill :
    ∃ t, Step forged .sigreturn t /\ Unmasked forged.sigmask /\ t.sigmask &&& Signals.SIGKILL ≠ 0#64 :=
  ⟨_, rfl, by decide, by decide⟩

end Thread

end GCore.Task
