import GCore.Task.Kernel
import GCore.Task.UserMemory

namespace GCore.Task

open Library Option
open Mm

/-!
# Delivery of signals to a thread

`do_signal` with the frames that it pushes on the user stack, `sys_sigreturn`,
`sigaction` and `sigprocmask`, for one thread.  The trap context of the thread is
not a record of its own: it is the first 560 bytes of the frame at `trap_cx_ppn`,
and a page of the address space may lead to that frame as well, as the page of
the trap context itself does.

The kernel dies with a panic where it unwraps a failed copy.  A thread that exits
takes no further step.
-/

/-! ## Layout

The offsets of the fields of `TrapContext` that the signal code names. -/

namespace TrapContext

def pc : Nat := 0
def ra : Nat := 8
def sp : Nat := 16
def a0 : Nat := 80
def a1 : Nat := 88
def a2 : Nat := 96
def originA0 : Nat := 520

end TrapContext

/-- `size_of::<MachineContext>()`, the general and the floating-point registers. -/
def machineContextSize : Nat := 520

/-- `size_of::<TrapContext>()`: the registers, the first argument, and what the kernel needs. -/
def trapContextSize : Nat := 560

/-- `size_of::<UserContext>()`. -/
def userContextSize : Nat := 696

/-- `size_of::<SigInfo>()`. -/
def sigInfoSize : Nat := 128

/-- The offset of `sigmask` in a `UserContext`: two words and the `SignalStack`. -/
def sigmaskOffset : Nat := 40

/-- The offset of `mcontext`: the mask and the padding come before it. -/
def mcontextOffset : Nat := 176

def USER_STACK_SIZE : BitVec 64 := 0x40000#64

/-- `usize::MAX - PAGE_SIZE + 1 - PAGE_SIZE`. -/
def SIGNAL_TRAMPOLINE : BitVec 64 := 0xffffffffffffe000#64

/-- `address & !0x7` -/
def align (address : BitVec 64) : BitVec 64 := address &&& ~~~7#64

/-! ## Actions -/

/-- `SigAction` for the RISC-V target. -/
structure SigAction where
  handler : BitVec 64
  flags : BitVec 64
  restorer : BitVec 64
  mask : Signals
deriving DecidableEq, Repr

namespace SigAction

def SA_SIGINFO : BitVec 64 := 4#64
def SA_RESTORER : BitVec 64 := 0x04000000#64
def SA_RESTART : BitVec 64 := 0x10000000#64
def SA_NODEFER : BitVec 64 := 0x40000000#64
def SA_RESETHAND : BitVec 64 := 0x80000000#64

def SIG_DFL : BitVec 64 := 0#64
def SIG_IGN : BitVec 64 := 1#64

def new : SigAction := ⟨SIG_DFL, 0#64, 0#64, .empty⟩

/-- `act.flags.contains(flag)` -/
def has (act : SigAction) (flag : BitVec 64) : Bool := act.flags &&& flag == flag

/-- `SigHandler::addr` -/
def addr (act : SigAction) : Option (BitVec 64) :=
  if act.handler = SIG_DFL \/ act.handler = SIG_IGN then none else some act.handler

def bytes (act : SigAction) : List Byte :=
  bytesOfWord act.handler ++ bytesOfWord act.flags ++ bytesOfWord act.restorer ++ bytesOfWord act.mask

def ofBytes (data : List Byte) : SigAction where
  handler := wordOfBytes (data.take 8)
  flags := wordOfBytes ((data.drop 8).take 8)
  restorer := wordOfBytes ((data.drop 16).take 8)
  mask := wordOfBytes ((data.drop 24).take 8)

end SigAction

/-! ## The thread -/

inductive Stop
  | panic
  | exited (signum : Nat)
deriving DecidableEq, Repr

/-- `unwrap` -/
def unwrap {α : Type} : Option α -> Except Stop α
  | none => .error .panic
  | some value => .ok value

structure Thread where
  memory : Memory
  pages : Pages
  trapCxPpn : Nat
  ustackBase : BitVec 64
  sigmask : Signals
  sigpending : Signals
  /-- The action of signal `n` is at `n - 1`. -/
  sighand : Nat -> Option SigAction

namespace Thread

/-- The physical address of the trap context. -/
def cx (t : Thread) : Nat := t.trapCxPpn * pageSize

def reg (t : Thread) (offset : Nat) : BitVec 64 := t.memory.loadWord (t.cx + offset)

def setReg (t : Thread) (offset : Nat) (word : BitVec 64) : Thread :=
  { t with memory := t.memory.storeWord (t.cx + offset) word }

/-- The trap context as a `MachineContext`: the registers of the program. -/
def machineContext (t : Thread) : List Byte := t.memory.load t.cx machineContextSize

def copyToUser (t : Thread) (dst : BitVec 64) (src : List Byte) : Option Thread :=
  (t.pages.copyToUser t.memory dst.toNat src).map fun memory => { t with memory := memory }

/-- `*translated_refmut(token, ptr)? = word` -/
def assignWord (t : Thread) (ptr word : BitVec 64) : Option Thread :=
  (t.pages.translateVa ptr.toNat).map fun pa => { t with memory := t.memory.storeWord pa word }

/-- `*translated_ref(token, ptr)?` -/
def userWord (t : Thread) (ptr : BitVec 64) : Option (BitVec 64) :=
  (t.pages.translateVa ptr.toNat).map t.memory.loadWord

/-! ## `do_signal` -/

/-- What the loop of `do_signal` ends with. -/
inductive Choice
  | nothing (t : Thread)
  | handler (t : Thread) (signum : Nat) (act : SigAction)
  | stop (t : Thread)
  | exit (signum : Nat)

/-- Signals that are dropped if they have no handler. -/
def ignored (signal : Signals) : Bool :=
  signal == .SIGCHLD || signal == .SIGCONT || signal == .SIGURG || signal == .SIGWINCH

def stops (signal : Signals) : Bool :=
  signal == .SIGTSTP || signal == .SIGTTIN || signal == .SIGTTOU

/-- The loop of `do_signal` up to the first signal that is not dropped. -/
def chooseLoop : Nat -> Thread -> Choice
  | 0, t => .nothing t
  | rounds + 1, t =>
    match (t.sigpending.difference t.sigmask).peekFront with
    | none => .nothing t
    | some signum =>
      let signal := Signals.single signum
      let t := { t with sigpending := t.sigpending.remove signal }
      match t.sighand (signum - 1) with
      | some act => .handler t signum act
      | none =>
        if ignored signal then chooseLoop rounds t
        else if stops signal then .stop t
        else .exit signum

/-- A round drops one of four signals or is the last. -/
def chooseSignal (t : Thread) : Choice := chooseLoop 5 t

/-- The adjustment of a system call that was interrupted.  `syscall` says whether
the trap was one. -/
def restartSyscall (t : Thread) (act : SigAction) (syscall : Bool) : Thread :=
  if syscall /\ t.reg TrapContext.a0 = BitVec.ofInt 64 ERESTART then
    if act.has SigAction.SA_RESTART then
      let t := t.setReg TrapContext.pc (t.reg TrapContext.pc - 4#64)
      t.setReg TrapContext.a0 (t.reg TrapContext.originA0)
    else t.setReg TrapContext.a0 (BitVec.ofInt 64 EINTR)
  else t

/-- The bytes of the `UserContext` that is pushed.  The four bytes after the flags of
the stack are padding. -/
def userContext (t : Thread) (sigSp sigSize : BitVec 64) : List Byte :=
  bytesOfWord 0#64 ++ bytesOfWord 0#64
    ++ (bytesOfWord sigSp ++ bytesOfWord 2#64 ++ bytesOfWord sigSize)
    ++ bytesOfWord t.sigmask
    ++ List.replicate 128 0#8
    ++ t.machineContext

/-- `SigInfo::new(signum, 0, 0)` -/
def sigInfo (signum : Nat) : List Byte :=
  bytesOfWord (BitVec.ofNat 64 (signum % 2 ^ 32)) ++ List.replicate 120 0#8

/-- The frame for a handler with three arguments. -/
def pushUserContext (t : Thread) (signum : Nat) (ucontextAddr siginfoAddr sigSize : BitVec 64) : Option Thread := do
  let t <- t.copyToUser ucontextAddr (t.userContext siginfoAddr sigSize)
  let t := t.setReg TrapContext.a2 ucontextAddr
  let t <- t.copyToUser siginfoAddr (sigInfo signum)
  some (t.setReg TrapContext.a1 siginfoAddr)

/-- The frame for a handler with one argument: the mask first, then the registers. -/
def pushMachineContext (t : Thread) (ucontextAddr : BitVec 64) : Option Thread := do
  let t <- t.assignWord (ucontextAddr + BitVec.ofNat 64 sigmaskOffset) t.sigmask
  t.copyToUser (ucontextAddr + BitVec.ofNat 64 mcontextOffset) t.machineContext

/-- The address of the `UserContext` that is pushed below the stack pointer. -/
def ucontextAddr (t : Thread) : BitVec 64 := align (t.reg TrapContext.sp - BitVec.ofNat 64 userContextSize)

/-- The rest of `do_signal` for a signal with a handler. -/
def enterHandler (t : Thread) (signum : Nat) (act : SigAction) : Except Stop Thread :=
  let ucontextAddr := t.ucontextAddr
  let siginfoAddr := align (ucontextAddr - BitVec.ofNat 64 sigInfoSize)
  let stackTop := t.ustackBase - USER_STACK_SIZE
  if siginfoAddr.toNat < stackTop.toNat then .error (.exited 11)
  else do
    let t <- unwrap (if act.has SigAction.SA_SIGINFO then
        t.pushUserContext signum ucontextAddr siginfoAddr (siginfoAddr - stackTop)
      else t.pushMachineContext ucontextAddr)
    let t := t.setReg TrapContext.a0 (BitVec.ofNat 64 signum)
    let t := t.setReg TrapContext.sp siginfoAddr
    let t := t.setReg TrapContext.ra
      (if act.has SigAction.SA_RESTORER then act.restorer else SIGNAL_TRAMPOLINE)
    let handler <- unwrap act.addr
    let t := t.setReg TrapContext.pc handler
    let masked := if act.has SigAction.SA_NODEFER then act.mask else (Signals.single signum).insert act.mask
    .ok { t with
      sigmask := t.sigmask.insert (masked.remove .CAN_NOT_BE_MASKED)
      sighand := if act.has SigAction.SA_RESETHAND then Function.update t.sighand (signum - 1) none
        else t.sighand }

def doSignal (t : Thread) (syscall : Bool) : Except Stop Thread :=
  match t.chooseSignal with
  | .nothing t => .ok t
  | .handler t signum act => (t.restartSyscall act syscall).enterHandler signum act
  | .stop t => .ok t
  | .exit signum => .error (.exited signum)

/-! ## The loop ends by itself -/

/-- The number of pending signals that a round may drop. -/
def droppable (pending : Signals) : Nat :=
  ([16, 17, 22, 27].filter fun index => pending.getLsbD index).length

theorem droppable_remove {pending : Signals} {index : Nat} (small : index < 64)
    (dropped : ignored (Signals.single (index + 1)) = true) (set : pending.getLsbD index = true) :
    droppable (pending.remove (Signals.single (index + 1))) < droppable pending := by
  have which : index ∈ [16, 17, 22, 27] := by
    have all : ∀ index < 64, ignored (Signals.single (index + 1)) = true -> index ∈ [16, 17, 22, 27] := by
      decide
    exact all index small dropped
  have bits : ∀ other ∈ [16, 17, 22, 27], (pending.remove (Signals.single (index + 1))).getLsbD other =
      (pending.getLsbD other && decide (other ≠ index)) := by
    have all : ∀ index ∈ [16, 17, 22, 27], ∀ other ∈ [16, 17, 22, 27],
        (~~~(Signals.single (index + 1))).getLsbD other = decide (other ≠ index) := by
      decide
    intro other member
    rw [Signals.remove, BitVec.getLsbD_and, all index which other member]
  have split : [16, 17, 22, 27].filter (fun other => (pending.remove (Signals.single (index + 1))).getLsbD other) =
      ([16, 17, 22, 27].filter fun other => pending.getLsbD other).filter (· ≠ index) := by
    rw [List.filter_filter]
    refine List.filter_congr fun other member => ?_
    rw [bits other member, Bool.and_comm]
  rw [droppable, droppable, split]
  exact List.length_filter_lt_length_iff_exists.mpr ⟨index, List.mem_filter.mpr ⟨which, set⟩, by simp⟩

/-- The signal may be delivered: it is pending and not masked. -/
def Deliverable (t : Thread) (signum : Nat) : Prop := (t.sigpending.difference t.sigmask).getLsbD (signum - 1) = true

/-- The loop takes away pending signals only, and ends with a signal that may be delivered.  It ends
with nothing only if there is none left. -/
def Choice.Due (t : Thread) : Choice -> Prop
  | .nothing after => (∃ pending, after = { t with sigpending := pending }) /\ ∀ signum, ¬ after.Deliverable signum
  | .handler after signum _ => (∃ pending, after = { t with sigpending := pending }) /\ t.Deliverable signum
  | .stop after => ∃ pending, after = { t with sigpending := pending }
  | .exit signum => t.Deliverable signum

theorem Choice.Due.mono {t : Thread} {choice : Choice} {left : Signals} (due : choice.Due { t with sigpending := left })
    (fewer : ∀ signum, Deliverable { t with sigpending := left } signum -> t.Deliverable signum) : choice.Due t := by
  cases choice with
  | nothing after | stop after => exact due
  | handler after signum act => exact ⟨due.1, fewer signum due.2⟩
  | exit signum => exact fewer signum due

/-- With more rounds than droppable signals the loop ends by itself. -/
theorem chooseLoop_due {rounds : Nat} : ∀ {t : Thread}, droppable t.sigpending < rounds ->
    (chooseLoop rounds t).Due t := by
  induction rounds with
  | zero => exact fun enough => absurd enough (Nat.not_lt_zero _)
  | succ rounds ih =>
    intro t enough
    rw [chooseLoop]
    split
    · rename_i nothing
      refine ⟨⟨_, rfl⟩, ?_⟩
      intro signum due
      have absent := List.find?_eq_none.mp (map_eq_none_iff.mp nothing) (signum - 1)
      exact absent (List.mem_range.mpr (BitVec.lt_of_getLsbD due)) due
    · rename_i front
      rcases map_eq_some_iff.mp front with ⟨index, found, rfl⟩
      have due : t.Deliverable (index + 1) := by
        rw [Deliverable, Nat.add_sub_cancel]
        exact List.find?_some found
      have small := List.mem_range.mp (List.mem_of_find?_eq_some found)
      dsimp only
      split
      · exact ⟨⟨_, rfl⟩, due⟩
      · split
        · rename_i dropped
          refine Choice.Due.mono (ih ?_) ?_
          · rw [Deliverable, Signals.difference, BitVec.getLsbD_and, Bool.and_eq_true] at due
            exact lt_of_lt_of_le (droppable_remove small dropped due.1) (Nat.lt_succ_iff.mp enough)
          · intro signum
            simp only [Deliverable, Signals.difference, Signals.remove, BitVec.getLsbD_and, Bool.and_eq_true]
            exact fun due => ⟨due.1.1, due.2⟩
        · split
          · exact ⟨_, rfl⟩
          · exact due

theorem droppable_lt (pending : Signals) : droppable pending < 5 := Nat.lt_succ_iff.mpr (List.length_filter_le _ _)

/-- `do_signal` delivers only signals that are pending and not masked, and it does nothing only
if there is none left. -/
theorem chooseSignal_due (t : Thread) : t.chooseSignal.Due t := chooseLoop_due (droppable_lt t.sigpending)

/-- The loop of `do_signal` changes the pending set only. -/
theorem chooseLoop_handler {t interrupted : Thread} {signum : Nat} {act : SigAction}
    (chosen : t.chooseSignal = .handler interrupted signum act) :
    ∃ pending, interrupted = { t with sigpending := pending } := by
  have due := chooseLoop_due (droppable_lt t.sigpending)
  rw [<- chooseSignal, chosen] at due
  exact due.1

/-! ## System calls -/

/-- The address at which `sys_sigreturn` looks for the `UserContext`. -/
def frameAddr (t : Thread) : BitVec 64 := align (t.reg TrapContext.sp + BitVec.ofNat 64 sigInfoSize + 7#64)

/-- `sys_sigreturn`.  The copy goes to the trap context, which it does not come from. -/
def sysSigreturn (t : Thread) : Except Stop (BitVec 64 × Thread) := do
  let ucontextAddr := t.frameAddr
  let sigmask <- unwrap (t.userWord (ucontextAddr + BitVec.ofNat 64 sigmaskOffset))
  let t := { t with sigmask := sigmask }
  let registers <- unwrap (t.pages.copyFromUser t.memory
    (ucontextAddr + BitVec.ofNat 64 mcontextOffset).toNat machineContextSize)
  let t := { t with memory := t.memory.store t.cx registers }
  .ok (t.reg TrapContext.a0, t)

/-- `sigprocmask`. -/
def sigprocmask (t : Thread) (how : Nat) (set oldset : BitVec 64) : Int × Thread :=
  match (if oldset = 0#64 then some t else t.assignWord oldset t.sigmask) with
  | none => (EFAULT, t)
  | some t =>
    if set = 0#64 then (SUCCESS, t)
    else
      match t.userWord set with
      | none => (EFAULT, t)
      | some signalSet =>
        match how with
        | 0 => (SUCCESS, { t with sigmask := (t.sigmask.insert signalSet).remove .CAN_NOT_BE_MASKED })
        | 1 => (SUCCESS, { t with sigmask := (t.sigmask.remove signalSet).remove .CAN_NOT_BE_MASKED })
        | 2 => (SUCCESS, { t with sigmask := Signals.remove signalSet .CAN_NOT_BE_MASKED })
        | _ => (EINVAL, t)

/-- `sigaction`. -/
def sigaction (t : Thread) (signum : Nat) (act oldact : BitVec 64) : Int × Thread :=
  if signum = 0 \/ signum = 9 \/ signum = 19 \/ 65 <= signum then (EINVAL, t)
  else
    match (if oldact = 0#64 then some t
        else t.copyToUser oldact ((t.sighand (signum - 1)).getD .new).bytes) with
    | none => (EFAULT, t)
    | some t =>
      if act = 0#64 then (SUCCESS, t)
      else
        match t.pages.copyFromUser t.memory act.toNat 32 with
        | none => (EFAULT, t)
        | some data =>
          let sigact := SigAction.ofBytes data
          let sigact := { sigact with mask := sigact.mask.remove .CAN_NOT_BE_MASKED }
          (SUCCESS, { t with
            sighand := Function.update t.sighand (signum - 1)
              (if sigact.handler = SigAction.SIG_DFL \/ sigact.handler = SigAction.SIG_IGN then none
              else some sigact) })

/-! ## Events -/

inductive Event
  /-- The program runs, with the other threads of the process and the memory management:
  memory, registers included, the frames and the actions change. -/
  | user (memory : Memory) (pages : Pages) (sighand : Nat -> Option SigAction)
  /-- A signal is sent to the thread. -/
  | signal (signals : Signals)
  /-- A page fault ends with `SIGBUS` or `SIGSEGV`. -/
  | fault (signal : Signals)
  | sigprocmask (how : Nat) (set oldset : BitVec 64)
  | sigaction (signum : Nat) (act oldact : BitVec 64)
  | doSignal (syscall : Bool)
  | sigreturn

def exec (t : Thread) : Event -> Except Stop Thread
  | .user memory pages sighand => .ok { t with memory := memory, pages := pages, sighand := sighand }
  | .signal signals => .ok { t with sigpending := t.sigpending.insert signals }
  | .fault signal =>
    .ok { t with sigmask := t.sigmask.remove signal, sigpending := t.sigpending.insert signal }
  | .sigprocmask how set oldset => .ok (t.sigprocmask how set oldset).2
  | .sigaction signum act oldact => .ok (t.sigaction signum act oldact).2
  | .doSignal syscall => t.doSignal syscall
  | .sigreturn => do
      let (_, t) <- t.sysSigreturn
      .ok t

/-- The steps of a thread. -/
def Step (before : Thread) (event : Event) (after : Thread) : Prop := before.exec event = .ok after

/-- A sequence of steps that may stop succeeds exactly when both of its parts do. -/
theorem ok_of_bind_ok {α β : Type} {first : Except Stop α} {second : α -> Except Stop β} {result : β}
    (done : (first >>= second) = .ok result) :
    ∃ value, first = .ok value /\ second value = .ok result := by
  cases first with
  | error stop => cases done
  | ok value => exact ⟨value, rfl, done⟩

theorem some_of_unwrap {α : Type} {given : Option α} {value : α} (done : unwrap given = .ok value) :
    given = some value := by
  cases given with
  | none => cases done
  | some other =>
    cases done
    rfl

variable {t after : Thread} {signum : Nat} {act : SigAction}

theorem copyToUser_eq_some {dst : BitVec 64} {src : List Byte}
    (done : t.copyToUser dst src = some after) : ∃ memory,
      t.pages.copyToUser t.memory dst.toNat src = some memory /\ after = { t with memory := memory } := by
  rcases map_eq_some_iff.mp done with ⟨memory, copied, rfl⟩
  exact ⟨memory, copied, rfl⟩

/-- The frame is pushed into the memory, and nothing else changes. -/
theorem push_eq_some {ucontext siginfo size : BitVec 64}
    (done : (if act.has SigAction.SA_SIGINFO then t.pushUserContext signum ucontext siginfo size
      else t.pushMachineContext ucontext) = some after) : ∃ memory, after = { t with memory := memory } := by
  split at done
  · rcases bind_eq_some_iff.mp done with ⟨first, copied, others⟩
    rcases bind_eq_some_iff.mp others with ⟨_, informed, ended⟩
    cases ended
    rcases copyToUser_eq_some copied with ⟨memory, _, rfl⟩
    rcases copyToUser_eq_some informed with ⟨_, _, rfl⟩
    exact ⟨_, rfl⟩
  · rcases bind_eq_some_iff.mp done with ⟨first, assigned, copied⟩
    rcases map_eq_some_iff.mp assigned with ⟨_, _, rfl⟩
    rcases copyToUser_eq_some copied with ⟨memory, _, rfl⟩
    exact ⟨_, rfl⟩

/-- Entering a handler leaves the pages and the place of the trap context, and adds to the mask. -/
theorem enterHandler_keeps (done : t.enterHandler signum act = .ok after) :
    after.pages = t.pages /\ after.trapCxPpn = t.trapCxPpn /\ ∃ masked : Signals,
      after.sigmask = t.sigmask.insert (masked.remove .CAN_NOT_BE_MASKED) := by
  rw [enterHandler] at done
  split at done
  · cases done
  · rcases ok_of_bind_ok done with ⟨_, framed, others⟩
    rcases ok_of_bind_ok others with ⟨_, _, finished⟩
    rcases push_eq_some (some_of_unwrap framed) with ⟨_, rfl⟩
    rw [<- Except.ok.inj finished]
    exact ⟨rfl, rfl, _, rfl⟩

end Thread

end GCore.Task
