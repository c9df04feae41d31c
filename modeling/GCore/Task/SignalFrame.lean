import GCore.Task.Delivery

namespace GCore.Task

open Library Memory TrapContext List Option Pages
open Mm

/-!
# Frames of nested handlers

`do_signal` pushes the mask and the registers below the user stack pointer, in one
of two ways, and `sys_sigreturn` computes the address of the frame again from the
stack pointer that the handler returns with.  The two roundings fit for every
stack pointer, and both ways of pushing leave the mask and the registers where
`sys_sigreturn` looks for them, with two exceptions.

The kernel does not ask where the stack pointer points to.  A frame may lie over
the trap context of the thread, whose page is mapped: then the mask is written
over registers that have not been saved yet, or the registers that are set for the
handler over the frame.  And a frame that wraps around the end of the address
space is not written at all.  In every nesting without these two, each handler
returns to the registers and the mask that were saved for it.
-/

namespace Thread

/-! ## Addresses -/

theorem align_eq (address : BitVec 64) : align address = (address >>> 3) <<< 3 := by
  apply BitVec.eq_of_getLsbD_eq
  intro index inside
  have seven : ∀ index < 64, (7#64).getLsbD index = decide (index < 3) := by decide
  simp only [align, BitVec.getLsbD_and, BitVec.getLsbD_not, BitVec.getLsbD_shiftLeft,
    BitVec.getLsbD_ushiftRight, seven index inside, inside]
  by_cases low : index < 3
  · simp [low]
  · rw [show 3 + (index - 3) = index by omega]
    simp [low]

theorem align_toNat (address : BitVec 64) : (align address).toNat = address.toNat - address.toNat % 8 := by
  rw [align_eq, BitVec.toNat_shiftLeft, BitVec.toNat_ushiftRight, Nat.shiftLeft_eq, Nat.shiftRight_eq_div_pow]
  omega

/-- The stack pointers below which a frame does not wrap around. -/
def RoomBelow (sp : BitVec 64) : Prop := sp.toNat < 8 \/ userContextSize <= sp.toNat

instance (sp : BitVec 64) : Decidable (RoomBelow sp) := inferInstanceAs (Decidable (_ \/ _))

variable {t after : Thread} {ucontext : BitVec 64} {offset index signum : Nat} {pages : Pages}
  {sigmask : Signals} {registers : List Byte} {act : SigAction}

theorem ucontextAddr_bounds (room : RoomBelow (t.reg sp)) :
    t.ucontextAddr.toNat % 8 = 0 /\ t.ucontextAddr.toNat + userContextSize <= usizeRange := by
  rw [ucontextAddr, align_toNat, BitVec.toNat_sub, BitVec.toNat_ofNat]
  unfold RoomBelow userContextSize at room
  unfold userContextSize usizeRange
  omega

variable (aligned : ucontext.toNat % 8 = 0)

include aligned

/-- The address of the `SigInfo` below an aligned `UserContext`. -/
theorem siginfoAddr_toNat :
    (align (ucontext - BitVec.ofNat 64 sigInfoSize)).toNat = (ucontext.toNat + (usizeRange - sigInfoSize)) % usizeRange := by
  rw [align_toNat, BitVec.toNat_sub, BitVec.toNat_ofNat]
  unfold sigInfoSize usizeRange
  omega

/-- `sys_sigreturn` finds the frame that belongs to the stack pointer of the handler. -/
theorem frameAddr_of_sp
    (sp : t.reg sp = align (ucontext - BitVec.ofNat 64 sigInfoSize)) : t.frameAddr = ucontext := by
  apply BitVec.eq_of_toNat_eq
  rw [frameAddr, sp, align_toNat, BitVec.toNat_add, BitVec.toNat_add, siginfoAddr_toNat aligned,
    BitVec.toNat_ofNat, BitVec.toNat_ofNat]
  unfold sigInfoSize usizeRange
  omega

variable (fits : ucontext.toNat + userContextSize <= usizeRange)

omit aligned

include fits in
theorem toNat_add_offset
    (inside : offset < userContextSize) : (ucontext + BitVec.ofNat 64 offset).toNat = ucontext.toNat + offset := by
  rw [BitVec.toNat_add, BitVec.toNat_ofNat]
  unfold userContextSize usizeRange at fits
  unfold userContextSize at inside
  omega

/-! ## Registers -/

theorem reg_setReg_same (t : Thread) (offset : Nat) (word : BitVec 64) :
    (t.setReg offset word).reg offset = word :=
  loadWord_storeWord_same t.memory _ word

theorem reg_setReg_apart (t : Thread) {other : Nat} (word : BitVec 64)
    (apart : other + 8 <= offset \/ offset + 8 <= other) : (t.setReg offset word).reg other = t.reg other := by
  refine loadWord_storeWord_apart t.memory ?_
  change t.cx + other + 8 <= t.cx + offset \/ t.cx + offset + 8 <= t.cx + other
  omega

/-- A restarted system call changes `pc` and `a0` only. -/
theorem restartSyscall_keeps (t : Thread) (act : SigAction) (syscall : Bool) :
    (t.restartSyscall act syscall).reg sp = t.reg sp /\
      (t.restartSyscall act syscall).pages = t.pages /\
      (t.restartSyscall act syscall).trapCxPpn = t.trapCxPpn /\
      (t.restartSyscall act syscall).sigmask = t.sigmask := by
  rw [restartSyscall]
  split
  · split
    · refine ⟨?_, rfl, rfl, rfl⟩
      rw [reg_setReg_apart _ _ (by decide), reg_setReg_apart _ _ (by decide)]
    · refine ⟨?_, rfl, rfl, rfl⟩
      rw [reg_setReg_apart _ _ (by decide)]
  · exact ⟨rfl, rfl, rfl, rfl⟩

/-! ## Frames -/

/-- The frame as `sys_sigreturn` reads it: the mask and the registers. -/
def frame (t : Thread) : Option (Signals × List Byte) := do
  let sigmask <- t.userWord (t.frameAddr + BitVec.ofNat 64 sigmaskOffset)
  let registers <- t.pages.copyFromUser t.memory
    (t.frameAddr + BitVec.ofNat 64 mcontextOffset).toNat machineContextSize
  some (sigmask, registers)

/-- No byte of a range is a byte of the trap context. -/
def Apart (t : Thread) (address : BitVec 64) (size : Nat) : Prop :=
  ∀ index pa, index < size -> t.pages.translateVa (address.toNat + index) = some pa ->
    ¬ (t.cx <= pa /\ pa < t.cx + trapContextSize)

def FrameClear (t : Thread) (ucontext : BitVec 64) : Prop := t.Apart ucontext userContextSize

/-- The bytes of a frame at their places. -/
structure Holds (pages : Pages) (memory : Memory) (ucontext : BitVec 64) (sigmask : Signals)
    (registers : List Byte) : Prop where
  aligned : ucontext.toNat % 8 = 0
  fits : ucontext.toNat + userContextSize <= usizeRange
  size : registers.length = machineContextSize
  plain : Pages.Plain (ucontext.toNat + mcontextOffset) machineContextSize
  sigmask : ∀ index < 8,
    pages.byteAt memory (ucontext.toNat + sigmaskOffset + index) = some ((bytesOfWord sigmask).getD index 0)
  registers : ∀ index < machineContextSize,
    pages.byteAt memory (ucontext.toNat + mcontextOffset + index) = some (registers.getD index 0)

/-- The eight bytes of an aligned word are in one page. -/
theorem translateVa_word {va pa : Nat} (aligned : va % 8 = 0)
    (found : pages.translateVa va = some pa) (inside : index < 8) :
    pages.translateVa (va + index) = some (pa + index) := by
  have same : floor (va + index) = floor va := by
    unfold floor pageSize
    omega
  rw [translateVa_same same, found]
  rfl

/-- Such a frame is read back. -/
theorem Holds.frame_eq
    (holds : Holds t.pages t.memory t.frameAddr sigmask registers) : t.frame = some (sigmask, registers) := by
  have maskAddr := toNat_add_offset holds.fits (show sigmaskOffset < userContextSize by decide)
  have registersAddr := toNat_add_offset holds.fits (show mcontextOffset < userContextSize by decide)
  have word : t.userWord (t.frameAddr + BitVec.ofNat 64 sigmaskOffset) = some sigmask := by
    rcases map_eq_some_iff.mp (holds.sigmask 0 (by decide)) with ⟨pa, found, _⟩
    rw [Nat.add_zero] at found
    have aligned : (t.frameAddr.toNat + sigmaskOffset) % 8 = 0 := by
      have base := holds.aligned
      unfold sigmaskOffset
      omega
    rw [userWord, maskAddr, found, map_some]
    refine congrArg some (loadWord_of_load ?_)
    have loaded : t.memory.load pa (bytesOfWord sigmask).length = bytesOfWord sigmask := by
      refine load_eq_of_bytes fun index inside => ?_
      have byte := holds.sigmask index inside
      rw [Pages.byteAt, translateVa_word aligned found inside] at byte
      exact some.inj byte
    rwa [length_bytesOfWord] at loaded
  have copied : t.pages.copyFromUser t.memory (t.frameAddr + BitVec.ofNat 64 mcontextOffset).toNat
      machineContextSize = some registers := by
    have fits : t.frameAddr.toNat + mcontextOffset + machineContextSize <= usizeRange := holds.fits
    rw [registersAddr, <- holds.size]
    rw [<- holds.size] at fits
    refine copyFromUser_eq ?_ ?_ fits ?_ ?_
    · rw [holds.size]
      decide
    · rw [holds.size]
      decide
    · rw [holds.size]
      exact holds.plain
    · rw [holds.size]
      exact holds.registers
  rw [frame, word]
  simp only [bind_eq_bind, bind_some, copied]

/-- A frame survives a write to other bytes. -/
theorem Holds.of_memory {memory after : Memory} (holds : Holds pages memory ucontext sigmask registers)
    (same : ∀ index pa, index < userContextSize -> pages.translateVa (ucontext.toNat + index) = some pa ->
      after pa = memory pa) : Holds pages after ucontext sigmask registers := by
  have bytes : ∀ index < userContextSize, pages.byteAt after (ucontext.toNat + index) =
      pages.byteAt memory (ucontext.toNat + index) := by
    intro index inside
    rw [Pages.byteAt, Pages.byteAt]
    cases found : pages.translateVa (ucontext.toNat + index) with
    | none => rfl
    | some pa => exact congrArg some (same index pa inside found)
  refine ⟨holds.aligned, holds.fits, holds.size, holds.plain, ?_, ?_⟩
  · intro index inside
    rw [Nat.add_assoc, bytes _ (by unfold sigmaskOffset userContextSize; omega), <- Nat.add_assoc]
    exact holds.sigmask index inside
  · intro index inside
    rw [Nat.add_assoc, bytes _ (by unfold mcontextOffset userContextSize machineContextSize at *; omega),
      <- Nat.add_assoc]
    exact holds.registers index inside

variable (clear : FrameClear t ucontext)

include clear in
theorem FrameClear.same
    (pages : after.pages = t.pages) (trapCxPpn : after.trapCxPpn = t.trapCxPpn) : FrameClear after ucontext := by
  intro index pa inside found
  rw [pages] at found
  rw [cx, trapCxPpn]
  exact clear index pa inside found

/-- A thread with a frame that its registers do not reach into. -/
structure Framed (t : Thread) (ucontext : BitVec 64) (sigmask : Signals) (registers : List Byte) : Prop where
  holds : Holds t.pages t.memory ucontext sigmask registers
  clear : FrameClear t ucontext

theorem Framed.setReg (framed : Framed t ucontext sigmask registers) (inside : offset + 8 <= machineContextSize)
    (word : BitVec 64) : Framed (t.setReg offset word) ucontext sigmask registers := by
  refine ⟨framed.holds.of_memory fun index pa below found => ?_, framed.clear.same rfl rfl⟩
  refine storeWord_outside t.memory fun covered => framed.clear index pa below found ?_
  unfold machineContextSize at inside
  unfold trapContextSize
  omega

include aligned fits clear in
theorem pushMachineContext_framed (done : t.pushMachineContext ucontext = some after) :
    Framed after ucontext t.sigmask t.machineContext := by
  rcases bind_eq_some_iff.mp done with ⟨_, assigned, copied⟩
  rcases map_eq_some_iff.mp assigned with ⟨pa, found, rfl⟩
  rcases copyToUser_eq_some copied with ⟨memory, written, rfl⟩
  rw [toNat_add_offset fits (by decide)] at found written
  have wordAligned : (ucontext.toNat + sigmaskOffset) % 8 = 0 := by
    unfold sigmaskOffset
    omega
  -- The mask goes to bytes outside of the registers, so that these are still the same.
  have untouched : (t.memory.storeWord pa t.sigmask).load t.cx machineContextSize = t.machineContext := by
    refine load_congr fun index inside => ?_
    refine storeWord_outside t.memory fun covered => ?_
    have byte := translateVa_word wordAligned found (show t.cx + index - pa < 8 by omega)
    rw [Nat.add_assoc] at byte
    refine clear _ _ ?_ byte ?_
    · unfold sigmaskOffset userContextSize
      omega
    · unfold machineContextSize at inside
      unfold trapContextSize
      omega
  have size : t.machineContext.length = machineContextSize := length_load _ _ _
  have whole : ucontext.toNat + mcontextOffset + machineContextSize <= usizeRange := fits
  change t.pages.copyToUser (t.memory.storeWord pa t.sigmask) _
    ((t.memory.storeWord pa t.sigmask).load t.cx machineContextSize) = some memory at written
  rw [untouched] at written
  have spec := copyToUser_written (by rw [size]; decide) (by rw [size]; decide) (by rw [size]; exact whole) written
  refine ⟨⟨aligned, fits, size, size ▸ spec.plain, ?_, ?_⟩, clear.same rfl rfl⟩
  · intro index inside
    have place := translateVa_word wordAligned found inside
    rw [Pages.byteAt, place]
    refine congrArg some ((spec.others (pa + index) ?_).trans ?_)
    · intro other below
      refine translateVa_apart ?_ place
      unfold sigmaskOffset mcontextOffset machineContextSize pageSize at *
      omega
    · exact store_inside t.memory pa (by rw [length_bytesOfWord]; exact inside)
  · intro index inside
    exact spec.bytes index (by rw [size]; exact inside)

/-! ## The frame with all fields -/

theorem length_userContext (t : Thread) (sigSp sigSize : BitVec 64) :
    (t.userContext sigSp sigSize).length = userContextSize := by
  simp only [userContext, machineContext, length_append, length_bytesOfWord, length_replicate, length_load]
  rfl

theorem userContext_sigmask (t : Thread) (sigSp sigSize : BitVec 64) (inside : index < 8) :
    (t.userContext sigSp sigSize).getD (sigmaskOffset + index) 0 = (bytesOfWord t.sigmask).getD index 0 := by
  have split : t.userContext sigSp sigSize = (bytesOfWord 0#64 ++ bytesOfWord 0#64
      ++ (bytesOfWord sigSp ++ bytesOfWord 2#64 ++ bytesOfWord sigSize)) ++
      (bytesOfWord t.sigmask ++ (replicate 128 0#8 ++ t.machineContext)) := by
    simp only [userContext, append_assoc]
  rw [split]
  refine getD_part ?_
  exact inside

theorem userContext_registers (t : Thread) (sigSp sigSize : BitVec 64) (inside : index < machineContextSize) :
    (t.userContext sigSp sigSize).getD (mcontextOffset + index) 0 = t.machineContext.getD index 0 := by
  have split : t.userContext sigSp sigSize = (bytesOfWord 0#64 ++ bytesOfWord 0#64
      ++ (bytesOfWord sigSp ++ bytesOfWord 2#64 ++ bytesOfWord sigSize) ++ bytesOfWord t.sigmask
      ++ replicate 128 0#8) ++ (t.machineContext ++ []) := by
    simp only [userContext, append_nil]
  rw [split]
  refine getD_part ?_
  rw [machineContext, length_load]
  exact inside

include aligned

/-- The `SigInfo` is pushed to other bytes than the frame above it. -/
theorem copyToUser_sigInfo {memory after : Memory}
    (done : pages.copyToUser memory (align (ucontext - BitVec.ofNat 64 sigInfoSize)).toNat (sigInfo signum) = some after) :
    ∀ index pa, index < userContextSize -> pages.translateVa (ucontext.toNat + index) = some pa ->
      after pa = memory pa := by
  have size : (sigInfo signum).length = sigInfoSize := by
    rfl
  have place := siginfoAddr_toNat aligned
  have word := (align (ucontext - BitVec.ofNat 64 sigInfoSize)).isLt
  intro index pa inside found
  by_cases fits : (align (ucontext - BitVec.ofNat 64 sigInfoSize)).toNat + (sigInfo signum).length <= usizeRange
  · have spec := copyToUser_written (by rw [size]; decide) (by rw [size]; decide) fits done
    refine spec.others pa fun other below => translateVa_apart ?_ found
    rw [size] at below
    rw [place]
    unfold userContextSize at inside
    unfold sigInfoSize at below
    unfold sigInfoSize usizeRange pageSize
    omega
  · rw [copyToUser_wrapped (by rw [size]; decide) word (Nat.lt_of_not_le fits)] at done
    cases done
    rfl

include fits clear in
theorem pushUserContext_framed {sigSize : BitVec 64}
    (done : t.pushUserContext signum ucontext (align (ucontext - BitVec.ofNat 64 sigInfoSize)) sigSize = some after) :
    Framed after ucontext t.sigmask t.machineContext := by
  rcases bind_eq_some_iff.mp done with ⟨first, copied, others⟩
  rcases bind_eq_some_iff.mp others with ⟨second, informed, finished⟩
  cases finished
  rcases copyToUser_eq_some copied with ⟨memory, written, rfl⟩
  rcases copyToUser_eq_some informed with ⟨later, told, rfl⟩
  have size := length_userContext t (align (ucontext - BitVec.ofNat 64 sigInfoSize)) sigSize
  have spec := copyToUser_written (by rw [size]; decide) (by rw [size]; decide) (by rw [size]; exact fits) written
  have plain : Pages.Plain (ucontext.toNat + mcontextOffset) machineContextSize := by
    have all := spec.plain
    unfold Pages.Plain at all ⊢
    unfold userContextSize floor pageSize usizeRange at *
    unfold mcontextOffset machineContextSize
    omega
  have pushed : Holds t.pages memory ucontext t.sigmask t.machineContext := by
    refine ⟨aligned, fits, length_load _ _ _, plain, ?_, ?_⟩
    · intro index inside
      rw [Nat.add_assoc, spec.bytes _ (by rw [size]; unfold sigmaskOffset userContextSize; omega),
        userContext_sigmask t _ _ inside]
    · intro index inside
      rw [Nat.add_assoc, spec.bytes _ (by
        rw [size]; unfold mcontextOffset userContextSize machineContextSize at *; omega),
        userContext_registers t _ _ inside]
  have first : Framed { t with memory := memory } ucontext t.sigmask t.machineContext := ⟨pushed, clear.same rfl rfl⟩
  have second := first.setReg (show a2 + 8 <= machineContextSize by decide) ucontext
  have third : Framed { ({ t with memory := memory } : Thread).setReg a2 ucontext with
      memory := later } ucontext t.sigmask t.machineContext :=
    ⟨second.holds.of_memory (copyToUser_sigInfo aligned told), clear.same rfl rfl⟩
  exact third.setReg (show a1 + 8 <= machineContextSize by decide) _

omit aligned

/-- The frame of a thread depends on its memory only. -/
theorem frame_with (t : Thread) (sigmask : Signals) (sighand : Nat -> Option SigAction) :
    ({ t with sigmask := sigmask, sighand := sighand } : Thread).frame = t.frame := rfl

/-- The registers that are set for the handler. -/
theorem Framed.entered
    (framed : Framed t ucontext sigmask registers) (aligned : ucontext.toNat % 8 = 0) (a0 ra pc : BitVec 64) :
    ((((t.setReg TrapContext.a0 a0).setReg TrapContext.sp (align (ucontext - BitVec.ofNat 64 sigInfoSize))).setReg
      TrapContext.ra ra).setReg TrapContext.pc pc).frame = some (sigmask, registers) := by
  have first := framed.setReg (show TrapContext.a0 + 8 <= machineContextSize by decide) a0
  have second := first.setReg (show sp + 8 <= machineContextSize by decide)
    (align (ucontext - BitVec.ofNat 64 sigInfoSize))
  have third := second.setReg (show TrapContext.ra + 8 <= machineContextSize by decide) ra
  have fourth := third.setReg (show TrapContext.pc + 8 <= machineContextSize by decide) pc
  apply Holds.frame_eq
  rw [frameAddr_of_sp aligned]
  · exact fourth.holds
  · rw [reg_setReg_apart _ _ (by decide), reg_setReg_apart _ _ (by decide), reg_setReg_same]

/-- After `do_signal` has entered a handler, `sys_sigreturn` would find the mask and the
registers from before. -/
theorem enterHandler_frame (room : RoomBelow (t.reg sp)) (clear : FrameClear t t.ucontextAddr)
    (done : t.enterHandler signum act = .ok after) : after.frame = some (t.sigmask, t.machineContext) := by
  rcases ucontextAddr_bounds room with ⟨aligned, fits⟩
  rw [enterHandler] at done
  split at done
  · cases done
  · rcases ok_of_bind_ok done with ⟨pushed, framed, others⟩
    rcases ok_of_bind_ok others with ⟨handler, _, finished⟩
    have first : Framed pushed t.ucontextAddr t.sigmask t.machineContext := by
      have framed := some_of_unwrap framed
      split at framed
      · exact pushUserContext_framed aligned fits clear framed
      · exact pushMachineContext_framed aligned fits clear framed
    rw [<- Except.ok.inj finished, <- first.entered aligned (BitVec.ofNat 64 signum)
      (if act.has SigAction.SA_RESTORER then act.restorer else SIGNAL_TRAMPOLINE) handler]
    exact frame_with _ _ _

theorem doSignal_of_handler {interrupted : Thread}
    (chosen : t.chooseSignal = .handler interrupted signum act) (syscall : Bool) :
    t.doSignal syscall = (interrupted.restartSyscall act syscall).enterHandler signum act := by
  rw [doSignal, chosen]

/-! ## Nesting -/

/-- What is known of a handler that has not returned: the registers and the mask that
were saved, and the stack pointer and the frame that the handler was given. -/
structure Saved where
  registers : List Byte
  sigmask : Signals
  sp : BitVec 64
  frame : Option (Signals × List Byte)

/-- The thread with the handlers that it is in, innermost first. -/
structure Nest where
  thread : Thread
  handlers : List Saved

/-- The saved state of a handler: the registers are those of the interrupted thread
after the adjustment of its system call. -/
def saved (interrupted after : Thread) (act : SigAction) (syscall : Bool) : Saved where
  registers := (interrupted.restartSyscall act syscall).machineContext
  sigmask := interrupted.sigmask
  sp := after.reg TrapContext.sp
  frame := after.frame

/-- The handler returns with the stack pointer that it was given, and has left its frame. -/
def Returns (t : Thread) (handler : Saved) : Prop :=
  t.reg TrapContext.sp = handler.sp /\ t.frame = handler.frame

/-- The steps of a thread with its handlers.  Each `sigreturn` is the return of the
innermost one. -/
inductive NestStep : Nest -> Event -> Nest -> Prop
  | enter {t interrupted after : Thread} {signum : Nat} {act : SigAction} {syscall : Bool} {handlers : List Saved}
      (chosen : t.chooseSignal = .handler interrupted signum act) (taken : Step t (.doSignal syscall) after) :
      NestStep ⟨t, handlers⟩ (.doSignal syscall) ⟨after, saved interrupted after act syscall :: handlers⟩
  | leave {t after : Thread} {handler : Saved} {handlers : List Saved} (returns : Returns t handler)
      (taken : Step t .sigreturn after) : NestStep ⟨t, handler :: handlers⟩ .sigreturn ⟨after, handlers⟩
  | within {t after : Thread} {event : Event} {handlers : List Saved}
      (enters : ∀ syscall interrupted signum act, event = .doSignal syscall ->
        t.chooseSignal ≠ .handler interrupted signum act)
      (leaves : event ≠ .sigreturn) (taken : Step t event after) : NestStep ⟨t, handlers⟩ event ⟨after, handlers⟩

/-- A frame, with its `SigInfo` if there is one, is pushed only where it does not wrap around and
does not reach into the trap context, and is still outside of it when its handler returns. -/
def Clear (nest : Nest) : Event -> Prop
  | .doSignal _ => ∀ interrupted signum act, nest.thread.chooseSignal = .handler interrupted signum act ->
      RoomBelow (nest.thread.reg TrapContext.sp) /\ FrameClear nest.thread nest.thread.ucontextAddr /\
        (act.has SigAction.SA_SIGINFO = true ->
          nest.thread.Apart (align (nest.thread.ucontextAddr - BitVec.ofNat 64 sigInfoSize)) sigInfoSize)
  | .sigreturn => FrameClear nest.thread nest.thread.frameAddr
  | _ => True

/-- The frame of every handler has what was saved for it. -/
def FramesTrue (nest : Nest) : Prop :=
  ∀ handler ∈ nest.handlers, handler.frame = some (handler.sigmask, handler.registers) /\
    handler.registers.length = machineContextSize

theorem FramesTrue.step {nest after : Nest} {event : Event} (frames : FramesTrue nest) (clear : Clear nest event)
    (taken : NestStep nest event after) : FramesTrue after := by
  cases taken with
  | enter chosen taken =>
    rename_i t interrupted reached signum act syscall handlers
    intro handler member
    rcases mem_cons.mp member with newest | older
    · rw [newest]
      rcases chooseLoop_handler chosen with ⟨_, same⟩
      rcases clear interrupted signum act chosen with ⟨room, apart, _⟩
      rcases restartSyscall_keeps interrupted act syscall with ⟨sp, pages, trapCxPpn, sigmask⟩
      have entered : (interrupted.restartSyscall act syscall).enterHandler signum act = .ok reached :=
        (doSignal_of_handler chosen syscall).symm.trans taken
      have before : interrupted.reg TrapContext.sp = t.reg TrapContext.sp := by
        rw [same]
        rfl
      have place : (interrupted.restartSyscall act syscall).ucontextAddr = t.ucontextAddr := by
        rw [ucontextAddr, ucontextAddr, sp, before]
      have framed := enterHandler_frame (by rw [sp, before]; exact room)
        (by rw [place]; exact apart.same (pages.trans (by rw [same])) (trapCxPpn.trans (by rw [same]))) entered
      rw [sigmask] at framed
      simp only [saved]
      exact ⟨framed, length_load _ _ _⟩
    · exact frames handler older
  | leave returns taken => exact fun handler member => frames handler (mem_cons_of_mem _ member)
  | within enters leaves taken => exact frames

/-- A frame that can be read is restored. -/
theorem sysSigreturn_of_frame (found : t.frame = some (sigmask, registers)) :
    t.sysSigreturn = .ok (({ t with sigmask := sigmask, memory := t.memory.store t.cx registers } : Thread).reg
      a0, { t with sigmask := sigmask, memory := t.memory.store t.cx registers }) := by
  rcases bind_eq_some_iff.mp found with ⟨_, masked, others⟩
  rcases bind_eq_some_iff.mp others with ⟨_, copied, same⟩
  cases same
  rw [sysSigreturn]
  simp only [masked, unwrap, copied]
  rfl

variable {handlers : List Saved} {start : Thread}

/-- In every nesting of handlers whose frames are clear, a handler that returns with its
stack pointer and its frame goes back to the registers and the mask that were saved for it. -/
theorem frames_nest {handler : Saved}
    (run : Reached (Guarded Clear NestStep) ⟨start, []⟩ ⟨t, handler :: handlers⟩) (returns : Returns t handler) :
    ∃ result after, t.sysSigreturn = .ok (result, after) /\
      after.machineContext = handler.registers /\ after.sigmask = handler.sigmask /\
      result = after.reg TrapContext.a0 := by
  have frames := @Reached.invariant _ _ _ _ _ FramesTrue run nofun fun before event after held taken =>
    held.step taken.1 taken.2
  rcases frames handler mem_cons_self with ⟨found, size⟩
  rw [<- returns.2] at found
  refine ⟨_, _, sysSigreturn_of_frame found, ?_, rfl, rfl⟩
  have loaded := load_store_same t.memory t.cx handler.registers
  rw [size] at loaded
  exact loaded

/-! ## Two handlers, and a frame over the trap context -/

/-- Pages none of which has the frame of the trap context are clear. -/
theorem apart_of_pages (other : ∀ vpn ppn, t.pages vpn = some ppn -> ppn ≠ t.trapCxPpn)
    (address : BitVec 64) (size : Nat) : t.Apart address size := by
  intro index pa inside found covered
  rcases map_eq_some_iff.mp found with ⟨ppn, frame, rfl⟩
  refine other _ ppn frame ?_
  unfold cx trapContextSize at covered
  unfold pageOffset at covered
  unfold pageSize at *
  omega

/-- A thread with one stack page, two pending signals and a handler for each. -/
def interruptedTwice : Thread where
  memory := Memory.storeWord (fun _ => 0#8) (9 * 4096 + TrapContext.sp) 0xbfffe800#64
  pages := fun vpn => if vpn = 0xbfffe then some 5 else none
  trapCxPpn := 9
  ustackBase := 0xbffff000#64
  sigmask := .empty
  sigpending := (Signals.single 10).insert (Signals.single 12)
  sighand := fun index =>
    if index = 9 then some ⟨0x20000#64, SigAction.SA_SIGINFO, 0#64, .empty⟩
    else if index = 11 then some ⟨0x21000#64, 0#64, 0#64, .empty⟩
    else none

/-- The state after a step that succeeds. -/
def reachedOr (given : Thread) : Except Stop Thread -> Thread
  | .ok t => t
  | .error _ => given

theorem ok_of_isOk {given : Thread} {result : Except Stop Thread} (good : result.isOk = true) :
    result = .ok (reachedOr given result) := by
  cases result with
  | error stop => cases good
  | ok t => rfl

def firstHandler : Thread := reachedOr interruptedTwice (interruptedTwice.doSignal false)

def secondHandler : Thread := reachedOr interruptedTwice (firstHandler.doSignal false)

/-- The signal and the action that a choice leads to, if there is a handler. -/
def Choice.action : Choice -> Option (Nat × SigAction)
  | .handler _ signum act => some (signum, act)
  | _ => none

theorem handler_of_action {choice : Choice} (chosen : choice.action = some (signum, act)) :
    ∃ interrupted, choice = .handler interrupted signum act := by
  cases choice with
  | handler interrupted number action =>
    cases chosen
    exact ⟨interrupted, rfl⟩
  | nothing other | stop other | exit number => cases chosen

/-- A handler is entered where the frame is clear. -/
theorem reached_enter (run : Reached (Guarded Clear NestStep) ⟨start, []⟩ ⟨t, handlers⟩)
    (chosen : t.chooseSignal.action = some (signum, act)) (taken : t.doSignal false = .ok after)
    (room : RoomBelow (t.reg sp)) (clear : ∀ address size, t.Apart address size) :
    ∃ handler, Reached (Guarded Clear NestStep) ⟨start, []⟩ ⟨after, handler :: handlers⟩ /\
      Returns after handler := by
  rcases handler_of_action chosen with ⟨interrupted, choice⟩
  have one : Guarded Clear NestStep ⟨t, handlers⟩ (.doSignal false)
      ⟨after, saved interrupted after act false :: handlers⟩ :=
    ⟨fun _ _ _ _ => ⟨room, clear _ _, fun _ => clear _ _⟩, .enter choice taken⟩
  exact ⟨_, run.next one, rfl, rfl⟩

/-- The handler of the second signal is entered within that of the first, and returns to it. -/
theorem inner_handler_returns :
    ∃ t inner outer,
      Reached (Guarded Clear NestStep) ⟨interruptedTwice, []⟩ ⟨t, [inner, outer]⟩ /\ Returns t inner /\
      ∃ result after, t.sysSigreturn = .ok (result, after) /\
        after.machineContext = inner.registers /\ after.sigmask = inner.sigmask /\
        result = after.reg TrapContext.a0 := by
  have first : interruptedTwice.doSignal false = .ok firstHandler := ok_of_isOk (by decide +kernel)
  have second : firstHandler.doSignal false = .ok secondHandler := ok_of_isOk (by decide +kernel)
  have apart : ∀ vpn ppn, interruptedTwice.pages vpn = some ppn -> ppn ≠ interruptedTwice.trapCxPpn := by
    intro vpn ppn found
    change (if vpn = 0xbfffe then some 5 else none) = some ppn at found
    split at found
    · cases found
      decide
    · cases found
  have chosen : interruptedTwice.chooseSignal.action =
      some (10, ⟨0x20000#64, SigAction.SA_SIGINFO, 0#64, .empty⟩) := by decide +kernel
  have entered := first
  rcases handler_of_action chosen with ⟨interrupted, choice⟩
  rw [doSignal_of_handler choice] at entered
  rcases enterHandler_keeps entered with ⟨pages, trapCxPpn, _⟩
  rcases chooseLoop_handler choice with ⟨pending, same⟩
  rcases restartSyscall_keeps interrupted ⟨0x20000#64, SigAction.SA_SIGINFO, 0#64, .empty⟩ false with
    ⟨_, sameA, sameB, _⟩
  rw [sameA, same] at pages
  rw [sameB, same] at trapCxPpn
  rcases reached_enter .refl chosen first (by decide +kernel) (apart_of_pages apart) with ⟨outer, begun, _⟩
  rcases reached_enter begun (show firstHandler.chooseSignal.action = some (12, ⟨0x21000#64, 0#64, 0#64, .empty⟩) by
    decide +kernel) second (by decide +kernel) (apart_of_pages (by rw [pages, trapCxPpn]; exact apart)) with
    ⟨inner, reached, returns⟩
  exact ⟨secondHandler, inner, outer, reached, returns, frames_nest reached returns⟩

/-- The stack pointer is 1080 bytes above the trap context of the thread, so that the mask of
its frame lies over `f21`. -/
def overlapping : Thread where
  memory := Memory.storeWord (Memory.storeWord (fun _ => 0#8) (9 * 4096 + TrapContext.sp) 0xffffffffffffc438#64)
    (9 * 4096 + 424) 0x1234#64
  pages := fun vpn => if vpn = 0x7fffffc then some 9 else none
  trapCxPpn := 9
  ustackBase := 0xbffff000#64
  sigmask := .empty
  sigpending := Signals.single 10
  sighand := fun index => if index = 9 then some ⟨0x20000#64, 0#64, 0#64, .empty⟩ else none

/-- The thread in its handler. -/
def overlapped : Thread := reachedOr overlapping (overlapping.doSignal false)

/-- The thread after the handler has returned. -/
def returned : Thread := reachedOr overlapped (overlapped.exec .sigreturn)

/-- The handler returns at once, and `f21` has the mask. -/
theorem frame_over_trap_context :
    ∃ handler, Reached NestStep ⟨overlapping, []⟩ ⟨overlapped, [handler]⟩ /\
      Returns overlapped handler /\ Step overlapped .sigreturn returned /\
      overlapping.reg 424 = 0x1234#64 /\ returned.reg 424 = 0#64 /\ returned.machineContext ≠ handler.registers := by
  have chosen : overlapping.chooseSignal =
      .handler { overlapping with sigpending := .empty } 10 ⟨0x20000#64, 0#64, 0#64, .empty⟩ := by rfl
  have entered : Step overlapping (.doSignal false) overlapped := ok_of_isOk (by decide +kernel)
  have left : Step overlapped .sigreturn returned := ok_of_isOk (by decide +kernel)
  refine ⟨_, Reached.refl.next (.enter chosen entered), ⟨rfl, rfl⟩, left, by decide +kernel, by decide +kernel, ?_⟩
  intro same
  have byte := congrArg (fun registers => registers.getD 424 0) same
  revert byte
  decide +kernel

end Thread

end GCore.Task
