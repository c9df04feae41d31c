import GCore.Library.Bytes
import GCore.Mm.SteadyPages
import GCore.Task.Futex

namespace GCore.Task

open Library Kernel
open Mm (World floor pageOffset pageSize)
open Mm.World (Surroundings readBytes)

/-!
# The key of a futex

`sys_futex` translates the address of the futex word and takes the physical address for
the key of the wait queue.  The waker translates the address again, and it finds the
waiter if the page of the word is still in the same frame.

The tasks and the spaces are put together here: a system is a kernel, the world of its
address spaces, and the space of each task.  Between the call that waits and the call
that wakes, faults, forks and reclaim passes change the spaces.  The waiter is found if
none of them moves the page of the word.  After a fork, a write to the page copies it to
another frame while the child still has the old one, and the waiter is lost.
-/

/-! ## The operations on a `Futex` -/

inductive FutexCmd
  | wait
  | wake
  | fd
  | requeue
  | cmpRequeue
  | wakeOp
  | lockPi
  | unlockPi
  | trylockPi
  | waitBitset
  | invalid
deriving DecidableEq, Repr

def FutexCmd.fromPrimitive : Nat -> FutexCmd
  | 0 => .wait
  | 1 => .wake
  | 2 => .fd
  | 3 => .requeue
  | 4 => .cmpRequeue
  | 5 => .wakeOp
  | 6 => .lockPi
  | 7 => .unlockPi
  | 8 => .trylockPi
  | 9 => .waitBitset
  | _ => .invalid

namespace Kernel

/-- `Futex::requeue`.  The second queue is written last, so it is the one that stays if
both words are the same. -/
def futexRequeue (futex word word2 val val2 : Nat) (k : Kernel) : Outcome (Nat × Kernel) := do
  let (wakeCnt, k) <- if val = 0 then .ok (0, k) else futexWake none futex word val k
  let moved := (k.futexes futex word).take val2
  let rest := (k.futexes futex word).drop val2
  let k := k.setFutex futex word []
  let queue2 := k.futexes futex word2 ++ moved
  let k := k.setFutex futex word2 []
  let k := if rest.isEmpty then k else k.setFutex futex word rest
  let k := if queue2.isEmpty then k else k.setFutex futex word2 queue2
  .ok (wakeCnt + moved.length, k)

/-- `Futex::wake_op`. -/
def futexWakeOp (futex word word2 val : Nat) (doWake2 : Bool) (k : Kernel) : Outcome (Nat × Kernel) := do
  let (ret, k) <- futexWake none futex word (val % 2 ^ 31) k
  if doWake2 then do
    let (more, k) <- futexWake none futex word2 (val / 2 ^ 16 % 2 ^ 16) k
    .ok (ret + more, k)
  else .ok (ret, k)

/-- A task that `do_futex_wait` blocks is in the queue of the word. -/
theorem mem_futexes_of_doFutexWait {k after : Kernel} {t : TaskId} {task : TaskControlBlock} {word loaded val : Nat}
    {timeout : Option TimeSpec} (current : k.currentTask = .ok (t, task))
    (done : k.doFutexWait word loaded val timeout = .ok (none, after)) : t ∈ after.futexes task.futex word := by
  rcases ok_of_bind_ok done with ⟨⟨_, _⟩, found, answered⟩
  rw [current] at found
  cases found
  dsimp only at answered
  split at answered
  · cases answered
  · rcases ok_of_bind_ok answered with ⟨_, blocking, finished⟩
    cases finished
    rcases ok_of_bind_ok blocking with ⟨⟨_, _⟩, taken, queued⟩
    cases queued
    rw [(takeCurrent_eq_ok taken).2]
    have listed : t ∈ (k.setFutex task.futex word (k.futexes task.futex word ++ [t])).futexes task.futex word := by
      rw [futexes_setFutex, if_pos ⟨rfl, rfl⟩]
      exact List.mem_append_right _ (List.mem_singleton_self t)
    cases timeout with
    | none | some timeout => exact listed

end Kernel

/-- The new value of the second word, of which the operation 5 and above have none. -/
def wakeOpValue (op oldval cmparg : Nat) : Option Nat :=
  match op with
  | 0 => some cmparg
  | 1 => some ((oldval + cmparg) % 2 ^ 32)
  | 2 => some (oldval ||| cmparg)
  | 3 => some (oldval &&& (2 ^ 32 - 1 - cmparg))
  | 4 => some (oldval ^^^ cmparg)
  | _ => none

def wakeOpCond (cmp oldval cmparg : Nat) : Bool :=
  match cmp with
  | 0 => oldval = cmparg
  | 1 => oldval ≠ cmparg
  | 2 => oldval < cmparg
  | 3 => oldval <= cmparg
  | 4 => cmparg < oldval
  | 5 => cmparg <= oldval
  | _ => true

/-! ## The system call -/

def fromBytes (bytes : List Nat) : Nat := littleEndian (bytes.map (BitVec.ofNat 8))

def loadU32 (memory : Nat -> Mm.Page) (pa : Nat) : Nat := fromBytes (readBytes memory pa 4)

def storeU32 (memory : Nat -> Mm.Page) (pa value : Nat) : Nat -> Mm.Page :=
  Mm.writeBytes [value % 256, value / 256 % 256, value / 256 ^ 2 % 256, value / 256 ^ 3 % 256] pa memory

def TimeSpec.ofBytes (bytes : List Nat) : TimeSpec :=
  ⟨fromBytes (bytes.take 8), fromBytes (bytes.drop 8)⟩

structure System where
  world : World
  kernel : Kernel
  /-- the space that `vm` of a task is -/
  vm : TaskId -> Nat

namespace System

section Calls

variable (system : System) (surroundings : Surroundings) (t : TaskId)

/-- The start of the call: the word must be aligned, and it is translated. -/
def futexWord (uaddr : Nat) : Outcome (Except Int Nat × System) :=
  if uaddr = 0 \/ uaddr % 4 ≠ 0 then .ok (.error EINVAL, system)
  else
    match system.world.translatedRefmut (surroundings.within (system.vm t)) (system.vm t) uaddr with
    | none => .error .unwrap
    | some (word, world) => .ok (word, { system with world := world })

/-- `try_get_from_user`, of a `TimeSpec`. -/
def tryGetTimeout (timeout : Nat) : Outcome (Except Int (Option TimeSpec) × System) :=
  if timeout = 0 then .ok (.ok none, system)
  else
    match system.world.copyFromUser (surroundings.within (system.vm t)) (system.vm t) timeout 16 with
    | none => .error .unwrap
    | some (bytes, world) =>
      .ok (bytes.map (fun bytes => some (TimeSpec.ofBytes bytes)), { system with world := world })

/-- Both commands that wait; the answer `none` means that the task was blocked. -/
def futexWait (word val timeout : Nat) : Outcome (Option Int × System) := do
  let (timeout, system) <- system.tryGetTimeout surroundings t timeout
  match timeout with
  | .error errno => .ok (some errno, system)
  | .ok timeout => do
      let (answer, kernel) <- system.kernel.doFutexWait word (loadU32 system.world.memory word) val timeout
      .ok (answer, { system with kernel := kernel })

/-- The answer of a command that does not wait. -/
def counted (outcome : Outcome (Nat × Kernel)) : Outcome (Option Int × System) := do
  let (count, kernel) <- outcome
  .ok (some count, { system with kernel := kernel })

/-- The command that changes the second word before it wakes. -/
def futexWakeOp (task : TaskControlBlock) (word word2 val val3 : Nat) : Outcome (Option Int × System) :=
  let cmparg := val3 % 2 ^ 12
  let oldval := loadU32 system.world.memory word2
  match wakeOpValue (val3 / 2 ^ 28 % 16) oldval cmparg with
  | none => .ok (some EINVAL, system)
  | some newval =>
    let system := { system with world := system.world.withMemory (storeU32 system.world.memory word2 newval) }
    system.counted
      (Kernel.futexWakeOp task.futex word word2 val (wakeOpCond (val3 / 2 ^ 24 % 16) oldval cmparg) system.kernel)

def sysFutex (uaddr futexOp val timeout uaddr2 val3 : Nat) : Outcome (Option Int × System) := do
  let (t, task) <- system.kernel.currentTask
  let (word, system) <- system.futexWord surroundings t uaddr
  match word with
  | .error errno => .ok (some errno, system)
  | .ok word =>
    match FutexCmd.fromPrimitive (futexOp % 2 ^ 7) with
    | .wait => system.futexWait surroundings t word val timeout
    | .waitBitset =>
      if val3 = 0 then .ok (some EINVAL, system) else system.futexWait surroundings t word val timeout
    | .wake => system.counted (futexWake none task.futex word val system.kernel)
    | .requeue => do
        let (word2, system) <- system.futexWord surroundings t uaddr2
        match word2 with
        | .error errno => .ok (some errno, system)
        | .ok word2 =>
          system.counted (futexRequeue task.futex word word2 val (timeout % 2 ^ 32) system.kernel)
    | .wakeOp => do
        let (word2, system) <- system.futexWord surroundings t uaddr2
        match word2 with
        | .error errno => .ok (some errno, system)
        | .ok word2 => system.futexWakeOp task word word2 val val3
    | .invalid => .ok (some EINVAL, system)
    | _ => .ok (some ENOSYS, system)

end Calls

/-! ## A call that waits -/

variable {system after : System} {surroundings : Surroundings} {t : TaskId} {task : TaskControlBlock}
  {uaddr word val timeout : Nat}

theorem futexWord_eq_ok {result : Except Int Nat} (done : system.futexWord surroundings t uaddr = .ok (result, after)) :
    (result = .error EINVAL /\ after = system) \/ (¬ (uaddr = 0 \/ uaddr % 4 ≠ 0) /\ ∃ world,
      system.world.translatedRefmut (surroundings.within (system.vm t)) (system.vm t) uaddr = some (result, world) /\
        after = { system with world := world }) := by
  unfold futexWord at done
  split at done
  · cases done
    exact .inl ⟨rfl, rfl⟩
  · next aligned =>
    cases translated : system.world.translatedRefmut (surroundings.within (system.vm t)) (system.vm t) uaddr with
    | none => simp [translated] at done
    | some outcome =>
      rcases outcome with ⟨_, world⟩
      simp only [translated] at done
      cases done
      exact .inr ⟨aligned, world, rfl, rfl⟩

theorem counted_ne_blocked {outcome : Outcome (Nat × Kernel)} : system.counted outcome ≠ .ok (none, after) := by
  intro done
  rcases ok_of_bind_ok done with ⟨_, _, answered⟩
  cases answered

variable {waiter : TaskId} {futexOp val3 uaddr2 : Nat}

theorem futexWakeOp_ne_blocked {word2 : Nat} :
    system.futexWakeOp task word word2 val val3 ≠ .ok (none, after) := by
  unfold futexWakeOp
  dsimp only
  split
  · nofun
  · exact counted_ne_blocked

/-- Only the two commands that wait can block the task. -/
theorem sysFutex_eq_blocked
    (done : system.sysFutex surroundings uaddr futexOp val timeout uaddr2 val3 = .ok (none, after)) :
    ∃ t task word translated,
      system.kernel.currentTask = .ok (t, task) /\
      system.futexWord surroundings t uaddr = .ok (.ok word, translated) /\
      translated.futexWait surroundings t word val timeout = .ok (none, after) := by
  rcases ok_of_bind_ok done with ⟨⟨t, task⟩, current, started⟩
  rcases ok_of_bind_ok started with ⟨⟨result, translated⟩, found, answered⟩
  cases result with
  | error errno => cases answered
  | ok word =>
    refine ⟨t, task, word, translated, current, found, ?_⟩
    cases command : FutexCmd.fromPrimitive (futexOp % 2 ^ 7) with
    | wait =>
      rw [command] at answered
      exact answered
    | waitBitset =>
      rw [command] at answered
      dsimp only at answered
      split at answered
      · cases answered
      · exact answered
    | wake =>
      rw [command] at answered
      cases counted_ne_blocked answered
    | requeue =>
      rw [command] at answered
      rcases ok_of_bind_ok answered with ⟨⟨second, again⟩, _, moved⟩
      cases second with
      | error errno => cases moved
      | ok word2 => cases counted_ne_blocked moved
    | wakeOp =>
      rw [command] at answered
      rcases ok_of_bind_ok answered with ⟨⟨second, again⟩, _, changed⟩
      cases second with
      | error errno => cases changed
      | ok word2 => cases futexWakeOp_ne_blocked changed
    | fd | cmpRequeue | lockPi | unlockPi | trylockPi | invalid =>
      rw [command] at answered
      cases answered

theorem futexWait_eq_blocked (done : system.futexWait surroundings t word val timeout = .ok (none, after)) :
    ∃ deadline waited, system.tryGetTimeout surroundings t timeout = .ok (.ok deadline, waited) /\
      ∃ kernel, waited.kernel.doFutexWait word (loadU32 waited.world.memory word) val deadline =
        .ok (none, kernel) /\ after = { waited with kernel := kernel } := by
  rcases ok_of_bind_ok done with ⟨⟨deadline, waited⟩, read, answered⟩
  cases deadline with
  | error errno => cases answered
  | ok deadline =>
    rcases ok_of_bind_ok answered with ⟨⟨_, kernel⟩, blocked, finished⟩
    cases finished
    exact ⟨deadline, waited, read, kernel, blocked, rfl⟩

/-- Reading the timeout changes the spaces only. -/
theorem tryGetTimeout_eq_ok {result : Except Int (Option TimeSpec)}
    (done : system.tryGetTimeout surroundings t timeout = .ok (result, after)) :
    after = system \/ ∃ bytes world,
      system.world.copyFromUser (surroundings.within (system.vm t)) (system.vm t) timeout 16 = some (bytes, world) /\
        after = { system with world := world } := by
  unfold tryGetTimeout at done
  split at done
  · cases done
    exact .inl rfl
  · cases copied : system.world.copyFromUser (surroundings.within (system.vm t)) (system.vm t) timeout 16 with
    | none => simp [copied] at done
    | some outcome =>
      rcases outcome with ⟨bytes, world⟩
      simp only [copied, Except.ok.injEq, Prod.mk.injEq] at done
      exact .inr ⟨bytes, world, rfl, done.2.symm⟩

/-! ## Between the two calls -/

/-- What happens to the spaces, and which task runs. -/
inductive Event
  | memory (event : World.Event)
  | fetch
  | suspend (pinned : Bool)

def Step (before : System) : Event -> System -> Prop
  | .memory event, after => ∃ world, before.world.Step event world /\ after = { before with world := world }
  | .fetch, after => ∃ kernel, before.kernel.fetch = .ok kernel /\ after = { before with kernel := kernel }
  | .suspend pinned, after => ∃ kernel,
    before.kernel.suspendCurrentAndRunNext pinned = .ok kernel /\ after = { before with kernel := kernel }

/-- The event leaves the page in its frame. -/
def Spares (space vpn : Nat) (system : System) : Event -> Prop
  | .memory event => World.Spares space vpn system.world event
  | _ => True

/-- A task is in the queue whose key is the address of a word, in the frame that the page
of the word has. -/
structure Listed (space uaddr futex : Nat) (waiter : TaskId) (ppn : Nat) (system : System) : Prop where
  valid : system.world.Valid
  mapped : system.world.translate space (floor uaddr) = some ppn
  queued : waiter ∈ system.kernel.futexes futex (ppn * pageSize + pageOffset uaddr)

theorem Listed.step {space futex ppn : Nat} {event : Event}
    (listed : Listed space uaddr futex waiter ppn system) (spared : Spares space (floor uaddr) system event)
    (taken : Step system event after) : Listed space uaddr futex waiter ppn after /\ after.vm = system.vm := by
  cases event with
  | memory event =>
    rcases taken with ⟨_, step, rfl⟩
    exact ⟨⟨listed.valid.step step, listed.valid.translate_step listed.mapped step spared, listed.queued⟩, rfl⟩
  | fetch =>
    rcases taken with ⟨_, fetched, rfl⟩
    rcases fetch_eq_ok fetched with ⟨_, _, _, _, rfl⟩
    exact ⟨⟨listed.valid, listed.mapped, listed.queued⟩, rfl⟩
  | suspend pinned =>
    rcases taken with ⟨_, suspended, rfl⟩
    rcases suspend_eq_ok suspended with ⟨_, _, rfl⟩
    exact ⟨⟨listed.valid, listed.mapped, listed.queued⟩, rfl⟩

/-- A call that blocks lists the task under the address that the word has. -/
theorem listed_of_sysFutex (valid : system.world.Valid)
    (honest : surroundings.Honest system.world.held) (current : system.kernel.currentTask = .ok (t, task))
    (done : system.sysFutex surroundings uaddr futexOp val timeout uaddr2 val3 = .ok (none, after)) :
    ¬ (uaddr = 0 \/ uaddr % 4 ≠ 0) /\ after.vm = system.vm /\ ∃ ppn translated,
      system.futexWord surroundings t uaddr = .ok (.ok (ppn * pageSize + pageOffset uaddr), translated) /\
        Listed (system.vm t) uaddr task.futex t ppn after := by
  rcases sysFutex_eq_blocked done with ⟨_, _, _, translated, found, started, blocked⟩
  rw [current] at found
  cases found
  rcases futexWord_eq_ok started with ⟨wrong, _⟩ | ⟨aligned, world, walked, rfl⟩
  · cases wrong
  · rcases Mm.World.Valid.pinned_of_translatedRefmut (honest.within _) rfl valid rfl walked with ⟨ppn, rfl, pinned⟩
    rcases futexWait_eq_blocked blocked with ⟨_, waited, read, kernel, waiting, rfl⟩
    have kept : waited.kernel = system.kernel /\ waited.vm = system.vm /\
        Mm.World.Pinned (system.vm t) (floor uaddr) ppn system.world.held waited.world := by
      rcases tryGetTimeout_eq_ok read with rfl | ⟨_, _, copied, rfl⟩
      · exact ⟨rfl, rfl, pinned⟩
      · exact ⟨rfl, rfl, pinned.copyFromUser (honest.within _) rfl copied⟩
    rcases kept with ⟨kernel_eq, vm_eq, still⟩
    rw [kernel_eq] at waiting
    exact ⟨aligned, vm_eq, ppn, _, started, still.valid, still.mapped, mem_futexes_of_doFutexWait current waiting⟩

/-- The call of the waiter and the call of the waker use the same key, and the waker wakes
from the queue in which the waiter is. -/
def FindsWaiter (before : System) (surroundings : Surroundings) (waiter : TaskId) (uaddr : Nat) (system : System)
    (later : Surroundings) (waker : TaskId) (futex : Nat) : Prop :=
  ∃ key translated woken,
    before.futexWord surroundings waiter uaddr = .ok (.ok key, translated) /\
    system.futexWord later waker uaddr = .ok (.ok key, woken) /\
    waiter ∈ woken.kernel.futexes futex key /\
    ∀ call val timeout uaddr2 val3, FutexCmd.fromPrimitive (call % 2 ^ 7) = .wake ->
      system.sysFutex later uaddr call val timeout uaddr2 val3 =
        woken.counted (futexWake none futex key val woken.kernel)

theorem Listed.futexWord {space futex ppn : Nat} (listed : Listed space uaddr futex waiter ppn system)
    (aligned : ¬ (uaddr = 0 \/ uaddr % 4 ≠ 0)) (here : system.vm t = space) :
    system.futexWord surroundings t uaddr = .ok (.ok (ppn * pageSize + pageOffset uaddr), system) := by
  have walked : system.world.translateVa space uaddr = some (ppn * pageSize + pageOffset uaddr) :=
    Mm.World.translateVa_eq_some_iff.mpr ⟨ppn, listed.mapped, rfl⟩
  unfold System.futexWord Mm.World.translatedRefmut
  rw [if_neg aligned, here, walked]

/-- Two threads of one process on a space with a program. -/
def twoThreads (set : Mm.MemorySet) : System := ⟨.single set, crew, fun _ => 0⟩

/-- One thread waits for a word, the process forks, and the other thread comes to run.  A fault at
the page of the word takes place in the child first, or at once in the process itself. -/
theorem forked_while_waiting : ∃ set start forked copied written moved kernel waiting waking translated woken,
      Mm.MemorySet.loadSmallProgram = .ok set /\
      (twoThreads set).sysFutex (Mm.World.bareSurroundings 0) 0xbff00000 0 0 0 0 0 = .ok (none, start) /\
      World.Step start.world (.fork 0 [20]) forked /\
      World.Step forked (.fault 1 0xbff00000 ⟨some 21, 2, 0, none⟩) copied /\
      World.Step copied (.fault 0 0xbff00000 ⟨some 22, 1, 0, none⟩) written /\
      World.Step forked (.fault 0 0xbff00000 ⟨some 21, 2, 0, none⟩) moved /\
      start.kernel.fetch = .ok kernel /\
      (twoThreads set).kernel.currentTask = .ok (1, waiting) /\ kernel.currentTask = .ok (2, waking) /\
      (waking.futex = waiting.futex /\ start.vm 2 = start.vm 1) /\ waking.futex = 1 /\
      copied.mappedCount 0 0xbff00000 = some 1 /\
      (twoThreads set).futexWord (Mm.World.bareSurroundings 0) 1 0xbff00000 = .ok (.ok 0xb000, translated) /\
      System.futexWord ⟨moved, kernel, start.vm⟩ (Mm.World.bareSurroundings 0) 2 0xbff00000 = .ok (.ok 0x15000, woken) :=
  ⟨_, _, _, _, _, _, _, _, _, _, _, rfl, rfl, .fork_one (of_decide_eq_true rfl) rfl,
    .fault_one (of_decide_eq_true rfl) rfl rfl, .fault_one (of_decide_eq_true rfl) rfl rfl,
    .fault_one (of_decide_eq_true rfl) rfl rfl, rfl, rfl, rfl, ⟨rfl, rfl⟩, rfl, rfl, rfl, rfl⟩

section Runs

variable {admits : System -> Event -> Prop} {start : System}

theorem reached_memory {event : World.Event} {world : World} (run : Reached (Guarded admits Step) start system)
    (taken : system.world.Step event world) (admitted : admits system (.memory event)) :
    Reached (Guarded admits Step) start { system with world := world } :=
  run.next ⟨admitted, world, taken, rfl⟩

theorem reached_fetch {kernel : Kernel} (run : Reached (Guarded admits Step) start system)
    (taken : system.kernel.fetch = .ok kernel) (admitted : admits system .fetch) :
    Reached (Guarded admits Step) start { system with kernel := kernel } :=
  run.next ⟨admitted, kernel, taken, rfl⟩

end Runs

/-- Faults, forks, reclaim passes and switches of the running task. -/
def Paging : Event -> Prop
  | .memory (.fork _ _) => True
  | .memory (.fault _ _ _) => True
  | .memory (.shallowClean _ _) => True
  | .memory (.deepClean _ _) => True
  | .memory _ => False
  | .fetch => True
  | .suspend _ => True

end System

end GCore.Task
