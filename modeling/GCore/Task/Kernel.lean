import Mathlib.Data.List.Sort
import GCore.Errno
import GCore.Task.Signals

namespace GCore.Task

/-!
# Tasks, run queues and wait queues

The state that the scheduler, the wait queues, the timed sleeps and the process
tree work on, on one hart.  Task control blocks live on a heap; an `Arc` or a
`Weak` to one is its number there, and a `Weak` upgrades exactly while the block
has not been dropped.  The strong references are the places that hold an `Arc`:
the processor, the two queues of the `TaskManager`, the children lists, the
static `INITPROC`, and the kernel stack of a task that was suspended in the
middle of a system call that keeps one (`sys_wait4` and the ends of a pipe do).

System calls that block end in `block_current_and_run_next`; what such a call
does after the task runs again is kept in the field `suspended` of the task,
which stands for the frames on its kernel stack.

A kernel that stops is an error: `Halt` says whether by an `unwrap` of nothing,
by an assertion or by a lock taken twice.  `idle` is no failure; it is the
answer to an event that needs a running task when there is none.
-/

/-! ## Time -/

def NSEC_PER_SEC : Nat := 1000000000

/-- `CLOCK_FREQ` of `hal/platform/riscv/qemu.rs`. -/
def CLOCK_FREQ : Nat := 12500000

structure TimeSpec where
  tvSec : Nat
  tvNsec : Nat
deriving DecidableEq, Repr

namespace TimeSpec

/-- `Add for TimeSpec`, on machine words. -/
def add (self other : TimeSpec) : TimeSpec :=
  let sec := (self.tvSec + other.tvSec) % 2 ^ 64
  let nsec := (self.tvNsec + other.tvNsec) % 2 ^ 64
  { tvSec := (sec + nsec / NSEC_PER_SEC) % 2 ^ 64, tvNsec := nsec % NSEC_PER_SEC }

/-- `Ord for TimeSpec`: seconds first. -/
def Before (self other : TimeSpec) : Prop :=
  self.tvSec < other.tvSec \/ (self.tvSec = other.tvSec /\ self.tvNsec <= other.tvNsec)

instance (self other : TimeSpec) : Decidable (self.Before other) :=
  inferInstanceAs (Decidable (_ \/ _))

def fromTick (tick : Nat) : TimeSpec where
  tvSec := tick / CLOCK_FREQ
  tvNsec := (tick % CLOCK_FREQ) * NSEC_PER_SEC / CLOCK_FREQ

theorem Before.trans {a b c : TimeSpec} (first : a.Before b) (second : b.Before c) : a.Before c := by
  rcases first with sooner | ⟨same, sooner⟩ <;> rcases second with later | ⟨equal, later⟩
  · exact .inl (sooner.trans later)
  · exact .inl (equal ▸ sooner)
  · exact .inl (same ▸ later)
  · exact .inr ⟨same.trans equal, sooner.trans later⟩

theorem fromTick_before {tick later : Nat} (ordered : tick <= later) :
    (fromTick tick).Before (fromTick later) := by
  have seconds : tick / CLOCK_FREQ <= later / CLOCK_FREQ := Nat.div_le_div_right ordered
  rcases seconds.lt_or_eq with sooner | same
  · exact .inl sooner
  · refine .inr ⟨same, ?_⟩
    have first := Nat.div_add_mod tick CLOCK_FREQ
    have second := Nat.div_add_mod later CLOCK_FREQ
    have rest : tick % CLOCK_FREQ <= later % CLOCK_FREQ := by
      rw [same] at first
      omega
    exact Nat.div_le_div_right (Nat.mul_le_mul_right _ rest)

end TimeSpec

/-! ## Identifiers -/

/-- `RecycleAllocator` of `task/pid.rs`; the end of `recycled` is the head of the list. -/
structure RecycleAllocator where
  current : Nat
  recycled : List Nat
deriving DecidableEq, Repr

namespace RecycleAllocator

def new : RecycleAllocator where
  current := 1
  recycled := []

def alloc (self : RecycleAllocator) : Nat × RecycleAllocator :=
  match self.recycled with
  | id :: rest => (id, { self with recycled := rest })
  | [] => (self.current, { self with current := self.current + 1 })

/-- Fails where one of the two assertions does. -/
def dealloc (self : RecycleAllocator) (id : Nat) : Option RecycleAllocator :=
  if id < self.current /\ id ∉ self.recycled then some { self with recycled := id :: self.recycled }
  else none

def getAllocated (self : RecycleAllocator) : Nat := self.current - self.recycled.length

/-- The states of an allocator whose callers release only what they hold, with the held ids. -/
inductive Held : RecycleAllocator -> List Nat -> Prop
  | new : Held new []
  | alloc {self : RecycleAllocator} {held : List Nat} (before : Held self held) :
      Held self.alloc.2 (self.alloc.1 :: held)
  | dealloc {self after : RecycleAllocator} {held : List Nat} {id : Nat} (before : Held self held)
      (member : id ∈ held) (released : self.dealloc id = some after) : Held after (held.erase id)

/-- Behind `0`, which is never given away, each id below `current` is either recycled or held. -/
theorem Held.perm {self : RecycleAllocator} {held : List Nat} (run : Held self held) :
    (0 :: (self.recycled ++ held)).Perm (List.range self.current) := by
  induction run with
  | new => exact .refl _
  | @alloc self held _ ih =>
    unfold RecycleAllocator.alloc
    cases recycled : self.recycled with
    | cons id rest =>
      rw [recycled] at ih
      exact (List.perm_middle.cons 0).trans ih
    | nil =>
      rw [recycled] at ih
      rw [List.range_succ]
      exact ((List.perm_append_singleton self.current held).symm.cons 0).trans (ih.append_right _)
  | @dealloc self after held id _ member released ih =>
    rw [RecycleAllocator.dealloc] at released
    split at released
    · cases released
      exact ((List.perm_middle.symm.trans ((List.perm_cons_erase member).symm.append_left _)).cons 0).trans ih
    · cases released

/-- Held ids differ and can be released; `getAllocated` counts one id more than are held. -/
theorem held_ids_are_one_fewer {self : RecycleAllocator} {held : List Nat} (run : Held self held) :
    held.Nodup /\ (∀ id ∈ held, (self.dealloc id).isSome = true) /\ self.getAllocated = held.length + 1 := by
  have distinct := (List.nodup_cons.mp (run.perm.nodup_iff.mpr List.nodup_range)).2
  have count := run.perm.length_eq
  rw [List.length_cons, List.length_append, List.length_range] at count
  refine ⟨distinct.of_append_right, ?_, by rw [getAllocated]; omega⟩
  intro id member
  have below : id < self.current := by
    apply List.mem_range.mp
    exact run.perm.mem_iff.mp (List.mem_cons_of_mem 0 (List.mem_append_right _ member))
  rw [RecycleAllocator.dealloc, if_pos ⟨below, fun recycled => List.disjoint_of_nodup_append distinct recycled member⟩]
  rfl

theorem one_held_id_counts_two : (alloc new).2.getAllocated = 2 := (held_ids_are_one_fewer (.alloc .new)).2.2

theorem no_held_id_counts_one : Held new [] /\ new.getAllocated = 1 := ⟨.new, rfl⟩

end RecycleAllocator

/-! ## Task control blocks -/

abbrev TaskId := Nat

inductive TaskStatus
  | ready
  | running
  | zombie
  | interruptible
deriving DecidableEq, Repr

/-- The system call in which a task is suspended, with what it compares once the
task runs again. -/
inductive Call
  | futexWait (word : Nat)
  | nanosleep (deadline : TimeSpec)
  | sigtimedwait (set : Signals) (start timeout : TimeSpec)
  /-- `fault` is the error of writing the status word, if there is one. -/
  | wait4 (pid : Int) (fault : Option Int)
  /-- `pinned` for a read or write of a pipe, whose callers keep their `Arc` of the running task. -/
  | other (pinned : Bool)
deriving DecidableEq, Repr

/-- The blocking calls that keep an `Arc` of the running task. -/
def Call.keepsArc : Call -> Bool
  | .wait4 _ _ => true
  | .other pinned => pinned
  | _ => false

/-- `TaskControlBlock` with its inner part, as far as scheduling, waiting and the
process tree read it.  `tidAllocator` and `futex` name the shared objects. -/
structure TaskControlBlock where
  pid : Nat
  tid : Nat
  tgid : Nat
  exitSignal : Signals
  tidAllocator : Nat
  futex : Nat
  sigmask : Signals
  sigpending : Signals
  taskStatus : TaskStatus
  parent : Option TaskId
  children : List TaskId
  exitCode : Nat
  clearChildTid : Nat
  suspended : Option Call
  /-- The suspended kernel stack of the task holds an `Arc` of the task. -/
  pinned : Bool
deriving DecidableEq, Repr

structure TimeoutWaiter where
  task : TaskId
  timeout : TimeSpec
deriving DecidableEq, Repr

structure Kernel where
  task : TaskId -> Option TaskControlBlock
  nextTask : TaskId
  current : Option TaskId
  readyQueue : List TaskId
  interruptibleQueue : List TaskId
  timeouts : List TimeoutWaiter
  /-- The wait queue of a word in a `Futex`; a missing key is an empty queue. -/
  futexes : Nat -> Nat -> List TaskId
  nextFutex : Nat
  pidAllocator : RecycleAllocator
  tidAllocators : Nat -> RecycleAllocator
  nextAllocator : Nat
  initproc : TaskId
  tick : Nat

inductive Halt
  | idle
  | unwrap
  | assertion
  | deadlock
deriving DecidableEq, Repr

abbrev Outcome := Except Halt

/-- A sequence succeeds exactly when both of its parts do. -/
theorem ok_of_bind_ok {α β : Type} {first : Outcome α} {second : α -> Outcome β} {result : β}
    (done : (first >>= second) = .ok result) :
    ∃ value, first = .ok value /\ second value = .ok result := by
  cases first with
  | error halt => cases done
  | ok value => exact ⟨value, rfl, done⟩

namespace Kernel

section Operations

variable (k : Kernel) (t : TaskId)

def now : TimeSpec := TimeSpec.fromTick k.tick

/-- Change the inner part of a task under its lock. -/
def modify (change : TaskControlBlock -> TaskControlBlock) : Kernel :=
  { k with task := Function.update k.task t ((k.task t).map change) }

def setStatus (status : TaskStatus) : Kernel :=
  k.modify t fun task => { task with taskStatus := status }

def addSignal (signal : Signals) : Kernel :=
  k.modify t fun task => { task with sigpending := task.sigpending.insert signal }

/-! ## `TaskManager` -/

def add : Kernel :=
  { k with readyQueue := k.readyQueue ++ [t] }

def addInterruptible : Kernel :=
  { k with interruptibleQueue := k.interruptibleQueue ++ [t] }

def dropInterruptible : Kernel :=
  { k with interruptibleQueue := k.interruptibleQueue.filter (· ≠ t) }

/-- The first task of the two queues whose block passes a test. -/
def find (test : TaskControlBlock -> Bool) : Option TaskId :=
  (k.readyQueue ++ k.interruptibleQueue).find? fun t => (k.task t).any test

def findByPid (pid : Nat) : Option TaskId := k.find fun task => task.pid == pid

/-- The flag is `true` for `Ok`, `false` for `Err(AlreadyWaken)`. -/
def tryWakeInterruptible (pid : Nat) : Bool × Kernel :=
  let k := k.dropInterruptible t
  match k.findByPid pid with
  | none => (true, k.add t)
  | some _ => (false, k)

def wakeInterruptible (pid : Nat) : Kernel :=
  (k.tryWakeInterruptible t pid).2

/-- The idle loop of `run_tasks`: the next ready task becomes the current one. -/
def fetch : Outcome Kernel :=
  match k.current with
  | some _ => .error .idle
  | none =>
    match k.readyQueue with
    | [] => .error .idle
    | t :: rest => .ok { k.setStatus t .running with current := some t, readyQueue := rest }

/-- `take_current_task().unwrap()`. -/
def takeCurrent : Outcome (TaskId × Kernel) :=
  match k.current with
  | none => .error .idle
  | some t => .ok (t, { k with current := none })

/-- The running task and its block. -/
def currentTask : Outcome (TaskId × TaskControlBlock) :=
  match k.current with
  | none => .error .idle
  | some t =>
    match k.task t with
    | none => .error .idle
    | some task => .ok (t, task)

end Operations

theorem takeCurrent_eq_ok {k idle : Kernel} {t : TaskId} (done : k.takeCurrent = .ok (t, idle)) :
    k.current = some t /\ idle = { k with current := none } := by
  rw [takeCurrent] at done
  split at done
  · cases done
  · rename_i current
    cases done
    exact ⟨current, rfl⟩

theorem currentTask_eq_ok {k : Kernel} {t : TaskId} {task : TaskControlBlock}
    (done : k.currentTask = .ok (t, task)) : k.current = some t /\ k.task t = some task := by
  rw [currentTask] at done
  split at done
  · cases done
  · rename_i current
    split at done
    · cases done
    · rename_i present
      cases done
      exact ⟨current, present⟩

/-- `pinned` says whether the suspended system call keeps an `Arc` of its task. -/
def suspendCurrentAndRunNext (k : Kernel) (pinned : Bool) : Outcome Kernel := do
  let (t, k) <- k.takeCurrent
  let k := k.modify t fun task => { task with taskStatus := .ready, pinned := pinned }
  .ok (k.add t)

def blockCurrentAndRunNext (k : Kernel) (call : Call) : Outcome Kernel := do
  let (t, k) <- k.takeCurrent
  let k := k.modify t fun task =>
    { task with taskStatus := .interruptible, suspended := some call, pinned := call.keepsArc }
  .ok (k.addInterruptible t)

/-! ## Wait queues -/

/-- The loop of `WaitQueue::wake_at_most`.  `held` is the task whose inner lock
the caller holds: the loop locks every task that it upgrades. -/
def wakeLoop (held : Option TaskId) (limit : Nat) :
    List TaskId -> Nat -> Kernel -> Outcome (Nat × List TaskId × Kernel)
  | [], count, k => .ok (count, [], k)
  | t :: rest, count, k =>
    match k.task t with
    | none => wakeLoop held limit rest count k
    | some task =>
      if held = some t then .error .deadlock
      else if task.taskStatus = .interruptible then
        let (woken, k) := (k.setStatus t .ready).tryWakeInterruptible t task.pid
        let count := if woken then count + 1 else count
        if count = limit then .ok (count, rest, k) else wakeLoop held limit rest count k
      else wakeLoop held limit rest count k

def wakeAtMost (held : Option TaskId) (limit : Nat) (queue : List TaskId) (k : Kernel) :
    Outcome (Nat × List TaskId × Kernel) :=
  if limit = 0 then .ok (0, queue, k) else wakeLoop held limit queue 0 k

def setFutex (k : Kernel) (futex word : Nat) (queue : List TaskId) : Kernel :=
  { k with futexes := Function.update k.futexes futex (Function.update (k.futexes futex) word queue) }

/-- `Futex::wake`. -/
def futexWake (held : Option TaskId) (futex word val : Nat) (k : Kernel) : Outcome (Nat × Kernel) := do
  let (count, rest, k) <- wakeAtMost held val (k.futexes futex word) k
  .ok (count, k.setFutex futex word rest)

/-- `wait_with_timeout`.  The heap is kept as a list with the earliest deadline in
front; the order among equal deadlines is left open by the heap. -/
def waitWithTimeout (k : Kernel) (t : TaskId) (timeout : TimeSpec) : Kernel :=
  { k with
    timeouts := k.timeouts.orderedInsert (fun a b => a.timeout.Before b.timeout) ⟨t, timeout⟩ }

/-- The loop of `TimeoutWaitQueue::wake_expired`. -/
def expireLoop (now : TimeSpec) : List TimeoutWaiter -> Kernel -> List TimeoutWaiter × Kernel
  | [], k => ([], k)
  | waiter :: rest, k =>
    if waiter.timeout.Before now then
      match k.task waiter.task with
      | none => expireLoop now rest k
      | some task =>
        if task.taskStatus = .interruptible then
          expireLoop now rest ((k.setStatus waiter.task .ready).wakeInterruptible waiter.task task.pid)
        else expireLoop now rest k
    else (waiter :: rest, k)

def doWakeExpired (k : Kernel) : Kernel :=
  let (rest, woken) := expireLoop k.now k.timeouts k
  { woken with timeouts := rest }

/-! ## Blocking system calls -/

/-- `do_futex_wait`.  `loaded` is what the futex word holds.  The answer `none`
means that the task was blocked. -/
def doFutexWait (k : Kernel) (word loaded val : Nat) (timeout : Option TimeSpec) :
    Outcome (Option Int × Kernel) := do
  let (t, task) <- k.currentTask
  if loaded ≠ val then .ok (some EAGAIN, k)
  else
    let k := k.setFutex task.futex word (k.futexes task.futex word ++ [t])
    let k := match timeout with
      | none => k
      | some timeout => k.waitWithTimeout t (timeout.add k.now)
    let k <- k.blockCurrentAndRunNext (.futexWait word)
    .ok (none, k)

/-- `sys_nanosleep` for a request that could be read. -/
def sysNanosleep (k : Kernel) (req : TimeSpec) : Outcome Kernel := do
  let (t, _) <- k.currentTask
  let deadline := k.now.add req
  (k.waitWithTimeout t deadline).blockCurrentAndRunNext (.nanosleep deadline)

/-- `sigtimedwait` for a set and a timeout that could be read. -/
def sigtimedwait (k : Kernel) (set : Signals) (timeout : TimeSpec) : Outcome Kernel := do
  let (t, _) <- k.currentTask
  let start := k.now
  (k.waitWithTimeout t (start.add timeout)).blockCurrentAndRunNext (.sigtimedwait set start timeout)

/-- What a blocked call answers when its task runs again.  `sys_wait4` goes round
its loop instead. -/
def afterBlock (now : TimeSpec) (task : TaskControlBlock) : Call -> Outcome Int
  | .futexWait _ =>
    .ok (if (task.sigpending.difference task.sigmask).isEmpty then SUCCESS else EINTR)
  | .nanosleep deadline =>
    if task.sigpending.isEmpty then
      if deadline.Before now then .ok SUCCESS else .error .assertion
    else .ok EINTR
  | .sigtimedwait set start timeout =>
    if task.sigpending.isEmpty then
      if (start.add timeout).Before now then .ok EAGAIN else .error .assertion
    else
      match Signals.peekFront (task.sigpending &&& set) with
      | some signum => .ok signum
      | none => .ok EINTR
  | .wait4 _ _ => .error .idle
  | .other _ => .ok SUCCESS

/-! ## Signals sent to tasks -/

/-- Add the signal and wake the task if it sleeps: the body shared by the three
kill calls and by `do_exit` for the parent. -/
def signalTask (k : Kernel) (t : TaskId) (task : TaskControlBlock) (signal : Signals) : Kernel :=
  if task.taskStatus = .interruptible then
    ((k.addSignal t signal).setStatus t .ready).wakeInterruptible t task.pid
  else k.addSignal t signal

/-- The common part of `sys_kill`, `sys_tkill` and `sys_tgkill`. -/
def sendSignal (k : Kernel) (t : TaskId) (signal : Signals) : Kernel :=
  match k.task t with
  | none => k
  | some task => if signal.isEmpty then k else k.signalTask t task signal

/-- `find_task_by_pid` and `find_task_by_tgid`: the running task first. -/
def findTask (k : Kernel) (test : TaskControlBlock -> Bool) : Outcome (Option TaskId) := do
  let (t, task) <- k.currentTask
  if test task then .ok (some t) else .ok (k.find test)

def sysKill (k : Kernel) (pid sig : Nat) : Outcome (Int × Kernel) :=
  match Signals.fromSignum sig with
  | .error _ => .ok (EINVAL, k)
  | .ok signal =>
    if 0 < pid then do
      match <- k.findTask (fun task => task.tgid == pid) with
      | some t => .ok (SUCCESS, k.sendSignal t signal)
      | none => .ok (ESRCH, k)
    else .ok (SUCCESS, k)

def sysTkill (k : Kernel) (tid sig : Nat) : Outcome (Int × Kernel) :=
  match Signals.fromSignum sig with
  | .error _ => .ok (EINVAL, k)
  | .ok signal =>
    if 0 < tid then do
      match <- k.findTask (fun task => task.pid == tid) with
      | some t => .ok (SUCCESS, k.sendSignal t signal)
      | none => .ok (ESRCH, k)
    else .ok (EINVAL, k)

def sysTgkill (k : Kernel) (tgid tid sig : Nat) : Outcome (Int × Kernel) :=
  match Signals.fromSignum sig with
  | .error _ => .ok (EINVAL, k)
  | .ok signal => do
      match <- k.findTask (fun task => task.tgid == tgid) with
      | some t =>
        if (k.task t).any (fun task => task.pid == tid) then .ok (SUCCESS, k.sendSignal t signal)
        else .ok (SUCCESS, k)
      | none => .ok (ESRCH, k)

end Kernel

end GCore.Task
