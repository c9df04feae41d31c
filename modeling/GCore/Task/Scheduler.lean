import GCore.Task.Family

namespace GCore.Task

open Library List Option Kernel TaskControlBlock Reached

/-!
# The queues of the scheduler

A task that is alive and not running should be in exactly one of the two queues
of the `TaskManager`, the one that its status names.  Status and queue are
changed one after the other by many callers, so the invariant is stated for a
kernel in the middle of such a change as well: `Scheduled k out` lets the tasks
of `out` be outside of every queue.

Every wake-up goes through `try_wake_interruptible` after the caller has seen the
status `Interruptible`, and keeps the invariant as long as the task it wakes is
not one of `out`.  `exit_group_and_run_next` is the one place where that can
fail: it takes the other threads of the group out of the queues first, and the
exit of one of them may then wake another, as it does for a thread that joins
it.  That thread goes back to the ready queue and is made a zombie there.
-/

namespace Kernel

def status (k : Kernel) (t : TaskId) : Option TaskStatus := (k.task t).map taskStatus

/-- The place that a status names holds the task. -/
def Holds (k : Kernel) (t : TaskId) : TaskStatus -> Prop
  | .ready => t ∈ k.readyQueue
  | .interruptible => t ∈ k.interruptibleQueue
  | .running => k.current = some t
  | .zombie => False

/-- No two task control blocks have one process number. -/
def DistinctPids (k : Kernel) : Prop :=
  ∀ a b first second, k.task a = some first -> k.task b = some second ->
    first.pid = second.pid -> a = b

/-- Status and place agree for every task that is not in `out`, and the tasks of
`out` are in no place. -/
structure Scheduled (k : Kernel) (out : List TaskId) : Prop where
  readyNodup : k.readyQueue.Nodup
  interruptibleNodup : k.interruptibleQueue.Nodup
  placed : ∀ t status, k.Holds t status -> k.status t = some status /\ t ∉ out
  found : ∀ t status, k.status t = some status -> t ∉ out -> status = .zombie \/ k.Holds t status
  pids : k.DistinctPids

/-- The law of the two queues. -/
structure Orderly (k : Kernel) : Prop where
  /-- A live task that does not run is in exactly one queue, once, and has its status. -/
  queued : ∀ t task, k.task t = some task -> task.taskStatus ≠ .zombie -> k.current ≠ some t ->
    (task.taskStatus = .ready /\ k.readyQueue.count t = 1 /\ t ∉ k.interruptibleQueue) \/
      (task.taskStatus = .interruptible /\ k.interruptibleQueue.count t = 1 /\ t ∉ k.readyQueue)
  /-- The running task is in neither queue. -/
  running : ∀ t, k.current = some t ->
    k.status t = some .running /\ t ∉ k.readyQueue /\ t ∉ k.interruptibleQueue
  /-- What is in a queue exists and is no zombie. -/
  alive : ∀ t, t ∈ k.readyQueue \/ t ∈ k.interruptibleQueue ->
    ∃ task, k.task t = some task /\ task.taskStatus ≠ .zombie

variable {k after : Kernel} {t x : TaskId} {status : TaskStatus} {out queue children : List TaskId}
  {task : TaskControlBlock} {translate : TaskId -> Option Nat} {exitCode tgid : Nat}

/-- Blocks that keep their numbers keep them distinct. -/
theorem DistinctPids.congr {other : Kernel} (distinct : k.DistinctPids)
    (before : ∀ t task, other.task t = some task -> ∃ old, k.task t = some old /\ old.pid = task.pid) :
    other.DistinctPids := by
  intro a b first second foundFirst foundSecond equal
  rcases before a first foundFirst with ⟨x, xFound, xPid⟩
  rcases before b second foundSecond with ⟨y, yFound, yPid⟩
  exact distinct a b x y xFound yFound (by rw [xPid, yPid, equal])

theorem status_eq_some :
    k.status t = some status ↔
      ∃ task, k.task t = some task /\ task.taskStatus = status := by
  rw [Kernel.status, map_eq_some_iff]

/-- Every place but the queues and the processor is the same, and so are the
statuses and process numbers. -/
theorem Scheduled.congr {other : Kernel} (scheduled : Scheduled k out)
    (ready : other.readyQueue = k.readyQueue) (interruptible : other.interruptibleQueue = k.interruptibleQueue)
    (current : other.current = k.current)
    (same : ∀ t, (other.task t).map (fun task => (task.pid, task.taskStatus)) =
      (k.task t).map fun task => (task.pid, task.taskStatus)) : Scheduled other out := by
  have sameStatus : ∀ t, other.status t = k.status t := by
    intro t
    have both := congrArg (Option.map Prod.snd) (same t)
    rwa [Option.map_map, Option.map_map] at both
  have sameHolds : ∀ t status, other.Holds t status ↔ k.Holds t status := by
    intro t status
    cases status <;> simp only [Holds, ready, interruptible, current]
  refine ⟨ready ▸ scheduled.readyNodup, interruptible ▸ scheduled.interruptibleNodup, ?_, ?_, ?_⟩
  · intro t status held
    rw [sameStatus]
    exact scheduled.placed t status ((sameHolds t status).mp held)
  · intro t status given outside
    rw [sameStatus] at given
    rw [sameHolds]
    exact scheduled.found t status given outside
  · refine scheduled.pids.congr fun t task present => ?_
    have both := same t
    rw [present, map_some] at both
    rcases map_eq_some_iff.mp both.symm with ⟨old, oldFound, oldSame⟩
    exact ⟨old, oldFound, (Prod.mk.inj oldSame).1⟩

variable {change : TaskControlBlock -> TaskControlBlock} {list : List TaskId}

/-- A change of a task that leaves its number and its status alone. -/
theorem Scheduled.modify (scheduled : Scheduled k out) (t : TaskId)
    (kept : ∀ task, (change task).pid = task.pid /\ (change task).taskStatus = task.taskStatus) :
    Scheduled (k.modify t change) out := by
  refine scheduled.congr rfl rfl rfl fun x => ?_
  by_cases same : x = t
  · rw [same, task_modify_self, Option.map_map]
    congr 1
    funext task
    exact Prod.ext (kept task).1 (kept task).2
  · rw [task_modify_of_ne k same]

theorem status_modify_of_ne (k : Kernel) (different : x ≠ t)
    (change : TaskControlBlock -> TaskControlBlock) : (k.modify t change).status x = k.status x := by
  rw [Kernel.status, task_modify_of_ne k different, Kernel.status]

theorem DistinctPids.modify (distinct : k.DistinctPids) (t : TaskId)
    (kept : ∀ task, (change task).pid = task.pid) :
    (k.modify t change).DistinctPids := by
  refine distinct.congr fun x task present => ?_
  rcases task_of_modify present with ⟨_, old, found, rfl⟩ | ⟨_, found⟩
  · exact ⟨old, found, (kept old).symm⟩
  · exact ⟨task, found, rfl⟩

/-! ## Places -/

/-- A task has one place. -/
theorem Scheduled.unique {other : TaskStatus} (scheduled : Scheduled k out) (first : k.Holds t status)
    (second : k.Holds t other) : status = other :=
  some.inj ((scheduled.placed t status first).1.symm.trans (scheduled.placed t other second).1)

theorem Scheduled.holds_iff (scheduled : Scheduled k []) (live : status ≠ .zombie) :
    k.Holds t status ↔ k.status t = some status :=
  ⟨fun held => (scheduled.placed t status held).1, fun known =>
    (scheduled.found t status known not_mem_nil).resolve_left live⟩

theorem Scheduled.queued_iff (scheduled : Scheduled k []) : t ∈ k.readyQueue \/ t ∈ k.interruptibleQueue ↔
    k.status t = some .ready \/ k.status t = some .interruptible :=
  or_congr (@scheduled.holds_iff _ t .ready nofun) (@scheduled.holds_iff _ t .interruptible nofun)

/-- Tasks leave their places. -/
theorem Scheduled.remove {gone : List TaskId} (scheduled : Scheduled k out) (heap : after.task = k.task)
    (readyNodup : after.readyQueue.Nodup) (interruptibleNodup : after.interruptibleQueue.Nodup)
    (places : ∀ x given, after.Holds x given ↔ k.Holds x given /\ x ∉ gone) : Scheduled after (gone ++ out) := by
  have statuses : ∀ x, after.status x = k.status x := by
    intro x
    rw [Kernel.status, heap, Kernel.status]
  have pids : after.DistinctPids := by
    rw [DistinctPids, heap]
    exact scheduled.pids
  refine ⟨readyNodup, interruptibleNodup, ?_, ?_, pids⟩
  · intro x given held
    rcases (places x given).mp held with ⟨old, stays⟩
    rcases scheduled.placed x given old with ⟨known, outside⟩
    exact ⟨(statuses x).trans known, fun member => (mem_append.mp member).elim stays outside⟩
  · intro x given known outside
    rw [mem_append, not_or] at outside
    rcases scheduled.found x given ((statuses x).symm.trans known) outside.2 with dead | held
    · exact .inl dead
    · exact .inr ((places x given).mpr ⟨held, outside.1⟩)

/-- One task leaves its place. -/
theorem Scheduled.leave (scheduled : Scheduled k out) (here : k.Holds t status) (heap : after.task = k.task)
    (readyNodup : after.readyQueue.Nodup) (interruptibleNodup : after.interruptibleQueue.Nodup)
    (places : ∀ x given, after.Holds x given ↔ k.Holds x given /\ (given = status -> x ≠ t)) :
    Scheduled after (t :: out) := by
  change Scheduled after ([t] ++ out)
  refine scheduled.remove heap readyNodup interruptibleNodup fun x given => ?_
  rw [places, mem_singleton]
  refine and_congr_right fun held => ⟨fun left same => ?_, fun different _ => different⟩
  exact left (scheduled.unique (same ▸ held) here) same

theorem Scheduled.not_holds (scheduled : Scheduled k (t :: out)) (status : TaskStatus) : ¬ k.Holds t status :=
  fun held => (scheduled.placed t status held).2 mem_cons_self

/-- A task without a place gets a status and the place that it names. -/
theorem Scheduled.enter (scheduled : Scheduled k (t :: out)) (inside : t ∉ out) (present : k.task t = some task)
    (heap : after.task = (k.modify t change).task) (kept : ∀ task, (change task).pid = task.pid)
    (named : (change task).taskStatus = status) (readyNodup : after.readyQueue.Nodup)
    (interruptibleNodup : after.interruptibleQueue.Nodup)
    (places : ∀ x given, after.Holds x given ↔ k.Holds x given \/ x = t /\ given = status) :
    Scheduled after out := by
  have self : after.status t = some status := by
    rw [Kernel.status, heap, task_modify_self, present, <- named]
    rfl
  have statuses : ∀ x ≠ t, after.status x = k.status x := by
    intro x different
    rw [Kernel.status, heap]
    exact status_modify_of_ne k different change
  have pids : after.DistinctPids := by
    rw [DistinctPids, heap]
    exact scheduled.pids.modify t kept
  refine ⟨readyNodup, interruptibleNodup, ?_, ?_, pids⟩
  · intro x given held
    rcases (places x given).mp held with old | ⟨rfl, rfl⟩
    · have different : x ≠ t := fun same => scheduled.not_holds given (same ▸ old)
      rcases scheduled.placed x given old with ⟨known, outside⟩
      exact ⟨(statuses x different).trans known, fun member => outside (mem_cons_of_mem t member)⟩
    · exact ⟨self, inside⟩
  · intro x given known outside
    rw [places]
    by_cases same : x = t
    · subst same
      rw [self] at known
      cases known
      exact .inr (.inr ⟨rfl, rfl⟩)
    · rw [statuses x same] at known
      exact (scheduled.found x given known fun member => (mem_cons.mp member).elim same outside).imp_right .inl

/-! ## Waking one task -/

/-- Ready the task, take it out of the interruptible queue and put it behind the ready ones. -/
def ready (k : Kernel) (t : TaskId) : Kernel :=
  ((k.setStatus t .ready).dropInterruptible t).add t

variable (scheduled : Scheduled k out)

include scheduled

theorem Scheduled.not_mem_ready (blocked : k.status t = some .interruptible) : t ∉ k.readyQueue := by
  intro member
  have other := (scheduled.placed t .ready member).1
  rw [blocked] at other
  cases other

theorem Scheduled.running (current : k.current = some t) (present : k.task t = some task) :
    task.taskStatus = .running := by
  rcases status_eq_some.mp (scheduled.placed t .running current).1 with ⟨_, found, named⟩
  rw [present] at found
  cases found
  exact named

/-- What a wake-up relies on: the numbers are distinct, and no sleeping task is among the ready ones. -/
structure Wakeable (k : Kernel) : Prop where
  pids : k.DistinctPids
  apart : ∀ t, k.status t = some .interruptible -> t ∉ k.readyQueue

theorem Scheduled.wakeable : Wakeable k := ⟨scheduled.pids, fun _ => scheduled.not_mem_ready⟩

omit scheduled

/-- A task that was seen to be interruptible can be woken: its number is not found in a queue. -/
theorem Wakeable.tryWake (wakeable : Wakeable k) (present : k.task t = some task) (blocked : task.taskStatus = .interruptible) :
    (k.setStatus t .ready).tryWakeInterruptible t task.pid = (true, k.ready t) := by
  have blockedStatus : k.status t = some .interruptible := status_eq_some.mpr ⟨task, present, blocked⟩
  have absent : ((k.setStatus t .ready).dropInterruptible t).findByPid task.pid = none := by
    rw [findByPid, find, find?_eq_none]
    intro x member matching
    have different : x ≠ t := by
      intro same
      subst same
      rcases mem_append.mp member with inReady | inInterruptible
      · exact wakeable.apart x blockedStatus inReady
      · simp [dropInterruptible] at inInterruptible
    have seen : (k.task x).any (fun other => other.pid == task.pid) = true := by
      have unchanged : ((k.setStatus t .ready).dropInterruptible t).task x = k.task x :=
        task_modify_of_ne k different
      rwa [unchanged] at matching
    rw [Option.any_eq_true] at seen
    rcases seen with ⟨other, otherFound, equal⟩
    exact different (wakeable.pids x t other task otherFound present (by simpa using equal))
  rw [tryWakeInterruptible]
  simp only [absent]
  rfl

theorem status_ready_self (given : k.status t = some status) : (k.ready t).status t = some .ready := by
  rcases status_eq_some.mp given with ⟨task, present, _⟩
  rw [status_eq_some]
  refine ⟨{ task with taskStatus := .ready }, ?_, rfl⟩
  change (k.setStatus t .ready).task t = _
  rw [setStatus, task_modify_self, present]
  rfl

theorem status_ready_of_ne (k : Kernel) (different : x ≠ t) : (k.ready t).status x = k.status x :=
  status_modify_of_ne k different _

theorem nodup_concat (nodup : queue.Nodup) (absent : t ∉ queue) : (queue ++ [t]).Nodup := by
  rw [nodup_append]
  refine ⟨nodup, nodup_singleton t, ?_⟩
  intro x member y last equal
  rw [mem_singleton] at last
  exact absent (last ▸ equal ▸ member)

theorem mem_concat : x ∈ queue ++ [t] ↔ x ∈ queue \/ x = t := by
  rw [mem_append, mem_singleton]

/-- A task without a place is readied and put behind the ready ones. -/
theorem Scheduled.enqueue (scheduled : Scheduled k (t :: out)) (inside : t ∉ out) (present : k.task t = some task)
    (kept : ∀ task, (change task).pid = task.pid) (named : (change task).taskStatus = .ready) :
    Scheduled ((k.modify t change).add t) out := by
  refine scheduled.enter inside present rfl kept named
    (nodup_concat scheduled.readyNodup (scheduled.not_holds .ready)) scheduled.interruptibleNodup fun x given => ?_
  cases given <;> simp [Holds, add, Kernel.modify]

include scheduled

/-- One wake-up keeps the invariant if the task is not one of those outside. -/
theorem Scheduled.ready
    (blocked : k.status t = some .interruptible) (inside : t ∉ out) : Scheduled (k.ready t) out := by
  rcases status_eq_some.mp blocked with ⟨_, present, _⟩
  have here : k.Holds t .interruptible := (scheduled.found t _ blocked inside).resolve_left nofun
  have away : Scheduled (k.dropInterruptible t) (t :: out) := by
    refine scheduled.leave here rfl scheduled.readyNodup (scheduled.interruptibleNodup.filter _) fun x given => ?_
    cases given <;> simp [Holds, dropInterruptible]
  exact away.enqueue inside present (fun _ => rfl) rfl

/-! ## Wait queues and deadlines -/

/-- Wake-ups keep the invariant if they wake no task from outside. -/
theorem Scheduled.wakes {may : TaskId -> Prop}
    (inside : ∀ t, may t -> t ∉ out) (wakes : Wakes may k after) : Scheduled after out := by
  induction wakes with
  | done k => exact scheduled
  | @next k after t task allowed present blocked _ ih =>
    apply ih
    rw [scheduled.wakeable.tryWake present blocked]
    exact scheduled.ready (status_eq_some.mpr ⟨task, present, blocked⟩) (inside t allowed)

theorem Scheduled.setFutex (futex word : Nat) (queue : List TaskId) : Scheduled (k.setFutex futex word queue) out :=
  scheduled.congr rfl rfl rfl fun _ => rfl

/-- A futex wake-up keeps the invariant if its queue has no task from outside,
apart from the one whose lock is held. -/
theorem Scheduled.futexWake {held : Option TaskId} {futex word val count : Nat}
    (apart : ∀ t ∈ k.futexes futex word, t ∈ out -> held = some t)
    (done : futexWake held futex word val k = .ok (count, after)) : Scheduled after out := by
  rcases futexWake_eq_ok done with ⟨_, rest, wakes, _, rfl⟩
  have kept := scheduled.wakes (fun t allowed outside => allowed.2 (apart t allowed.1 outside)) wakes
  exact kept.setFutex futex word rest

theorem Scheduled.signalTask_eq (present : k.task t = some task) (signal : Signals) :
    k.signalTask t task signal =
      if task.taskStatus = .interruptible then (k.addSignal t signal).ready t else k.addSignal t signal := by
  have signalled : Scheduled (k.addSignal t signal) out := scheduled.modify t fun _ => ⟨rfl, rfl⟩
  rw [signalTask]
  split
  · rename_i blocked
    exact congrArg Prod.snd (signalled.wakeable.tryWake (task_addSignal present signal) blocked)
  · rfl

theorem Scheduled.signalTask (present : k.task t = some task) (inside : t ∉ out) (signal : Signals) :
    Scheduled (k.signalTask t task signal) out := by
  have signalled : Scheduled (k.addSignal t signal) out := scheduled.modify t fun _ => ⟨rfl, rfl⟩
  refine signalled.wakes (fun x same => ?_) (signalTask_wakes present signal)
  rw [same]
  exact inside

omit scheduled

theorem Scheduled.sendSignal (scheduled : Scheduled k []) (t : TaskId) (signal : Signals) :
    Scheduled (k.sendSignal t signal) [] :=
  sendSignal_preserves (Scheduled · []) scheduled fun _ present _ => scheduled.signalTask present not_mem_nil signal

/-! ## Dropping blocks -/

theorem Holds.count_pos (held : k.Holds t status) : k.strongCount t ≠ 0 := by
  rw [strongCount]
  cases status with
  | ready | interruptible =>
    have := count_pos_iff.mpr held
    omega
  | running =>
    have current : k.current = some t := held
    rw [if_pos current]
    omega
  | zombie => cases held

/-- A block without an `Arc` can go. -/
theorem Scheduled.forget (scheduled : Scheduled k out)
    (free : k.strongCount t = 0) (tids : Nat -> RecycleAllocator) (pids : RecycleAllocator) :
    Scheduled { k with task := Function.update k.task t none, tidAllocators := tids, pidAllocator := pids }
      out := by
  refine ⟨scheduled.readyNodup, scheduled.interruptibleNodup, ?_, ?_, ?_⟩
  · intro x status held
    have old : k.Holds x status := by cases status <;> exact held
    have different : x ≠ t := fun same => old.count_pos (same ▸ free)
    rcases scheduled.placed x status old with ⟨given, inside⟩
    rcases status_eq_some.mp given with ⟨task, present, named⟩
    exact ⟨status_eq_some.mpr ⟨task, by rw [<- present]; exact Function.update_of_ne different _ _, named⟩,
      inside⟩
  · intro x status given outside
    rcases status_eq_some.mp given with ⟨task, present, named⟩
    have old := status_eq_some.mpr ⟨task, (task_of_forget present).2, named⟩
    rcases scheduled.found x status old outside with dead | held
    · exact .inl dead
    · exact .inr (by cases status <;> exact held)
  · exact scheduled.pids.congr fun _ task present => ⟨task, (task_of_forget present).2, rfl⟩

theorem Scheduled.dropArc (scheduled : Scheduled k out) (done : k.dropArc t = .ok after) : Scheduled after out :=
  release_preserves (fun _ _ tids pids kept free => Scheduled.forget kept free tids pids) scheduled done

/-! ## Exit -/

theorem Scheduled.notifyParent (scheduled : Scheduled k (t :: out))
    (apart : task.exitSignal.isEmpty = false -> ∀ p, task.parent = some p -> p ∈ out -> p = t)
    (done : k.notifyParent t task = .ok after) : Scheduled after (t :: out) := by
  rcases notifyParent_eq_ok done with rfl | ⟨p, parent, given, named, other, present, rfl⟩
  · exact scheduled
  · apply scheduled.signalTask present
    intro member
    rcases mem_cons.mp member with same | outside
    · exact other same
    · exact other (apart given p named outside)

/-- A task outside of the queues becomes a zombie, and needs no place any more. -/
theorem Scheduled.zombie (scheduled : Scheduled k (t :: out)) (exitCode : Nat) :
    Scheduled (k.modify t fun task => { task with taskStatus := .zombie, exitCode := exitCode }) out := by
  refine ⟨scheduled.readyNodup, scheduled.interruptibleNodup, ?_, ?_, scheduled.pids.modify t fun _ => rfl⟩
  · intro x status held
    have old : k.Holds x status := by cases status <;> exact held
    rcases scheduled.placed x status old with ⟨given, inside⟩
    have different : x ≠ t := fun same => inside (same ▸ mem_cons_self)
    rw [status_modify_of_ne k different]
    exact ⟨given, fun member => inside (mem_cons_of_mem t member)⟩
  · intro x status given outside
    by_cases same : x = t
    · left
      rcases status_eq_some.mp given with ⟨task, present, named⟩
      rw [same, task_modify_self] at present
      rcases map_eq_some_iff.mp present with ⟨old, _, rfl⟩
      exact named.symm
    · rw [status_modify_of_ne k same] at given
      rcases scheduled.found x status given (fun member => by
        rcases mem_cons.mp member with equal | rest
        · exact same equal
        · exact outside rest) with dead | held
      · exact .inl dead
      · exact .inr (by cases status <;> exact held)

include scheduled

theorem Scheduled.adoptChild (child : TaskId) : Scheduled (k.adoptChild child) out := by
  apply Scheduled.modify
  · apply Scheduled.modify scheduled
    intro task
    exact ⟨rfl, rfl⟩
  · intro task
    exact ⟨rfl, rfl⟩

theorem Scheduled.adopt : Scheduled (k.adopt children) out := by
  induction children generalizing k with
  | nil => exact scheduled
  | cons child children ih => exact ih (scheduled.adoptChild child)

theorem Scheduled.handOver (apart : children ≠ [] -> k.initproc ∉ out)
    (done : k.handOver t children = .ok after) : Scheduled after out := by
  rcases handOver_eq_ok done with ⟨_, rfl⟩ | ⟨some, _, wakes⟩
  · exact scheduled
  · refine scheduled.adopt.wakes (fun x same => ?_) wakes
    rw [same, (Follows.adopt k).initproc]
    exact apart some

theorem Scheduled.clearChildTid (apart : task.clearChildTid ≠ 0 -> ∀ word, translate t = some word ->
      ∀ a ∈ k.futexes task.futex word, a ∈ out -> a = t)
    (done : k.clearChildTid translate t task = .ok after) : Scheduled after out := by
  rcases clearChildTid_eq_ok done with rfl | ⟨word, _, set, named, woken⟩
  · exact scheduled
  · refine scheduled.futexWake (fun a member outside => ?_) woken
    rw [apart set word named a member outside]

omit scheduled

/-! ## The exit of a task and of a group -/

/-- The exit of a task that is outside of the queues, together with other such
tasks of which it wakes none. -/
theorem Scheduled.doExit (scheduled : Scheduled k (t :: out)) (present : k.task t = some task)
    (apartParent : task.exitSignal.isEmpty = false -> ∀ p, task.parent = some p -> p ∈ out -> p = t)
    (apartInit : task.children ≠ [] -> k.initproc ∉ out)
    (apartWord : task.clearChildTid ≠ 0 -> ∀ word, translate t = some word ->
      ∀ a ∈ k.futexes task.futex word, a ∈ out -> a = t)
    (done : doExit translate t exitCode k = .ok after) : Scheduled after out := by
  rcases doExit_eq_ok done with ⟨_, notified, handed, foundPresent, first, second, last⟩
  rw [present] at foundPresent
  cases foundPresent
  have followsFirst := Follows.notifyParent first
  have followsSecond := (Follows.zombie notified t exitCode).trans (Follows.handOver second)
  have zombie := (scheduled.notifyParent apartParent first).zombie exitCode
  have moved := zombie.handOver
    (fun nonempty => by
      have same : (notified.modify t fun task =>
          { task with taskStatus := .zombie, exitCode := exitCode }).initproc = k.initproc :=
        followsFirst.initproc
      rw [same]
      exact apartInit nonempty) second
  have childless : Scheduled (handed.modify t fun task => { task with children := [] }) out :=
    moved.modify t fun _ => ⟨rfl, rfl⟩
  refine childless.clearChildTid (fun set word named a member outside => ?_) last
  exact apartWord set word named a
    (followsFirst.futexes _ _ a (followsSecond.futexes _ _ a member)) outside

/-- None of the tasks of the list is woken by the exit of another. -/
structure Parted (k : Kernel) (translate : TaskId -> Option Nat) (list : List TaskId) : Prop where
  initproc : k.initproc ∉ list
  parent : ∀ b task, b ∈ list -> k.task b = some task -> task.exitSignal.isEmpty = false ->
    ∀ p, task.parent = some p -> p ∈ list -> p = b
  word : ∀ b task, b ∈ list -> k.task b = some task -> task.clearChildTid ≠ 0 ->
    ∀ word, translate b = some word -> ∀ a ∈ k.futexes task.futex word, a ∈ list -> a = b

theorem Parted.mono {shorter : List TaskId} (parted : Parted k translate list) (follows : Follows k after)
    (subset : ∀ a ∈ shorter, a ∈ list) : Parted after translate shorter where
  initproc := fun member => parted.initproc (subset _ (follows.initproc ▸ member))
  parent := by
    intro b task member present signalled p named inside
    rcases follows.block b task present with ⟨old, before, aged⟩
    rcases aged.parent with same | adopted
    · exact parted.parent b old (subset b member) before (aged.exitSignal ▸ signalled) p
        (same ▸ named) (subset p inside)
    · rw [adopted] at named
      cases named
      exact absurd (subset _ inside) parted.initproc
  word := by
    intro b task member present set word named a queued inside
    rcases follows.block b task present with ⟨old, before, aged⟩
    refine parted.word b old (subset b member) before (aged.clearChildTid ▸ set) word named a ?_
      (subset a inside)
    exact follows.futexes _ _ a (aged.futex ▸ queued)

theorem Scheduled.exitAll (scheduled : Scheduled k list) (parted : Parted k translate list)
    (done : exitAll translate exitCode list k = .ok after) : Scheduled after [] := by
  induction list generalizing k with
  | nil =>
    cases done
    exact scheduled
  | cons t list ih =>
    rcases ok_of_bind_ok done with ⟨exited, first, others⟩
    rcases ok_of_bind_ok others with ⟨_, second, last⟩
    rcases doExit_eq_ok first with ⟨task, _, _, present, _⟩
    have inList : ∀ a ∈ list, a ∈ t :: list := fun a member => mem_cons_of_mem t member
    have left : Scheduled exited list := by
      refine scheduled.doExit present ?_ ?_ ?_ first
      · intro signalled p named inside
        exact parted.parent t task mem_cons_self present signalled p named (inList p inside)
      · intro _ inside
        exact parted.initproc (inList _ inside)
      · intro set word named a queued inside
        exact parted.word t task mem_cons_self present set word named a queued (inList a inside)
    exact ih (left.dropArc second)
      (parted.mono ((Follows.doExit first).trans (Follows.release second)) inList) last

variable (settled : Scheduled k [])

include settled

theorem Scheduled.take (current : k.current = some t) : Scheduled { k with current := none } [t] := by
  refine settled.leave (show k.Holds t .running from current) rfl settled.readyNodup
    settled.interruptibleNodup fun x given => ?_
  cases given <;> simp [Holds, current, eq_comm]

theorem Scheduled.suspend {pinned : Bool}
    (done : k.suspendCurrentAndRunNext pinned = .ok after) : Scheduled after [] := by
  rcases suspend_eq_ok done with ⟨t, current, rfl⟩
  rcases status_eq_some.mp (settled.placed t .running current).1 with ⟨_, present, _⟩
  exact (settled.take current).enqueue not_mem_nil present (fun _ => rfl) rfl

theorem Scheduled.block {call : Call}
    (done : k.blockCurrentAndRunNext call = .ok after) : Scheduled after [] := by
  rcases block_eq_ok done with ⟨t, current, rfl⟩
  have out := settled.take current
  rcases status_eq_some.mp (settled.placed t .running current).1 with ⟨_, present, _⟩
  refine out.enter not_mem_nil present rfl (fun _ => rfl) rfl out.readyNodup
    (nodup_concat out.interruptibleNodup (out.not_holds .interruptible)) fun x given => ?_
  cases given <;> simp [Holds, addInterruptible, Kernel.modify]

theorem Scheduled.fetch (done : k.fetch = .ok after) : Scheduled after [] := by
  rcases fetch_eq_ok done with ⟨t, rest, idle, queue, rfl⟩
  have nodup : (t :: rest).Nodup := queue ▸ settled.readyNodup
  have first : k.Holds t .ready := by
    change t ∈ k.readyQueue
    rw [queue]
    exact mem_cons_self
  have out : Scheduled { k with readyQueue := rest } [t] := by
    refine settled.leave first rfl (nodup_cons.mp nodup).2 settled.interruptibleNodup fun x given => ?_
    cases given with
    | ready =>
      simp only [Holds, queue, mem_cons]
      grind
    | interruptible | running | zombie => simp [Holds]
  rcases status_eq_some.mp (settled.placed t .ready first).1 with ⟨_, present, _⟩
  refine out.enter not_mem_nil present rfl (fun _ => rfl) rfl out.readyNodup out.interruptibleNodup fun x given => ?_
  cases given <;> simp [Holds, setStatus, Kernel.modify, idle, eq_comm]

/-! ## Steps -/

theorem Scheduled.exitCurrent (done : exitCurrentAndRunNext translate exitCode k = .ok after) :
    Scheduled after [] := by
  rcases ok_of_bind_ok done with ⟨⟨_, _⟩, taken, others⟩
  rcases takeCurrent_eq_ok taken with ⟨current, rfl⟩
  rcases ok_of_bind_ok others with ⟨exited, first, dropped⟩
  rcases doExit_eq_ok first with ⟨_, _, _, present, _⟩
  have out : Scheduled exited [] := by
    refine (settled.take current).doExit present ?_ ?_ ?_ first
    · intro _ p _ member
      cases member
    · intro _ member
      cases member
    · intro _ word _ a _ member
      cases member
  exact out.dropArc dropped

omit settled

theorem mem_members :
    t ∈ k.members tgid queue ↔
      t ∈ queue /\ ∃ task, k.task t = some task /\ task.tgid = tgid := by
  rw [members, mem_filter, Option.any_eq_true]
  simp only [beq_iff_eq]

theorem mem_others : t ∈ k.others tgid queue ↔ t ∈ queue /\ t ∉ k.members tgid queue := by
  rw [others, members, mem_filter, mem_filter, Bool.not_eq_true']
  constructor
  · rintro ⟨member, no⟩
    exact ⟨member, fun both => by rw [both.2] at no; cases no⟩
  · rintro ⟨member, no⟩
    exact ⟨member, Bool.eq_false_iff.mpr fun yes => no ⟨member, yes⟩⟩

/-- The other tasks of the group that the two queues hold. -/
def groupOf (k : Kernel) (tgid : Nat) : List TaskId :=
  k.members tgid k.readyQueue ++ k.members tgid k.interruptibleQueue

theorem mem_groupOf :
    t ∈ k.groupOf tgid ↔ (t ∈ k.readyQueue \/ t ∈ k.interruptibleQueue) /\
      ∃ task, k.task t = some task /\ task.tgid = tgid := by
  rw [groupOf, mem_append, mem_members, mem_members, or_and_right]

include settled

/-- The group leaves the queues. -/
theorem Scheduled.collect (tgid : Nat) :
    Scheduled { k with
      readyQueue := k.others tgid k.readyQueue
      interruptibleQueue := k.others tgid k.interruptibleQueue } (k.groupOf tgid) := by
  have mine : ∀ x queue, x ∈ queue -> (x ∈ k.readyQueue \/ x ∈ k.interruptibleQueue) ->
      (x ∉ k.members tgid queue ↔ x ∉ k.groupOf tgid) := by
    intro x queue member queued
    rw [mem_members, mem_groupOf, and_iff_right member, and_iff_right queued]
  rw [<- append_nil (k.groupOf tgid)]
  refine settled.remove rfl (settled.readyNodup.filter _) (settled.interruptibleNodup.filter _) fun x given => ?_
  cases given with
  | ready => exact mem_others.trans (and_congr_right fun held => mine x _ held (.inl held))
  | interruptible => exact mem_others.trans (and_congr_right fun held => mine x _ held (.inr held))
  | running =>
    refine ⟨fun held => ⟨held, fun inside => ?_⟩, And.left⟩
    have runs : k.Holds x .running := held
    rcases (mem_groupOf.mp inside).1 with ready | blocked
    · cases settled.unique runs (show k.Holds x .ready from ready)
    · cases settled.unique runs (show k.Holds x .interruptible from blocked)
  | zombie => exact (and_iff_left_of_imp False.elim).symm

/-- What the queues hold after an exit, they held before. -/
theorem Scheduled.mem_queues_of_follows (later : Scheduled after []) (follows : Follows k after)
    (member : t ∈ after.readyQueue \/ t ∈ after.interruptibleQueue) :
    t ∈ k.readyQueue \/ t ∈ k.interruptibleQueue := by
  have before : ∀ status, after.status t = some status -> status ≠ .zombie ->
      k.status t = some status \/ k.status t = some .interruptible := by
    intro status known live
    rcases status_eq_some.mp known with ⟨new, present, rfl⟩
    rcases follows.block t new present with ⟨old, oldPresent, aged⟩
    rcases aged.status with same | ⟨blocked, _⟩ | dead
    · exact .inl (status_eq_some.mpr ⟨old, oldPresent, same.symm⟩)
    · exact .inr (status_eq_some.mpr ⟨old, oldPresent, blocked⟩)
    · exact absurd dead live
  rw [settled.queued_iff]
  rcases later.queued_iff.mp member with known | known
  · exact before .ready known nofun
  · exact .inr (or_self_iff.mp (before .interruptible known nofun))

theorem Scheduled.exitGroup
    (parted : ∀ t task, k.currentTask = .ok (t, task) -> Parted k translate (k.groupOf task.tgid))
    (done : exitGroupAndRunNext translate exitCode k = .ok after) : Scheduled after [] := by
  rcases ok_of_bind_ok done with ⟨⟨t, task⟩, current, others⟩
  rcases ok_of_bind_ok others with ⟨exited, first, last⟩
  have left := settled.exitCurrent first
  have follows := Follows.exitCurrent first
  refine (left.collect task.tgid).exitAll ?_ last
  have later : Parted exited translate (exited.groupOf task.tgid) := by
    refine (parted t task current).mono follows fun a member => ?_
    rcases mem_groupOf.mp member with ⟨queued, new, present, named⟩
    rcases follows.block a new present with ⟨old, before, aged⟩
    exact mem_groupOf.mpr ⟨settled.mem_queues_of_follows left follows queued, old, before, aged.tgid ▸ named⟩
  exact ⟨later.initproc, later.parent, later.word⟩

theorem Scheduled.wait4Loop {pid : Int} {nohang : Bool} {fault : Option Int} {rounds : Nat} {answer : Option Int}
    (done : wait4Loop pid nohang fault rounds t k = .ok (answer, after)) : Scheduled after [] := by
  have ends := @wait4Loop_preserves (Scheduled · []) fault nohang rounds pid t (by
    intro k task c child reaped held _ _ _ _ _ dropped
    refine Scheduled.dropArc ?_ dropped
    exact held.modify t fun _ => ⟨rfl, rfl⟩) k after answer settled done
  rcases ends with left | ⟨_, left, _, slept⟩
  · exact left
  · exact left.block slept

omit settled

theorem Scheduled.waitWithTimeout (scheduled : Scheduled k out)
    (t : TaskId) (timeout : TimeSpec) : Scheduled (k.waitWithTimeout t timeout) out :=
  scheduled.congr rfl rfl rfl fun _ => rfl

/-- The events of the scheduler.  A group may exit if the exit of one of its
queued threads wakes no other of them. -/
def Scheduling (k : Kernel) : Event -> Prop
  | .exitGroup translate _ =>
    ∀ t task, k.currentTask = .ok (t, task) -> Parted k translate (k.groupOf task.tgid)
  | .clone _ _ _ => False
  | .setsid => False
  | .loadElf => False
  | _ => True

theorem Scheduled.step {k after : Kernel} {event : Event} (scheduled : Scheduled k [])
    (admitted : Scheduling k event) (taken : Step k event after) : Scheduled after [] := by
  have does := does_of_step taken
  have sent : ∀ {after}, Sends k after -> Scheduled after [] :=
    fun sends => @Sends.preserves (Scheduled · []) _ _ sends scheduled scheduled.sendSignal
  cases event with
  | advance ticks =>
    cases does
    exact scheduled.congr rfl rfl rfl fun _ => rfl
  | fetch => exact scheduled.fetch does
  | suspend pinned => exact scheduled.suspend does
  | block pinned => exact scheduled.block does
  | futexWait word loaded val timeout =>
    rcases does with ⟨_, _, _, _, _, waits⟩
    rcases doFutexWait_eq_ok waits with rfl | ⟨t, _, timeouts, _, _, _, slept⟩
    · exact scheduled
    · refine Scheduled.block ?_ slept
      exact scheduled.congr rfl rfl rfl fun _ => rfl
  | futexWake word val =>
    rcases does with ⟨_, _, woken⟩
    exact scheduled.futexWake (fun _ _ outside => by cases outside) woken
  | nanosleep req | sigtimedwait set timeout =>
    rcases does with ⟨t, _, _, _, slept⟩
    exact (scheduled.waitWithTimeout t _).block slept
  | resume =>
    rcases does with ⟨_, resumed⟩
    rcases resume_eq_ok resumed with ⟨t, _, _, ⟨_, _, _, _, loop⟩ | rfl⟩
    · refine Scheduled.wait4Loop ?_ loop
      exact scheduled.modify t fun _ => ⟨rfl, rfl⟩
    · exact scheduled.modify t fun _ => ⟨rfl, rfl⟩
  | takeSignal signal =>
    rcases does with ⟨t, _, _, _, rfl⟩
    exact scheduled.modify t fun _ => ⟨rfl, rfl⟩
  | kill pid sig | tkill tid sig | tgkill tgid tid sig => exact sent does
  | expire =>
    rw [does]
    have expired := scheduled.wakes (fun _ _ => not_mem_nil) (expireLoop_wakes k.now k.timeouts k)
    exact expired.congr rfl rfl rfl fun _ => rfl
  | exit translate exitCode => exact scheduled.exitCurrent does
  | exitGroup translate exitCode => exact scheduled.exitGroup admitted does
  | wait4 pid nohang fault =>
    rcases does with ⟨_, _, _, _, loop⟩
    exact scheduled.wait4Loop loop
  | _ => cases admitted

theorem live_of_status (known : k.status t = some .ready \/ k.status t = some .interruptible) :
    ∃ task, k.task t = some task /\ task.taskStatus ≠ .zombie := by
  rcases known with known | known
  all_goals
    rcases status_eq_some.mp known with ⟨task, present, named⟩
    exact ⟨task, present, by rw [named]; exact nofun⟩

/-- Between two changes the invariant is the law of the queues. -/
theorem scheduled_iff_orderly : Scheduled k [] ↔ Orderly k /\ k.DistinctPids := by
  constructor
  · intro scheduled
    refine ⟨⟨?_, ?_, ?_⟩, scheduled.pids⟩
    · intro t task present living idle
      have known : k.status t = some task.taskStatus := status_eq_some.mpr ⟨task, present, rfl⟩
      have held := (scheduled.holds_iff living).mpr known
      cases status : task.taskStatus with
      | ready =>
        rw [status] at held
        refine .inl ⟨rfl, count_eq_one_of_mem scheduled.readyNodup held, fun other => ?_⟩
        cases scheduled.unique held (show k.Holds t .interruptible from other)
      | interruptible =>
        rw [status] at held known
        exact .inr ⟨rfl, count_eq_one_of_mem scheduled.interruptibleNodup held, scheduled.not_mem_ready known⟩
      | running =>
        rw [status] at held
        exact absurd held idle
      | zombie => exact absurd status living
    · intro t current
      have runs : k.Holds t .running := current
      refine ⟨(scheduled.placed t .running runs).1, fun ready => ?_, fun blocked => ?_⟩
      · cases scheduled.unique runs (show k.Holds t .ready from ready)
      · cases scheduled.unique runs (show k.Holds t .interruptible from blocked)
    · exact fun t member => live_of_status (scheduled.queued_iff.mp member)
  · rintro ⟨orderly, pids⟩
    have member : ∀ t, t ∈ k.readyQueue \/ t ∈ k.interruptibleQueue ->
        ∃ task, k.task t = some task /\
          ((task.taskStatus = .ready /\ k.readyQueue.count t = 1 /\ t ∉ k.interruptibleQueue) \/
            (task.taskStatus = .interruptible /\ k.interruptibleQueue.count t = 1 /\ t ∉ k.readyQueue)) := by
      intro t queued
      rcases orderly.alive t queued with ⟨task, present, living⟩
      refine ⟨task, present, orderly.queued t task present living fun current => ?_⟩
      rcases orderly.running t current with ⟨_, notReady, notBlocked⟩
      rcases queued with ready | blocked
      · exact notReady ready
      · exact notBlocked blocked
    refine ⟨nodup_iff_count_eq_one.mpr fun t ready => ?_, nodup_iff_count_eq_one.mpr fun t blocked => ?_,
      ?_, ?_, pids⟩
    · rcases member t (.inl ready) with ⟨_, _, ⟨_, single, _⟩ | ⟨_, _, no⟩⟩
      · exact single
      · exact absurd ready no
    · rcases member t (.inr blocked) with ⟨_, _, ⟨_, _, no⟩ | ⟨_, single, _⟩⟩
      · exact absurd blocked no
      · exact single
    · intro t status held
      refine ⟨?_, not_mem_nil⟩
      cases status with
      | ready =>
        rcases member t (.inl held) with ⟨task, present, ⟨named, _⟩ | ⟨_, _, no⟩⟩
        · exact status_eq_some.mpr ⟨task, present, named⟩
        · exact absurd held no
      | interruptible =>
        rcases member t (.inr held) with ⟨task, present, ⟨_, _, no⟩ | ⟨named, _⟩⟩
        · exact absurd held no
        · exact status_eq_some.mpr ⟨task, present, named⟩
      | running => exact (orderly.running t held).1
      | zombie => cases held
    · intro t status known _
      rcases status_eq_some.mp known with ⟨task, present, named⟩
      by_cases dead : status = .zombie
      · exact .inl dead
      · right
        by_cases current : k.current = some t
        · have runs := (orderly.running t current).1
          rw [known] at runs
          cases runs
          exact current
        · rcases orderly.queued t task present (named ▸ dead) current with ⟨ready, single, _⟩ | ⟨blocked, single, _⟩
          · rw [<- named, ready]
            exact one_le_count_iff.mp single.ge
          · rw [<- named, blocked]
            exact one_le_count_iff.mp single.ge

/-- From a kernel whose queues are in order, they are in order after every run in
which no group exits with a queued thread that waits for another to exit. -/
theorem queues_orderly_in_every_run {start : Kernel} (orderly : Orderly start)
    (distinct : start.DistinctPids) (run : Reached (Guarded Scheduling Step) start k) : Orderly k := by
  have initial : Scheduled start [] := scheduled_iff_orderly.mpr ⟨orderly, distinct⟩
  have scheduled := @invariant _ _ _ _ _ (fun k => Scheduled k []) run initial
    fun before event after held taken => held.step taken.1 taken.2
  exact (scheduled_iff_orderly.mp scheduled).1

/-! ## Runs on a concrete kernel -/

/-- The law of the queues and the distinct numbers, for the tasks below the next one. -/
def Checked (k : Kernel) : Prop :=
  (∀ t < k.nextTask, (k.task t).all (fun task => decide
    (task.taskStatus = .zombie \/ k.current = some t \/
      (task.taskStatus = .ready /\ k.readyQueue.count t = 1 /\ t ∉ k.interruptibleQueue) \/
      (task.taskStatus = .interruptible /\ k.interruptibleQueue.count t = 1 /\ t ∉ k.readyQueue))) = true) /\
  (∀ t ∈ k.current, k.status t = some .running /\ t ∉ k.readyQueue /\ t ∉ k.interruptibleQueue) /\
  (∀ t ∈ k.readyQueue ++ k.interruptibleQueue,
    k.status t = some .ready \/ k.status t = some .interruptible) /\
  (∀ a < k.nextTask, ∀ b < k.nextTask,
    (k.task a).map pid = (k.task b).map pid -> k.task a ≠ none -> a = b)

instance (k : Kernel) : Decidable (Checked k) := inferInstanceAs (Decidable (_ /\ _ /\ _ /\ _))

theorem orderly_of_checked (bounded : Bounded k) (checked : Checked k) : Orderly k /\ k.DistinctPids := by
  rcases checked with ⟨queued, running, alive, pids⟩
  refine ⟨⟨?_, fun t current => running t current, ?_⟩, ?_⟩
  · intro t task present living idle
    have right := queued t (bounded t task present)
    rw [present, all_some, decide_eq_true_eq] at right
    rcases right with dead | current | placed
    · exact absurd dead living
    · exact absurd current idle
    · exact placed
  · exact fun t member => live_of_status (alive t (mem_append.mpr member))
  · intro a b first second foundFirst foundSecond equal
    apply pids a (bounded a first foundFirst) b (bounded b second foundSecond)
    · rw [foundFirst, foundSecond, map_some, map_some, equal]
    · rw [foundFirst]
      exact nofun

/-- The flags of a thread that musl creates. -/
def threadFlags : CloneFlags := 0x003d0f00#32

/-- `initproc` starts a process and waits; the process has a second and a third thread. -/
def threaded : List Event :=
  [.fetch, .clone 17#32 0 none, .block false, .fetch, .clone threadFlags 0x1000 none, .clone threadFlags 0x2000 none]

/-- The group of the process exits while its other threads are ready. -/
theorem queues_orderly_after_exit_group :
    ∃ before after,
      Reached Step boot before /\ Step before (.exitGroup (fun _ => some 0x80001000) 0) after /\
      after.readyQueue = [0] /\ Orderly after := by
  have ran : ∃ before after, threaded.foldlM exec boot = .ok before /\
      before.exec (.exitGroup (fun _ => some 0x80001000) 0) = .ok after /\ Checked before /\
      before.initproc ∉ before.groupOf 2 /\
      (∀ b ∈ before.groupOf 2, (before.task b).all (fun task =>
        decide (task.exitSignal.isEmpty = true /\ before.futexes task.futex 0x80001000 = [])) = true) /\
      before.currentTask.toOption.map (fun current => current.2.tgid) = some 2 /\ after.readyQueue = [0] :=
    ⟨_, _, rfl, rfl, by decide, by decide, by decide, by decide, by decide⟩
  rcases ran with ⟨before, after, run, exited, checked, noInit, silent, tgid, queue⟩
  have reached : Reached Step boot before := of_foldlM run
  have family := family_of_harmless (by simp [threaded, KeepsFamily]) run
  rcases orderly_of_checked family.bounded checked with ⟨orderly, distinct⟩
  refine ⟨before, after, reached, exited, queue, queues_orderly_in_every_run orderly distinct ?_⟩
  refine next .refl ⟨?_, exited⟩
  intro t task current
  rw [current] at tgid
  have group : task.tgid = 2 := some.inj tgid
  rw [group]
  refine ⟨noInit, ?_, ?_⟩
  · intro b block member present signalled
    have quiet := silent b member
    rw [present, all_some, decide_eq_true_eq] at quiet
    rw [quiet.1] at signalled
    cases signalled
  · intro b block member present _ word named a queued
    have quiet := silent b member
    rw [present, all_some, decide_eq_true_eq] at quiet
    cases named
    rw [quiet.2] at queued
    cases queued

/-- The third thread then waits for the word that the second clears on exit. -/
def joining : List Event :=
  threaded ++ [.suspend false, .fetch, .suspend false, .fetch, .futexWait 0x80001000 4 4 none, .fetch]

/-- `exit_group` by the first thread: the exit of the second puts the third back
into the ready queue, and its own exit makes it a zombie there. -/
theorem joined_thread_is_a_queued_zombie :
    ∃ before after,
      Reached Step boot before /\ Orderly before /\ before.DistinctPids /\
      Step before (.exitGroup (fun _ => some 0x80001000) 0) after /\
      3 ∈ after.readyQueue /\ after.status 3 = some .zombie /\ ¬ Orderly after := by
  have ran : ∃ before after, joining.foldlM exec boot = .ok before /\
      before.exec (.exitGroup (fun _ => some 0x80001000) 0) = .ok after /\ Checked before /\
      3 ∈ after.readyQueue /\ after.status 3 = some .zombie :=
    ⟨_, _, rfl, rfl, by decide, by decide, by decide⟩
  rcases ran with ⟨before, after, run, exited, checked, member, dead⟩
  have reached : Reached Step boot before := of_foldlM run
  have family := family_of_harmless (by simp [joining, threaded, KeepsFamily]) run
  rcases orderly_of_checked family.bounded checked with ⟨orderly, distinct⟩
  refine ⟨before, after, reached, orderly, distinct, exited, member, dead, ?_⟩
  intro kept
  rcases kept.alive 3 (.inl member) with ⟨task, present, living⟩
  rcases status_eq_some.mp dead with ⟨other, found, zombie⟩
  rw [present] at found
  cases found
  exact living zombie

end Kernel

end GCore.Task
