import GCore.Task.Scheduler

namespace GCore.Task

open Library List

/-!
# Futex wake-ups

`Futex::wake` looks for its waiters in the wait queue of the word and takes a
task that is `Interruptible` for one of them.  An entry of the queue is made by
`do_futex_wait` and goes only with a wake-up on the word: a wait that ends by a
signal or by its deadline leaves it behind.  A wake-up on the word then readies
and counts the task while it is blocked for another reason.

The count is right as long as no task blocks with such an entry left, unless it
blocks on the very same word.  This is proved for every run of blocking calls,
wake-ups, signals and deadlines over any number of processes.
-/

namespace Kernel

/-- The task is blocked in `do_futex_wait` on the word. -/
def blockedOn (k : Kernel) (futex word : Nat) (t : TaskId) : Bool :=
  (k.task t).any fun task =>
    decide (task.taskStatus = .interruptible /\ task.suspended = some (.futexWait word) /\ task.futex = futex)

/-- The tasks that are blocked in `do_futex_wait` on the word. -/
def waiting (k : Kernel) (futex word : Nat) : List TaskId :=
  k.interruptibleQueue.filter fun t => k.blockedOn futex word t

/-- `wake` readies and counts exactly the smaller of `val` and the number of
waiters on the word, all of them from among these waiters. -/
def WakesExactly (k : Kernel) (futex word val : Nat) : Prop :=
  ∃ woken : List TaskId, ∃ after,
    futexWake none futex word val k = .ok (woken.length, after) /\
    woken.Nodup /\ (∀ t ∈ woken, t ∈ k.waiting futex word) /\
    woken.length = min val (k.waiting futex word).length /\
    after.readyQueue = k.readyQueue ++ woken /\
    ∀ t, after.status t = if t ∈ woken then some .ready else k.status t

variable {k after : Kernel} {futex word : Nat} {t : TaskId} {woken : List TaskId} {answer : Option Int}

/-! ## One wake-up -/

/-- What is readied one after the other is readied at once. -/
theorem readyAll_eq (k : Kernel) (woken : List TaskId) : woken.foldl ready k = { k with
    task := fun t => if t ∈ woken then (k.task t).map (fun task => { task with taskStatus := .ready }) else k.task t
    readyQueue := k.readyQueue ++ woken
    interruptibleQueue := k.interruptibleQueue.filter (· ∉ woken) } := by
  induction woken generalizing k with
  | nil => simp
  | cons x woken ih =>
    rw [foldl_cons, ih]
    have queue : (k.ready x).readyQueue ++ woken = k.readyQueue ++ x :: woken := append_assoc k.readyQueue [x] woken
    have sleeping : (k.ready x).interruptibleQueue.filter (· ∉ woken) = k.interruptibleQueue.filter (· ∉ x :: woken) := by
      change (k.interruptibleQueue.filter (· ≠ x)).filter _ = _
      simp [Bool.and_comm]
    congr 1
    funext t
    change (if t ∈ woken then ((k.setStatus x .ready).task t).map _ else (k.setStatus x .ready).task t) = _
    rw [setStatus, task_modify]
    by_cases same : t = x
    · rw [if_pos same, same, if_pos mem_cons_self]
      split
      · rw [Option.map_map]
        rfl
      · rfl
    · simp [same]

theorem status_readyAll (blocked : ∀ t ∈ woken, k.status t = some .interruptible) (t : TaskId) :
    (woken.foldl ready k).status t = if t ∈ woken then some .ready else k.status t := by
  rw [readyAll_eq, Kernel.status]
  dsimp only
  split
  · next member =>
    rcases status_eq_some.mp (blocked t member) with ⟨_, present, _⟩
    rw [present]
    rfl
  · rfl

theorem Wakeable.ready (wakeable : Wakeable k) (asleep : k.status t = some .interruptible) : Wakeable (k.ready t) where
  pids := wakeable.pids.modify t fun _ => rfl
  apart := by
    intro x sleeps member
    by_cases same : x = t
    · rw [same, status_ready_self asleep] at sleeps
      cases sleeps
    · rw [status_ready_of_ne k same] at sleeps
      rcases mem_concat.mp member with old | new
      · exact wakeable.apart x sleeps old
      · exact same new

/-- The first `val` different sleeping tasks of a queue, and the queue behind the last of them. -/
def firstAsleep (asleep : TaskId -> Bool) : Nat -> List TaskId -> List TaskId × List TaskId
  | 0, queue => ([], queue)
  | _ + 1, [] => ([], [])
  | val + 1, t :: queue =>
    if asleep t then
      let (woken, rest) := firstAsleep (fun other => asleep other && decide (other ≠ t)) val queue
      (t :: woken, rest)
    else firstAsleep asleep (val + 1) queue

/-- What is taken from the queue are the sleeping tasks of its front, and others only on the way. -/
theorem firstAsleep_spec (asleep : TaskId -> Bool) (val : Nat) (queue : List TaskId) :
    ∃ gone, queue = gone ++ (firstAsleep asleep val queue).2 /\ (firstAsleep asleep val queue).1.Nodup /\
      (∀ t, t ∈ (firstAsleep asleep val queue).1 ↔ t ∈ gone /\ asleep t = true) /\
      (firstAsleep asleep val queue).1.length <= val /\
      ((firstAsleep asleep val queue).2 = [] \/ (firstAsleep asleep val queue).1.length = val) := by
  induction queue generalizing asleep val with
  | nil =>
    refine ⟨[], ?_⟩
    cases val <;> simp [firstAsleep]
  | cons x queue ih =>
    cases val with
    | zero => exact ⟨[], by simp [firstAsleep]⟩
    | succ val =>
      by_cases blocked : asleep x = true
      · rcases ih (fun other => asleep other && decide (other ≠ x)) val with ⟨gone, front, nodup, spec, below, ends⟩
        simp only [firstAsleep, if_pos blocked]
        refine ⟨x :: gone, congrArg (x :: ·) front, nodup_cons.mpr ⟨fun member => ?_, nodup⟩, fun t => ?_,
          Nat.succ_le_succ below, ends.imp_right (congrArg Nat.succ)⟩
        · have known := ((spec x).mp member).2
          simp at known
        · by_cases same : t = x
          · rw [same]
            exact iff_of_true mem_cons_self ⟨mem_cons_self, blocked⟩
          · rw [mem_cons, mem_cons, or_iff_right same, or_iff_right same, spec]
            simp [same]
      · rcases ih asleep (val + 1) with ⟨gone, front, nodup, spec, others⟩
        simp only [firstAsleep, if_neg blocked]
        refine ⟨x :: gone, congrArg (x :: ·) front, nodup, fun t => ?_, others⟩
        rw [spec, mem_cons]
        refine and_congr_left fun known => (or_iff_right fun same => blocked ?_).symm
        rw [<- same, known]

def asleep (k : Kernel) (t : TaskId) : Bool := decide (k.status t = some .interruptible)

theorem asleep_ready {x : TaskId} (blocked : k.asleep x = true) :
    (k.ready x).asleep = fun other => k.asleep other && decide (other ≠ x) := by
  funext other
  unfold asleep at *
  by_cases same : other = x
  · rw [same, status_ready_self (of_decide_eq_true blocked)]
    simp
  · rw [status_ready_of_ne k same]
    simp [same]

/-- The loop of `wake_at_most` readies the sleeping tasks of the queue, one after the other,
until the limit is reached or the queue is empty. -/
theorem wakeLoop_eq {queue : List TaskId} {count val : Nat} (wakeable : Wakeable k) :
    wakeLoop none (count + val + 1) queue count k =
      .ok (count + (firstAsleep k.asleep (val + 1) queue).1.length, (firstAsleep k.asleep (val + 1) queue).2,
        (firstAsleep k.asleep (val + 1) queue).1.foldl ready k) := by
  induction queue generalizing k count val with
  | nil => rfl
  | cons x queue ih =>
    by_cases blocked : k.asleep x = true
    · have known := of_decide_eq_true blocked
      rcases status_eq_some.mp known with ⟨task, present, named⟩
      have step : wakeLoop none (count + val + 1) (x :: queue) count k =
          if count + 1 = count + val + 1 then .ok (count + 1, queue, k.ready x)
          else wakeLoop none (count + val + 1) queue (count + 1) (k.ready x) := by
        rw [wakeLoop]
        simp only [present, named, if_true, wakeable.tryWake present named, reduceCtorEq, if_false]
      rw [step, firstAsleep, if_pos blocked]
      cases val with
      | zero => rw [if_pos rfl, firstAsleep]; rfl
      | succ val =>
        have later := @ih (k.ready x) (count + 1) val (wakeable.ready known)
        rw [asleep_ready blocked] at later
        rw [if_neg (by omega), show count + (val + 1) + 1 = count + 1 + val + 1 by omega, later]
        simp only [length_cons, foldl_cons]
        congr 2
        omega
    · have step : wakeLoop none (count + val + 1) (x :: queue) count k =
          wakeLoop none (count + val + 1) queue count k := by
        rw [wakeLoop]
        cases present : k.task x with
        | none => rfl
        | some task =>
          have named : ¬ task.taskStatus = .interruptible :=
            fun same => blocked (decide_eq_true (status_eq_some.mpr ⟨task, present, same⟩))
          simp only [named, reduceCtorEq, if_false]
      rw [step, firstAsleep, if_neg blocked]
      exact ih wakeable

/-- `Futex::wake` readies the first `val` sleeping tasks of the queue. -/
theorem futexWake_eq (wakeable : Wakeable k) (futex word val : Nat) :
    futexWake none futex word val k = .ok ((firstAsleep k.asleep val (k.futexes futex word)).1.length,
      ((firstAsleep k.asleep val (k.futexes futex word)).1.foldl ready k).setFutex futex word
        (firstAsleep k.asleep val (k.futexes futex word)).2) := by
  cases val with
  | zero =>
    rw [futexWake, wakeAtMost, if_pos rfl, firstAsleep]
    rfl
  | succ val =>
    have loop := @wakeLoop_eq k (k.futexes futex word) 0 val wakeable
    rw [Nat.zero_add, Nat.zero_add] at loop
    rw [futexWake, wakeAtMost, if_neg (Nat.succ_ne_zero val), loop]
    rfl

/-- `Futex::wake` readies the sleeping tasks of the front of the queue, at most `val`, and
leaves a rest only if they are that many. -/
theorem futexWake_spec (wakeable : Wakeable k) (futex word val : Nat) :
    ∃ woken : List TaskId, ∃ gone rest,
      futexWake none futex word val k =
        .ok (woken.length, (woken.foldl ready k).setFutex futex word rest) /\
      k.futexes futex word = gone ++ rest /\ woken.Nodup /\
      (∀ t, t ∈ woken ↔ t ∈ gone /\ k.status t = some .interruptible) /\
      woken.length <= val /\ (rest = [] \/ woken.length = val) := by
  rcases firstAsleep_spec k.asleep val (k.futexes futex word) with ⟨gone, front, nodup, spec, others⟩
  refine ⟨_, gone, _, futexWake_eq wakeable futex word val, front, nodup, fun t => ?_, others⟩
  rw [spec, asleep, decide_eq_true_eq]

theorem sameWaits_readyAll (k : Kernel) : SameWaits k (woken.foldl ready k) := by
  rw [readyAll_eq]
  exact ⟨rfl, rfl, rfl, rfl⟩

/-! ## The account of waiters -/

/-- The wait queues tell the truth about the tasks that are blocked: a task that
is in a call and has an entry waits for that word, and a task that waits for a
word has an entry. -/
structure Accounted (k : Kernel) : Prop where
  scheduled : Scheduled k []
  suspended : ∀ t task, k.task t = some task -> task.taskStatus = .interruptible ->
    task.suspended ≠ none
  entry : ∀ futex word t task call, t ∈ k.futexes futex word -> k.task t = some task ->
    task.suspended = some call -> call = .futexWait word /\ task.futex = futex
  queued : ∀ t task word, k.task t = some task -> task.taskStatus = .interruptible ->
    task.suspended = some (.futexWait word) -> t ∈ k.futexes task.futex word

variable (accounted : Accounted k)

include accounted

theorem Accounted.mem_waiting :
    t ∈ k.waiting futex word ↔ t ∈ k.futexes futex word /\ k.status t = some .interruptible := by
  rw [waiting, mem_filter, blockedOn, Option.any_eq_true]
  simp only [decide_eq_true_eq]
  constructor
  · rintro ⟨_, task, present, blocked, waits, owned⟩
    exact ⟨owned ▸ accounted.queued t task word present blocked waits,
      status_eq_some.mpr ⟨task, present, blocked⟩⟩
  · rintro ⟨member, known⟩
    rcases status_eq_some.mp known with ⟨task, present, blocked⟩
    rcases Option.ne_none_iff_exists'.mp (accounted.suspended t task present blocked) with ⟨call, inside⟩
    rcases accounted.entry futex word t task call member present inside with ⟨rfl, owned⟩
    refine ⟨?_, task, present, blocked, inside, owned⟩
    rcases accounted.scheduled.found t .interruptible known not_mem_nil with dead | held
    · cases dead
    · exact held

/-- With a true account `wake` counts exactly. -/
theorem Accounted.wakesExactly (futex word val : Nat) : WakesExactly k futex word val := by
  have waitingNodup : (k.waiting futex word).Nodup := accounted.scheduled.interruptibleNodup.filter _
  rcases futexWake_spec accounted.scheduled.wakeable futex word val with
    ⟨woken, _, rest, done, front, nodup, spec, _, ends⟩
  have inside : ∀ t ∈ woken, t ∈ k.waiting futex word := by
    intro t member
    rcases (spec t).mp member with ⟨taken, asleep⟩
    exact accounted.mem_waiting.mpr ⟨front ▸ mem_append_left rest taken, asleep⟩
  refine ⟨woken, _, done, nodup, inside, ?_, by rw [readyAll_eq]; rfl, status_readyAll fun x member => ((spec x).mp member).2⟩
  have subset : woken.length <= (k.waiting futex word).length :=
    (subperm_of_subset nodup inside).length_le
  by_cases full : woken.length = val
  · omega
  · have covers : (k.waiting futex word).length <= woken.length := by
      refine (subperm_of_subset waitingNodup fun t member => ?_).length_le
      rcases accounted.mem_waiting.mp member with ⟨listed, known⟩
      rw [front, ends.resolve_right full, append_nil] at listed
      exact (spec t).mpr ⟨listed, known⟩
    omega

/-! ## Steps -/

variable (scheduled : Scheduled after [])

include scheduled

/-- The account stays true if the wait queues lose no interruptible task, gain no
entry, and no task becomes interruptible or enters a call. -/
theorem Accounted.change (fewer : ∀ futex word t, t ∈ after.futexes futex word -> t ∈ k.futexes futex word)
    (left : ∀ futex word t, t ∈ k.futexes futex word -> after.status t = some .interruptible ->
      t ∈ after.futexes futex word) (block : ∀ x new, after.task x = some new -> ∃ old, k.task x = some old /\
      new.futex = old.futex /\ (new.suspended = old.suspended \/ new.suspended = none) /\
      (new.taskStatus = .interruptible -> old.taskStatus = .interruptible /\ new.suspended = old.suspended)) :
    Accounted after := by
  refine ⟨scheduled, ?_, ?_, ?_⟩
  · intro t new present blocked
    rcases block t new present with ⟨old, before, _, _, kept⟩
    rcases kept blocked with ⟨oldBlocked, same⟩
    rw [same]
    exact accounted.suspended t old before oldBlocked
  · intro futex word t new call member present inside
    rcases block t new present with ⟨old, before, sameFutex, same | gone, _⟩
    · rw [sameFutex]
      exact accounted.entry futex word t old call (fewer futex word t member) before (same ▸ inside)
    · rw [gone] at inside
      cases inside
  · intro t new word present blocked waits
    rcases block t new present with ⟨old, before, sameFutex, _, kept⟩
    rcases kept blocked with ⟨oldBlocked, same⟩
    refine left new.futex word t ?_ (status_eq_some.mpr ⟨new, present, blocked⟩)
    rw [sameFutex]
    exact accounted.queued t old word before oldBlocked (same ▸ waits)

theorem Accounted.follows (follows : Follows k after)
    (left : ∀ futex word t, t ∈ k.futexes futex word -> after.status t = some .interruptible ->
      t ∈ after.futexes futex word) : Accounted after := by
  refine accounted.change scheduled follows.futexes left ?_
  intro x new present
  rcases follows.block x new present with ⟨old, before, aged⟩
  refine ⟨old, before, aged.futex, .inl aged.suspended, fun blocked => ⟨?_, aged.suspended⟩⟩
  rcases aged.status with same | ⟨_, woken⟩ | dead
  · exact same ▸ blocked
  · rw [woken] at blocked
    cases blocked
  · rw [dead] at blocked
    cases blocked

theorem Accounted.followsSame (follows : Follows k after) (same : SameWaits k after) : Accounted after :=
  accounted.follows scheduled follows fun _ _ _ member _ => same.futexes ▸ member

omit accounted

variable {change : TaskControlBlock -> TaskControlBlock} {call : Call}

include accounted

omit scheduled

/-- A change of the running task that leaves its number and its status alone and
can only end its call. -/
theorem Accounted.modify (current : k.current = some t)
    (kept : ∀ task, (change task).pid = task.pid /\ (change task).taskStatus = task.taskStatus)
    (futex : ∀ task, (change task).futex = task.futex)
    (suspended : ∀ task, (change task).suspended = task.suspended \/ (change task).suspended = none) :
    Accounted (k.modify t change) := by
  refine accounted.change (accounted.scheduled.modify t kept) (fun _ _ _ member => member)
    (fun _ _ _ member _ => member) ?_
  intro x new present
  rcases task_of_modify present with ⟨rfl, old, before, rfl⟩ | ⟨_, before⟩
  · refine ⟨old, before, futex old, suspended old, fun blocked => ?_⟩
    rw [(kept old).2, accounted.scheduled.running current before] at blocked
    cases blocked
  · exact ⟨new, before, rfl, .inl rfl, fun blocked => ⟨blocked, rfl⟩⟩

theorem Accounted.futexWake {val count : Nat}
    (done : Kernel.futexWake none futex word val k = .ok (count, after)) : Accounted after := by
  have scheduled := accounted.scheduled.futexWake (fun _ _ outside => by cases outside) done
  refine accounted.follows scheduled (Follows.futexWake done) ?_
  intro f w t member blocked
  rcases futexWake_spec accounted.scheduled.wakeable futex word val with
    ⟨woken, _, _, wakes, front, _, spec, _⟩
  rw [wakes] at done
  cases done
  have before : (woken.foldl ready k).status t = some .interruptible := blocked
  rw [status_readyAll fun x inside => ((spec x).mp inside).2] at before
  rw [futexes_setFutex]
  by_cases same : f = futex /\ w = word
  · rw [if_pos same]
    rw [same.1, same.2] at member
    by_cases readied : t ∈ woken
    · rw [if_pos readied] at before
      cases before
    · rw [if_neg readied] at before
      rw [front] at member
      exact (mem_append.mp member).resolve_left fun taken => readied ((spec t).mpr ⟨taken, before⟩)
  · rw [if_neg same, (sameWaits_readyAll k).futexes]
    exact member

/-- The running task blocks.  Its entries in the wait queues must be those of the
call that it blocks in. -/
theorem Accounted.block (entries : ∀ t task, k.current = some t -> k.task t = some task -> ∀ futex word,
      t ∈ k.futexes futex word -> call = .futexWait word /\ task.futex = futex)
    (listed : ∀ t task word, k.current = some t -> k.task t = some task -> call = .futexWait word ->
      t ∈ k.futexes task.futex word) (done : k.blockCurrentAndRunNext call = .ok after) : Accounted after := by
  have scheduled := accounted.scheduled.block done
  rcases block_eq_ok done with ⟨t, current, rfl⟩
  have blocks : ∀ x new, (Kernel.addInterruptible (Kernel.modify { k with current := none } t fun task =>
      { task with taskStatus := .interruptible, suspended := some call, pinned := call.keepsArc }) t).task x =
        some new -> ∃ old, k.task x = some old /\ new.futex = old.futex /\
          ((x = t /\ new.suspended = some call) \/ (x ≠ t /\ new = old)) := by
    intro x new present
    rcases task_of_modify present with ⟨same, old, before, rfl⟩ | ⟨other, before⟩
    · exact ⟨old, before, rfl, .inl ⟨same, rfl⟩⟩
    · exact ⟨new, before, rfl, .inr ⟨other, rfl⟩⟩
  refine ⟨scheduled, ?_, ?_, ?_⟩
  · intro x new present blocked
    rcases blocks x new present with ⟨old, before, _, ⟨_, inside⟩ | ⟨_, rfl⟩⟩
    · rw [inside]
      exact nofun
    · exact accounted.suspended x new before blocked
  · intro futex word x new inner member present inside
    rcases blocks x new present with ⟨old, before, sameFutex, ⟨rfl, named⟩ | ⟨_, rfl⟩⟩
    · rw [named] at inside
      cases inside
      rw [sameFutex]
      exact entries x old current before futex word member
    · exact accounted.entry futex word x new inner member before inside
  · intro x new word present blocked waits
    rcases blocks x new present with ⟨old, before, sameFutex, ⟨rfl, named⟩ | ⟨_, rfl⟩⟩
    · rw [named] at waits
      rw [sameFutex]
      exact listed x old word current before (Option.some.inj waits)
    · exact accounted.queued x new word before blocked waits

/-- Adding an entry for the running task, which is in no call. -/
theorem Accounted.enter {task : TaskControlBlock}
    (present : k.task t = some task) (free : task.suspended = none) (futex word : Nat) :
    Accounted (k.setFutex futex word (k.futexes futex word ++ [t])) := by
  refine ⟨accounted.scheduled.setFutex _ _ _, accounted.suspended, ?_, ?_⟩
  · intro f w x other call member found inside
    rw [futexes_setFutex] at member
    by_cases same : f = futex /\ w = word
    · rw [if_pos same] at member
      rcases mem_append.mp member with old | new
      · exact accounted.entry f w x other call (by rw [same.1, same.2]; exact old) found inside
      · rw [mem_singleton.mp new] at found
        have equal : k.task t = some other := found
        rw [present] at equal
        cases equal
        rw [free] at inside
        cases inside
    · rw [if_neg same] at member
      exact accounted.entry f w x other call member found inside
  · intro x other w found blocked waits
    rw [futexes_setFutex]
    have old := accounted.queued x other w found blocked waits
    by_cases same : other.futex = futex /\ w = word
    · rw [if_pos same]
      rw [same.1, same.2] at old
      exact mem_append_left _ old
    · rw [if_neg same]
      exact old

theorem Accounted.waitWithTimeout (t : TaskId) (timeout : TimeSpec) : Accounted (k.waitWithTimeout t timeout) :=
  ⟨accounted.scheduled.waitWithTimeout t timeout, accounted.suspended, accounted.entry, accounted.queued⟩

include scheduled in
/-- The blocks change in their status only, and no task becomes interruptible. -/
theorem Accounted.setStatus {base : Kernel} (futexes : after.futexes = k.futexes)
    (task : base.task = k.task) (blocks : after.task = (base.modify t change).task)
    (kept : ∀ task, (change task).futex = task.futex /\ (change task).suspended = task.suspended)
    (awake : ∀ task, (change task).taskStatus ≠ .interruptible) : Accounted after := by
  refine accounted.change scheduled (fun _ _ _ member => futexes ▸ member) (fun _ _ _ member _ => futexes ▸ member) ?_
  intro x new present
  rw [blocks] at present
  rcases task_of_modify present with ⟨_, old, before, rfl⟩ | ⟨_, before⟩
  · exact ⟨old, task ▸ before, (kept old).1, .inl (kept old).2, fun blocked => absurd blocked (awake old)⟩
  · exact ⟨new, task ▸ before, rfl, .inl rfl, fun blocked => ⟨blocked, rfl⟩⟩

theorem Accounted.suspend {pinned : Bool}
    (done : k.suspendCurrentAndRunNext pinned = .ok after) : Accounted after := by
  have scheduled := accounted.scheduled.suspend done
  rcases suspend_eq_ok done with ⟨_, _, rfl⟩
  exact accounted.setStatus scheduled rfl rfl rfl (fun _ => ⟨rfl, rfl⟩) fun _ => nofun

theorem Accounted.fetch (done : k.fetch = .ok after) : Accounted after := by
  have scheduled := accounted.scheduled.fetch done
  rcases fetch_eq_ok done with ⟨_, _, _, _, rfl⟩
  exact accounted.setStatus scheduled rfl rfl rfl (fun _ => ⟨rfl, rfl⟩) fun _ => nofun

/-- No wait queue has an entry for the task. -/
def Unlisted (k : Kernel) (t : TaskId) : Prop := ∀ futex word, t ∉ k.futexes futex word

/-- Blocking in another call than `do_futex_wait`, without an entry left. -/
theorem Accounted.blockUnlisted
    (done : k.blockCurrentAndRunNext call = .ok after) (other : ∀ word, call ≠ .futexWait word)
    (unlisted : ∀ t, k.current = some t -> Unlisted k t) : Accounted after := by
  refine accounted.block ?_ ?_ done
  · intro t task current _ futex word member
    exact absurd member (unlisted t current futex word)
  · intro t task word _ _ same
    exact absurd same (other word)

theorem Accounted.doFutexWait {loaded val : Nat} {timeout : Option TimeSpec}
    (free : ∀ t task, k.currentTask = .ok (t, task) -> task.suspended = none)
    (entries : loaded = val -> ∀ t task, k.currentTask = .ok (t, task) -> ∀ futex other,
      t ∈ k.futexes futex other -> other = word /\ task.futex = futex)
    (done : k.doFutexWait word loaded val timeout = .ok (answer, after)) : Accounted after := by
  rcases doFutexWait_eq_ok done with rfl | ⟨t, task, timeouts, current, equal, _, slept⟩
  · exact accounted
  · rcases currentTask_eq_ok current with ⟨running, present⟩
    have entered := accounted.enter present (free t task current) task.futex word
    -- The deadline, if there is one, changes neither the queues nor the task.
    have timed : Accounted { k.setFutex task.futex word (k.futexes task.futex word ++ [t]) with
        timeouts := timeouts } :=
      ⟨entered.scheduled.congr rfl rfl rfl fun _ => rfl, entered.suspended, entered.entry, entered.queued⟩
    have own : ∀ x block, k.current = some x -> k.task x = some block -> x = t /\ block = task := by
      intro x block runs found
      rw [running] at runs
      cases runs
      rw [present] at found
      cases found
      exact ⟨rfl, rfl⟩
    refine timed.block ?_ ?_ slept
    · intro x block runs found futex named member
      rcases own x block runs found with ⟨rfl, rfl⟩
      rw [futexes_setFutex] at member
      by_cases same : futex = block.futex /\ named = word
      · rw [same.1, same.2]
        exact ⟨rfl, rfl⟩
      · rw [if_neg same] at member
        rcases entries equal x block current futex named member with ⟨sameWord, owned⟩
        rw [sameWord]
        exact ⟨rfl, owned⟩
    · intro x block named runs found same
      rcases own x block runs found with ⟨rfl, rfl⟩
      cases same
      rw [futexes_setFutex, if_pos ⟨rfl, rfl⟩]
      exact mem_append_right _ (mem_singleton_self x)

theorem Accounted.dropArc (done : k.dropArc t = .ok after) : Accounted after :=
  accounted.followsSame (accounted.scheduled.dropArc done) (Follows.release done) (SameWaits.release done)

theorem Accounted.wait4Loop {pid : Int} {nohang : Bool} {fault : Option Int} {rounds : Nat} (current : k.current = some t)
    (unlisted : nohang = false -> Unlisted k t)
    (done : Kernel.wait4Loop pid nohang fault rounds t k = .ok (answer, after)) : Accounted after := by
  have ends := @wait4Loop_preserves (fun k => Accounted k /\ k.current = some t /\ (nohang = false -> Unlisted k t))
    fault nohang rounds pid t (by
      rintro k task c child reaped ⟨held, runs, free⟩ _ _ _ _ _ dropped
      have same := SameWaits.release dropped
      refine ⟨Accounted.dropArc ?_ dropped, same.current.trans runs, fun hangs futex word => ?_⟩
      · exact held.modify runs (fun _ => ⟨rfl, rfl⟩) (fun _ => rfl) fun _ => .inl rfl
      · rw [same.futexes]
        exact free hangs futex word) k after answer ⟨accounted, current, unlisted⟩ done
  rcases ends with ⟨left, _⟩ | ⟨_, ⟨left, runs, free⟩, hangs, slept⟩
  · exact left
  · refine left.blockUnlisted slept (fun _ => nofun) fun x again => ?_
    rw [runs] at again
    cases again
    exact free hangs

theorem Accounted.resume (done : k.resume = .ok (answer, after)) : Accounted after := by
  rcases resume_eq_ok done with ⟨t, task, current, ends⟩
  rcases currentTask_eq_ok current with ⟨running, present⟩
  have cleared : Accounted (k.modify t fun task => { task with suspended := none, pinned := false }) :=
    accounted.modify running (fun _ => ⟨rfl, rfl⟩) (fun _ => rfl) fun _ => .inr rfl
  rcases ends with ⟨_, _, _, inside, loop⟩ | rfl
  · refine cleared.wait4Loop running ?_ loop
    -- A task in `sys_wait4` has no entry: it would be in `do_futex_wait`.
    intro _ futex word member
    cases (accounted.entry futex word t task _ member present inside).1
  · exact cleared

omit accounted

/-- A task blocks only if every entry that it still has in a wait queue is one of
the word that it is about to wait for.  The calls that make, end or rename tasks are left
out: `exit`, `exit_group`, `clone`, `setsid` and `load_elf`. -/
def Uncluttered (k : Kernel) : Event -> Prop
  | .futexWait word loaded val _ => loaded = val -> ∀ t task, k.currentTask = .ok (t, task) ->
      ∀ futex other, t ∈ k.futexes futex other -> other = word /\ task.futex = futex
  | .block _ => ∀ t, k.current = some t -> Unlisted k t
  | .nanosleep _ => ∀ t, k.current = some t -> Unlisted k t
  | .sigtimedwait _ _ => ∀ t, k.current = some t -> Unlisted k t
  | .wait4 _ nohang _ => nohang = false -> ∀ t, k.current = some t -> Unlisted k t
  | .exit _ _ => False
  | .exitGroup _ _ => False
  | .clone _ _ _ => False
  | .setsid => False
  | .loadElf => False
  | _ => True

theorem Accounted.step {k after : Kernel} {event : Event} (accounted : Accounted k)
    (admitted : Uncluttered k event) (taken : Step k event after) : Accounted after := by
  have does := does_of_step taken
  have sent : ∀ {after}, Sends k after -> Accounted after :=
    fun sends => sends.preserves accounted fun t signal => accounted.followsSame
      (accounted.scheduled.sendSignal t signal) (Follows.sendSignal k t signal) (SameWaits.sendSignal k t signal)
  cases event with
  | advance ticks =>
    cases does
    exact ⟨accounted.scheduled.congr rfl rfl rfl fun _ => rfl, accounted.suspended, accounted.entry,
      accounted.queued⟩
  | fetch => exact accounted.fetch does
  | suspend pinned => exact accounted.suspend does
  | block pinned => exact accounted.blockUnlisted does (fun _ => nofun) admitted
  | futexWait word loaded val timeout =>
    rcases does with ⟨t, task, _, current, free, waits⟩
    refine accounted.doFutexWait ?_ admitted waits
    intro x block same
    rw [current] at same
    cases same
    exact free
  | futexWake word val =>
    rcases does with ⟨_, _, woken⟩
    exact accounted.futexWake woken
  | nanosleep req | sigtimedwait set timeout =>
    rcases does with ⟨t, _, _, _, slept⟩
    exact (accounted.waitWithTimeout t _).blockUnlisted slept (fun _ => nofun) admitted
  | resume =>
    rcases does with ⟨_, resumed⟩
    exact accounted.resume resumed
  | takeSignal signal =>
    rcases does with ⟨t, task, current, _, rfl⟩
    exact accounted.modify (currentTask_eq_ok current).1 (fun _ => ⟨rfl, rfl⟩) (fun _ => rfl)
      fun _ => .inl rfl
  | kill pid sig | tkill tid sig | tgkill tgid tid sig => exact sent does
  | expire =>
    rw [does]
    have wakes := expireLoop_wakes k.now k.timeouts k
    have scheduled := accounted.scheduled.wakes (fun _ _ => not_mem_nil) wakes
    have expired := accounted.followsSame scheduled (.wakes wakes) (.wakes wakes)
    exact ⟨expired.scheduled.congr rfl rfl rfl fun _ => rfl, expired.suspended, expired.entry, expired.queued⟩
  | wait4 pid nohang fault =>
    rcases does with ⟨t, _, _, current, loop⟩
    have running := (currentTask_eq_ok current).1
    exact accounted.wait4Loop running (fun hangs => admitted hangs t running) loop
  | _ => cases admitted

/-- Nobody waits for a futex word, and the queues are in order. -/
structure Unwaited (k : Kernel) : Prop where
  orderly : Orderly k
  distinct : k.DistinctPids
  blocked : ∀ t task, k.task t = some task -> task.taskStatus = .interruptible ->
    ∃ call, task.suspended = some call /\ ∀ word, call ≠ .futexWait word
  empty : ∀ futex word, k.futexes futex word = []

/-- In every run from a kernel in which nobody waits, with no task that blocks
while an entry of an earlier wait is left, every wake-up readies and counts
exactly the smaller of its argument and the number of waiters. -/
theorem wake_counts_waiters_in_every_run {start : Kernel} (unwaited : Unwaited start)
    (run : Reached (Guarded Uncluttered Step) start k) (futex word val : Nat) :
    WakesExactly k futex word val := by
  have initial : Accounted start := by
    refine ⟨scheduled_iff_orderly.mpr ⟨unwaited.orderly, unwaited.distinct⟩, ?_, ?_, ?_⟩
    · intro t task present blocked
      rcases unwaited.blocked t task present blocked with ⟨call, inside, _⟩
      rw [inside]
      exact nofun
    · intro f w t task call member
      rw [unwaited.empty] at member
      cases member
    · intro t task w present blocked waits
      rcases unwaited.blocked t task present blocked with ⟨call, inside, other⟩
      rw [waits] at inside
      exact absurd (Option.some.inj inside).symm (other w)
  have accounted := run.invariant initial fun before event after held taken => held.step taken.1 taken.2
  exact accounted.wakesExactly futex word val

/-! ## A process with two threads -/

/-- A thread of the process with number 2, whose leader `initproc` waits for. -/
def threadBlock (pid tid : Nat) (status : TaskStatus) : TaskControlBlock :=
  { initprocBlock with
    pid := pid
    tid := tid
    tgid := 2
    tidAllocator := 1
    futex := 1
    taskStatus := status
    parent := some 0 }

/-- `initproc` in `sys_wait4`, with both threads as its children. -/
def waitingInit : TaskControlBlock :=
  { initprocBlock with
    taskStatus := .interruptible
    children := [1, 2]
    suspended := some (.wait4 (-1) none)
    pinned := true }

def crewBlocks : List TaskControlBlock :=
  [waitingInit, { threadBlock 2 1 .running with exitSignal := Signals.SIGCHLD }, threadBlock 3 2 .ready]

/-- The leader runs, the other thread is ready, and nobody waits for a word. -/
def crew : Kernel :=
  { boot with
    task := fun t => crewBlocks[t]?
    nextTask := 3
    current := some 1
    readyQueue := [2]
    interruptibleQueue := [0]
    nextFutex := 2
    pidAllocator := ⟨4, []⟩
    tidAllocators := fun allocator => if allocator = 0 then ⟨2, []⟩ else if allocator = 1 then ⟨3, []⟩ else .new
    nextAllocator := 2 }

theorem unwaited_crew : Unwaited crew := by
  have bounded : Bounded crew := fun t task present => (List.getElem?_eq_some_iff.mp present).1
  have checked : Checked crew := by decide
  rcases orderly_of_checked bounded checked with ⟨orderly, distinct⟩
  refine ⟨orderly, distinct, ?_, fun _ _ => rfl⟩
  intro t task present blocked
  have member : task ∈ crewBlocks := mem_of_getElem? present
  have every : ∀ block ∈ crewBlocks, block.taskStatus = .interruptible ->
      block.suspended = some (.wait4 (-1) none) := by decide
  exact ⟨_, every task member blocked, fun _ => nofun⟩

/-- The other thread waits for the word; the leader may then wake it. -/
theorem wake_counts_one_waiter :
    ∃ k, [Event.suspend false, .fetch, .futexWait 0x80001000 4 4 none, .fetch].foldlM exec crew =
        .ok k /\ k.waiting 1 0x80001000 = [2] /\ WakesExactly k 1 0x80001000 5 := by
  have run : ∃ first second third k,
      crew.exec (.suspend false) = .ok first /\ first.exec .fetch = .ok second /\
      second.exec (.futexWait 0x80001000 4 4 none) = .ok third /\ third.exec .fetch = .ok k /\
      second.futexes = (fun _ _ => []) /\ k.waiting 1 0x80001000 = [2] :=
    ⟨_, _, _, _, rfl, rfl, rfl, rfl, rfl, by decide⟩
  rcases run with ⟨first, second, third, k, suspended, fetched, blocked, again, empty, waiters⟩
  refine ⟨k, ?_, waiters, wake_counts_waiters_in_every_run unwaited_crew ?_ 1 0x80001000 5⟩
  · simp only [foldlM_cons, foldlM_nil, suspended, fetched, blocked, again, bind, Except.bind]
    rfl
  · have one : Guarded Uncluttered Step crew (.suspend false) first := ⟨trivial, suspended⟩
    have two : Guarded Uncluttered Step first .fetch second := ⟨trivial, fetched⟩
    have three : Guarded Uncluttered Step second (.futexWait 0x80001000 4 4 none) third := by
      refine ⟨fun _ t task _ futex other member => ?_, blocked⟩
      rw [empty] at member
      cases member
    have four : Guarded Uncluttered Step third .fetch k := ⟨trivial, again⟩
    exact (((Reached.refl.next one).next two).next three).next four

/-- The other thread waits for the word, a signal ends the wait, and the thread sleeps. -/
def interrupted : List Event :=
  [.suspend false, .fetch, .futexWait 0x80001000 4 4 none, .fetch, .tkill 3 10, .suspend false, .fetch,
    .resume, .takeSignal (.single 10), .nanosleep ⟨5, 0⟩, .fetch]

/-- Nobody waits for the word any more, but a wake-up on it counts one task and
ends the sleep. -/
theorem wake_readies_sleeping_thread :
    ∃ k, interrupted.foldlM exec crew = .ok k /\ k.waiting 1 0x80001000 = [] /\
      k.status 2 = some .interruptible /\
      (k.task 2).any (fun task => decide (task.suspended = some (.nanosleep ⟨5, 0⟩))) = true /\
      (∃ after, futexWake none 1 0x80001000 1 k = .ok (1, after) /\
        after.status 2 = some .ready) /\ ¬ WakesExactly k 1 0x80001000 1 := by
  have run : ∃ k after, interrupted.foldlM exec crew = .ok k /\
      k.waiting 1 0x80001000 = [] /\ k.status 2 = some .interruptible /\
      (k.task 2).any (fun task => decide (task.suspended = some (.nanosleep ⟨5, 0⟩))) = true /\
      futexWake none 1 0x80001000 1 k = .ok (1, after) /\ after.status 2 = some .ready :=
    ⟨_, _, rfl, by decide, by decide, by decide, rfl, by decide⟩
  rcases run with ⟨k, after, ran, nobody, blocked, sleeps, woken, readied⟩
  refine ⟨k, ran, nobody, blocked, sleeps, ⟨after, woken, readied⟩, ?_⟩
  rintro ⟨list, other, exact, _, inside, _⟩
  rw [woken] at exact
  cases list with
  | nil => cases exact
  | cons t list =>
    have member := inside t mem_cons_self
    rw [nobody] at member
    cases member

end Kernel

end GCore.Task
