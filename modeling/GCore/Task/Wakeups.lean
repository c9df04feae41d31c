import GCore.Task.FutexKey

namespace GCore.Task

open List Kernel TaskControlBlock

/-!
# Wake-ups one by one

Calls that reach a sleeping task, each against what it is for.

An expired deadline readies its task, and nothing else changes.  `Futex::requeue` writes the
queue of the second word last, over what is left of the first if both are the same.
`sys_tgkill` looks for a task of the group and only then compares its thread id.
`sigtimedwait` always blocks, and only looks at the signals that are pending afterwards.
`FUTEX_WAKE_OP` has one operand for its operation and its comparison, and takes the second
count from the first.
-/

namespace Kernel

variable {k after : Kernel} {t : TaskId} {task : TaskControlBlock} {now : TimeSpec}

/-! ## Deadlines -/

/-- A heap that gives its entries by their deadlines is emptied of those that have passed. -/
theorem expireLoop_eq {waiters : List TimeoutWaiter} (wakeable : Wakeable k)
    (sorted : waiters.Pairwise fun a b => a.timeout.Before b.timeout) :
    ∃ woken : List TaskId,
      expireLoop now waiters k = (waiters.filter (fun waiter => ¬ waiter.timeout.Before now), woken.foldl ready k) /\
      woken.Nodup /\ ∀ t, t ∈ woken ↔ k.status t = some .interruptible /\
        ∃ waiter, waiter ∈ waiters /\ waiter.task = t /\ waiter.timeout.Before now := by
  induction waiters generalizing k with
  | nil => exact ⟨[], rfl, nodup_nil, by simp⟩
  | cons first waiters ih =>
    rw [pairwise_cons] at sorted
    by_cases due : first.timeout.Before now
    · rw [filter_cons_of_neg (by simpa using due)]
      by_cases asleep : k.status first.task = some .interruptible
      · rcases status_eq_some.mp asleep with ⟨task, present, blocked⟩
        rcases ih (wakeable.ready asleep) sorted.2 with ⟨woken, walked, nodup, spec⟩
        have fresh : first.task ∉ woken := by
          intro member
          have known := ((spec first.task).mp member).1
          rw [status_ready_self asleep] at known
          cases known
        refine ⟨first.task :: woken, ?_, nodup_cons.mpr ⟨fresh, nodup⟩, ?_⟩
        · simp only [expireLoop, if_pos due, present, if_pos blocked, wakeInterruptible, wakeable.tryWake present blocked, walked, foldl_cons]
        · intro t
          by_cases same : t = first.task
          · rw [same]
            exact iff_of_true mem_cons_self ⟨asleep, first, mem_cons_self, rfl, due⟩
          · rw [mem_cons, or_iff_right same, spec, status_ready_of_ne k same]
            simp [Ne.symm same]
      · have skipped : expireLoop now (first :: waiters) k = expireLoop now waiters k := by
          rw [expireLoop, if_pos due]
          split
          · rfl
          · next task present =>
            rw [if_neg fun blocked => asleep (status_eq_some.mpr ⟨task, present, blocked⟩)]
        rcases ih wakeable sorted.2 with ⟨woken, walked, nodup, spec⟩
        refine ⟨woken, skipped.trans walked, nodup, fun t => ?_⟩
        rw [spec, and_congr_right_iff]
        intro sleeps
        have other : first.task ≠ t := fun same => asleep (same ▸ sleeps)
        simp [other]
    · have later : ∀ waiter, waiter ∈ first :: waiters -> ¬ waiter.timeout.Before now := by
        intro waiter member passed
        rcases mem_cons.mp member with same | behind
        · exact due (same ▸ passed)
        · exact due ((sorted.1 waiter behind).trans passed)
      rw [expireLoop, if_neg due, filter_eq_self.mpr (by simpa using later)]
      refine ⟨[], rfl, nodup_nil, fun t => ?_⟩
      refine iff_of_false not_mem_nil ?_
      rintro ⟨_, waiter, member, _, passed⟩
      exact later waiter member passed

/-- `wake_expired` takes exactly the passed deadlines out of the heap, and moves the tasks of
these that sleep to the end of the ready queue, each of them once. -/
theorem wake_expired_exactly (wakeable : Wakeable k)
    (sorted : k.timeouts.Pairwise fun a b => a.timeout.Before b.timeout) (now : TimeSpec) :
    ∃ woken : List TaskId, woken.Nodup /\
      (∀ t, t ∈ woken ↔ k.status t = some .interruptible /\
        ∃ waiter, waiter ∈ k.timeouts /\ waiter.task = t /\ waiter.timeout.Before now) /\
      { (expireLoop now k.timeouts k).2 with timeouts := (expireLoop now k.timeouts k).1 } = { k with
        task := fun t => if t ∈ woken then (k.task t).map (fun task => { task with taskStatus := .ready }) else k.task t
        readyQueue := k.readyQueue ++ woken
        interruptibleQueue := k.interruptibleQueue.filter (· ∉ woken)
        timeouts := k.timeouts.filter fun waiter => ¬ waiter.timeout.Before now } := by
  rcases expireLoop_eq wakeable sorted with ⟨woken, walked, nodup, spec⟩
  refine ⟨woken, nodup, spec, ?_⟩
  rw [walked, readyAll_eq]

theorem wakeable_crew : Wakeable crew :=
  (scheduled_iff_orderly.mpr ⟨unwaited_crew.orderly, unwaited_crew.distinct⟩).wakeable

/-- `initproc` sleeps and has two passed deadlines; that of the ready thread is a third. -/
def overdue : Kernel := { crew with timeouts := [⟨0, ⟨1, 0⟩⟩, ⟨2, ⟨1, 0⟩⟩, ⟨0, ⟨2, 5⟩⟩, ⟨0, ⟨9, 0⟩⟩] }

theorem overdue_sleeper_is_readied_once :
    ∃ woken : List TaskId, woken.Nodup /\ 0 ∈ woken /\
      (expireLoop ⟨2, 5⟩ overdue.timeouts overdue).2.readyQueue = [2] ++ woken /\
      (expireLoop ⟨2, 5⟩ overdue.timeouts overdue).1 = [⟨0, ⟨9, 0⟩⟩] := by
  have wakeable : Wakeable overdue := ⟨wakeable_crew.pids, wakeable_crew.apart⟩
  rcases wake_expired_exactly wakeable (by decide) ⟨2, 5⟩ with ⟨woken, nodup, spec, same⟩
  refine ⟨woken, nodup, (spec 0).mpr ⟨rfl, ⟨0, ⟨1, 0⟩⟩, by decide, rfl, by decide⟩, ?_, rfl⟩
  exact congrArg readyQueue same

/-! ## Waiters that move -/

/-- The queues after the front of one has been moved behind another. -/
def requeued (queues : Nat -> Nat -> List TaskId) (futex word word2 : Nat) (rest : List TaskId) (val2 : Nat) :
    Nat -> Nat -> List TaskId := fun f w =>
  if f = futex /\ w = word2 then (if word2 = word then rest.drop val2 else queues futex word2) ++ rest.take val2
  else if f = futex /\ w = word then rest.drop val2 else queues f w

variable {futex word word2 val val2 : Nat}

/-- What a requeue is for: it wakes, and moves what it may of the waiters behind those it woke. -/
def requeueOutcome (k : Kernel) (futex word word2 val val2 : Nat) : Nat × Kernel :=
  let (woken, rest) := firstAsleep k.asleep val (k.futexes futex word)
  (woken.length + min val2 rest.length,
    { woken.foldl ready k with futexes := requeued k.futexes futex word word2 rest val2 })

theorem eq_of_futexes {moved : Kernel} {queues : Nat -> Nat -> List TaskId} (kept : moved = { k with futexes := moved.futexes })
    (same : ∀ f w, moved.futexes f w = queues f w) : moved = { k with futexes := queues } := by
  rw [kept, funext fun f => funext (same f)]

/-- A move without a wake-up.  If both words are the same, the rest of the queue is overwritten. -/
theorem futexRequeue_zero_iff : futexRequeue futex word word2 0 val2 k = .ok (min val2 (k.futexes futex word).length,
      { k with futexes := requeued k.futexes futex word word2 (k.futexes futex word) val2 }) ↔
    word ≠ word2 \/ val2 = 0 \/ (k.futexes futex word).length <= val2 := by
  simp only [futexRequeue, if_true, bind, Except.bind, length_take, Nat.zero_add]
  constructor
  · intro same
    by_contra apart
    simp only [not_or, not_not, not_le] at apart
    rcases apart with ⟨rfl, some, fewer⟩
    have queues := congrArg (fun moved => (moved.futexes futex word).length) (Prod.mk.inj (Except.ok.inj same)).2
    have left : ((k.futexes futex word).drop val2).isEmpty = false := by simpa using fewer
    have taken : ((k.futexes futex word).take val2).isEmpty = false := by
      rw [List.isEmpty_eq_false_iff]
      exact ne_nil_of_length_pos (by rw [length_take]; omega)
    simp only [futexes_setFutex, requeued, and_self, if_true, nil_append, left, taken, Bool.false_eq_true, if_false,
      length_append, length_take, length_drop] at queues
    omega
  · intro apart
    refine congrArg (fun moved => Except.ok (_, moved)) (eq_of_futexes ?_ fun f w => ?_)
    · split <;> split <;> rfl
    · unfold requeued
      split <;> split <;> simp only [futexes_setFutex, List.isEmpty_iff] at * <;> grind [drop_eq_nil_iff]

/-- `Futex::requeue` takes the woken and the passed-over waiters from the front of the first
queue and moves the next ones behind the second, and no waiter is lost, if and only if the words
differ, or nothing is to be moved, or nothing is to stay. -/
theorem requeue_conserves_waiters_iff (wakeable : Wakeable k) (futex word word2 val val2 : Nat) :
    ∃ woken : List TaskId, ∃ gone rest, firstAsleep k.asleep val (k.futexes futex word) = (woken, rest) /\
      k.futexes futex word = gone ++ rest /\ woken.Nodup /\ woken.length <= val /\
      (∀ t, t ∈ woken ↔ t ∈ gone /\ k.status t = some .interruptible) /\
      (futexRequeue futex word word2 val val2 k = .ok (k.requeueOutcome futex word word2 val val2) ↔
        word ≠ word2 \/ val2 = 0 \/ rest.length <= val2) := by
  rcases firstAsleep_spec k.asleep val (k.futexes futex word) with ⟨gone, front, nodup, spec, below, _⟩
  refine ⟨_, gone, _, rfl, front, nodup, below, fun t => by rw [spec, asleep, decide_eq_true_eq], ?_⟩
  by_cases zero : val = 0
  · rw [zero, requeueOutcome, firstAsleep]
    simp only [length_nil, Nat.zero_add, foldl_nil]
    exact futexRequeue_zero_iff
  have woken := futexWake_eq wakeable futex word val
  unfold requeueOutcome
  generalize firstAsleep k.asleep val (k.futexes futex word) = split at woken ⊢
  rcases split with ⟨first, rest⟩
  dsimp only at woken ⊢
  have left : ((first.foldl ready k).setFutex futex word rest).futexes futex word = rest := by
    rw [futexes_setFutex, if_pos ⟨rfl, rfl⟩]
  have queues : requeued ((first.foldl ready k).setFutex futex word rest).futexes futex word word2 rest val2 =
      requeued k.futexes futex word word2 rest val2 := by
    funext f w
    unfold requeued
    simp only [futexes_setFutex, (@sameWaits_readyAll first k).futexes]
    grind
  have start : futexRequeue futex word word2 val val2 k =
      (futexRequeue futex word word2 0 val2 ((first.foldl ready k).setFutex futex word rest)).map
        (fun outcome => (first.length + outcome.1, outcome.2)) := by
    simp only [futexRequeue, if_neg zero, woken, if_true, bind, Except.bind, Except.map, Nat.zero_add]
  have moved := @futexRequeue_zero_iff ((first.foldl ready k).setFutex futex word rest) futex word word2 val2
  rw [left, queues] at moved
  rw [start, <- moved]
  generalize futexRequeue futex word word2 0 val2 ((first.foldl ready k).setFutex futex word rest) = outcome
  cases outcome with
  | error halt =>
    constructor
    · intro equal
      cases equal
    · intro equal
      cases equal
  | ok pair =>
    rcases pair with ⟨count, last⟩
    simp only [Except.map, Except.ok.injEq, Prod.mk.injEq, Nat.add_left_cancel_iff]
    exact Iff.rfl

/-- Two threads and `initproc` wait for one word. -/
def waitedFor : Kernel := crew.setFutex 1 0x1000 [2, 0, 1]

theorem wakeable_waitedFor : Wakeable waitedFor := ⟨wakeable_crew.pids, wakeable_crew.apart⟩

theorem waiter_is_moved_behind_other_word :
    ∃ after, futexRequeue 1 0x1000 0x2000 1 1 waitedFor = .ok (2, after) /\
      after.readyQueue = [2, 0] /\ after.futexes 1 0x1000 = [] /\ after.futexes 1 0x2000 = [1] := by
  rcases requeue_conserves_waiters_iff wakeable_waitedFor 1 0x1000 0x2000 1 1 with ⟨_, _, _, _, _, _, _, _, moves⟩
  exact ⟨(waitedFor.requeueOutcome 1 0x1000 0x2000 1 1).2, moves.mpr (.inl (by decide)), rfl, rfl, rfl⟩

/-- The first of three waiters is moved to the queue that it is in, and the others are lost. -/
theorem waiters_are_lost_behind_same_word :
    ∃ after, Wakeable waitedFor /\ futexRequeue 1 0x1000 0x1000 0 1 waitedFor = .ok (1, after) /\
      waitedFor.futexes 1 0x1000 = [2, 0, 1] /\ after.futexes 1 0x1000 = [2] :=
  ⟨_, wakeable_waitedFor, rfl, rfl, rfl⟩

/-! ## Signals to a thread -/

/-- The search finds a live task that passes the test, if there is one. -/
theorem findTask_spec {test : TaskControlBlock -> Bool} {caller : TaskId} {self : TaskControlBlock} (orderly : Orderly k)
    (current : k.currentTask = .ok (caller, self)) : ∃ found, k.findTask test = .ok found /\
      (∀ t, found = some t -> ∃ task, k.task t = some task /\ task.taskStatus ≠ .zombie /\ test task = true) /\
      (found = none -> ∀ t task, k.task t = some task -> task.taskStatus ≠ .zombie -> test task = false) := by
  rcases currentTask_eq_ok current with ⟨runs, present⟩
  simp only [findTask, current, bind, Except.bind]
  by_cases own : test self = true
  · refine ⟨some caller, if_pos own, ?_, nofun⟩
    intro t same
    cases same
    refine ⟨self, present, fun dead => ?_, own⟩
    have status := (orderly.running caller runs).1
    rw [status_eq_some.mpr ⟨self, present, dead⟩] at status
    cases status
  · refine ⟨k.find test, if_neg own, ?_, ?_⟩
    · intro t chosen
      rcases orderly.alive t (mem_append.mp (mem_of_find?_eq_some chosen)) with ⟨task, found, live⟩
      have passes := find?_some chosen
      rw [found] at passes
      exact ⟨task, found, live, passes⟩
    · intro nothing t task found live
      by_cases same : k.current = some t
      · rw [runs] at same
        cases same
        rw [present] at found
        cases found
        exact Bool.eq_false_iff.mpr own
      · have queued : t ∈ k.readyQueue ++ k.interruptibleQueue := by
          rcases orderly.queued t task found live same with ⟨_, once, _⟩ | ⟨_, once, _⟩
          · exact mem_append_left _ (count_pos_iff.mp (once ▸ Nat.one_pos))
          · exact mem_append_right _ (count_pos_iff.mp (once ▸ Nat.one_pos))
        have fails := find?_eq_none.mp nothing t queued
        rw [found] at fails
        exact Bool.eq_false_iff.mpr fails

/-- A live thread of a group. -/
def LiveThread (k : Kernel) (tgid tid : Nat) (t : TaskId) (task : TaskControlBlock) : Prop :=
  k.task t = some task /\ task.taskStatus ≠ .zombie /\ task.tgid = tgid /\ task.pid = tid

/-- What a signal to a thread is for: the thread gets it, and is readied if it sleeps; without
the thread nothing happens. -/
def SignalsThread (k : Kernel) (tgid tid sig : Nat) (outcome : Outcome (Int × Kernel)) : Prop :=
  (∀ t task, k.LiveThread tgid tid t task -> outcome = .ok (SUCCESS, if task.taskStatus = .interruptible
    then (k.addSignal t (.single sig)).ready t else k.addSignal t (.single sig))) /\
  ((∀ t task, ¬ k.LiveThread tgid tid t task) -> outcome = .ok (ESRCH, k))

/-- A signal that is pending already changes nothing. -/
theorem addSignal_eq_self_iff {signal : Signals} (present : k.task t = some task) :
    k.addSignal t signal = k ↔ task.sigpending.insert signal = task.sigpending := by
  constructor
  · intro same
    have block := congrArg (fun kernel => (kernel.task t).map sigpending) same
    simpa [addSignal, task_modify_self, present] using block
  · intro same
    have block : (k.task t).map (fun task => { task with sigpending := task.sigpending.insert signal }) = k.task t := by
      rw [present, Option.map_some, same]
    rw [addSignal, modify, block, Function.update_eq_self]

/-- `sys_tgkill` signals the right thread if and only if the first task of the group that it
meets is this thread, or there is none, or the thread has the signal already and does not sleep. -/
theorem tgkill_signals_thread_iff {caller : TaskId} {self : TaskControlBlock} {tgid tid sig : Nat} (orderly : Orderly k)
    (distinct : k.DistinctPids) (current : k.currentTask = .ok (caller, self)) (valid : 0 < sig /\ sig <= 64) :
    SignalsThread k tgid tid sig (k.sysTgkill tgid tid sig) ↔
      (∀ t task, k.findTask (fun task => task.tgid == tgid) = .ok (some t) -> k.task t = some task -> task.pid = tid) \/
      ∃ t task, k.LiveThread tgid tid t task /\ task.taskStatus ≠ .interruptible /\
        task.sigpending.insert (.single sig) = task.sigpending := by
  have signal : Signals.fromSignum sig = .ok (.single sig) := by
    rw [Signals.fromSignum, if_neg (Nat.pos_iff_ne_zero.mp valid.1), if_pos valid.2]
  have given : (Signals.single sig).isEmpty = false := by
    have every : ∀ sig < 65, 0 < sig -> (Signals.single sig).isEmpty = false := by decide
    exact every sig (Nat.lt_succ_of_le valid.2) valid.1
  have unique : ∀ t x task block, k.LiveThread tgid tid t task -> k.task x = some block -> block.pid = tid ->
      t = x /\ task = block := by
    intro t x task block thread present pid
    have same := distinct t x task block thread.1 present (thread.2.2.2.trans pid.symm)
    subst same
    exact ⟨rfl, Option.some.inj (thread.1.symm.trans present)⟩
  rcases @findTask_spec k (fun task => task.tgid == tgid) _ _ orderly current with ⟨found, search, some_spec, none_spec⟩
  simp only [sysTgkill, signal, search, bind, Except.bind]
  cases found with
  | none =>
    refine iff_of_true ⟨fun t task thread => ?_, fun _ => rfl⟩ (.inl fun _ _ same => by cases same)
    have other := none_spec rfl t task thread.1 thread.2.1
    rw [thread.2.2.1, beq_self_eq_true] at other
    cases other
  | some x =>
    rcases some_spec x rfl with ⟨block, present, live, group⟩
    by_cases pid : block.pid = tid
    · refine iff_of_true ⟨fun t task thread => ?_, fun nobody => ?_⟩ (.inl fun y other same there => ?_)
      · rcases unique t x task block thread present pid with ⟨rfl, rfl⟩
        simp only [present, Option.any_some, pid, beq_self_eq_true, if_true, sendSignal, given, Bool.false_eq_true,
          if_false, (scheduled_iff_orderly.mpr ⟨orderly, distinct⟩).signalTask_eq present]
      · exact absurd ⟨present, live, beq_iff_eq.mp group, pid⟩ (nobody x block)
      · cases same
        rw [present] at there
        cases there
        exact pid
    · have missed : (block.pid == tid) = false := beq_eq_false_iff_ne.mpr pid
      simp only [present, Option.any_some, missed, Bool.false_eq_true, if_false]
      constructor
      · rintro ⟨signals, refuses⟩
        by_cases somebody : ∃ t task, k.LiveThread tgid tid t task
        · rcases somebody with ⟨t, task, thread⟩
          have unchanged := (Prod.mk.inj (Except.ok.inj (signals t task thread))).2
          by_cases sleeps : task.taskStatus = .interruptible
          · rw [if_pos sleeps] at unchanged
            have queue := congrArg (fun kernel => kernel.readyQueue.length) unchanged
            simp [ready, addSignal, modify, setStatus, dropInterruptible, add] at queue
          · rw [if_neg sleeps] at unchanged
            exact .inr ⟨t, task, thread, sleeps, (addSignal_eq_self_iff thread.1).mp unchanged.symm⟩
        · have refused := refuses fun t task thread => somebody ⟨t, task, thread⟩
          cases refused
      · rintro (first | ⟨t, task, thread, awake, pending⟩)
        · exact absurd (first x block rfl present) pid
        · refine ⟨fun y other again => ?_, fun nobody => absurd thread (nobody t task)⟩
          rcases unique y t other task again thread.1 thread.2.2.2 with ⟨rfl, rfl⟩
          rw [if_neg awake, (addSignal_eq_self_iff thread.1).mpr pending]

/-- The leader runs and signals itself. -/
theorem leader_signals_itself :
    ∃ after, crew.sysTgkill 2 2 10 = .ok (SUCCESS, after) /\
      (after.task 1).map sigpending = some (.single 10) := by
  have self : crew.currentTask = .ok (1, { threadBlock 2 1 .running with exitSignal := Signals.SIGCHLD }) := rfl
  have first : ∀ t task, crew.findTask (fun task => task.tgid == 2) = .ok (some t) -> crew.task t = some task ->
      task.pid = 2 := by
    intro t task found present
    cases found
    cases present
    rfl
  have signals : SignalsThread crew 2 2 10 (crew.sysTgkill 2 2 10) :=
    (tgkill_signals_thread_iff unwaited_crew.orderly unwaited_crew.distinct self (by decide)).mpr (.inl first)
  exact ⟨_, signals.1 1 _ ⟨rfl, nofun, rfl, rfl⟩, rfl⟩

/-- The leader signals the other thread of its group: the call succeeds, and nothing is sent. -/
theorem leader_misses_thread :
    Orderly crew /\ crew.DistinctPids /\ crew.task 2 = some (threadBlock 3 2 .ready) /\
      crew.sysTgkill 2 3 10 = .ok (SUCCESS, crew) :=
  ⟨unwaited_crew.orderly, unwaited_crew.distinct, rfl, rfl⟩

/-! ## Waits for signals -/

/-- What a wait for the signals of a set should do: it does not block with one of them pending,
and when its task runs again, it returns and takes one of them, or none if none is there. -/
def AnswersWait (blocked later : Kernel) (t : TaskId) (caller task : TaskControlBlock) (set : Signals)
    (deadline : TimeSpec) : Prop :=
  ((caller.sigpending &&& set).isEmpty = false -> blocked.status t ≠ some .interruptible) /\
  ∃ answer after left, later.resume = .ok (some answer, after) /\ (after.task t).map sigpending = some left /\
    ((task.sigpending &&& set).isEmpty = false -> ∃ signum : Nat, answer = signum /\
      (task.sigpending &&& set &&& .single signum).isEmpty = false /\ left = task.sigpending.remove (.single signum)) /\
    ((task.sigpending &&& set).isEmpty = true -> left = task.sigpending) /\
    (answer = EAGAIN -> (task.sigpending &&& set).isEmpty = true /\ deadline.Before later.now)

/-- The task sleeps in any case. -/
theorem status_of_sigtimedwait {set : Signals} {timeout : TimeSpec} {blocked : Kernel}
    (current : k.currentTask = .ok (t, task)) (called : k.sigtimedwait set timeout = .ok blocked) :
    blocked.status t = some .interruptible := by
  simp only [sigtimedwait, current, bind, Except.bind] at called
  rcases block_eq_ok called with ⟨x, running, rfl⟩
  have same : k.current = some x := running
  rw [(currentTask_eq_ok current).1] at same
  cases same
  simp [status, addInterruptible, modify, waitWithTimeout, (currentTask_eq_ok current).2]

/-- A wait does as it should, from its call to the moment when its task runs again in it, if and
only if no signal of the set is pending at either time, and the task runs again because of a
signal or of the deadline. -/
theorem sigtimedwait_answers_iff {set : Signals} {timeout : TimeSpec} {blocked later : Kernel} {caller : TaskControlBlock}
    (calls : k.currentTask = .ok (t, caller)) (called : k.sigtimedwait set timeout = .ok blocked)
    (current : later.currentTask = .ok (t, task)) (inside : task.suspended = some (.sigtimedwait set k.now timeout)) :
    AnswersWait blocked later t caller task set (k.now.add timeout) ↔
      (caller.sigpending &&& set).isEmpty = true /\ (task.sigpending &&& set).isEmpty = true /\
        (task.sigpending.isEmpty = false \/ (k.now.add timeout).Before later.now) := by
  have resumed : later.resume = (afterBlock later.now task (.sigtimedwait set k.now timeout)).map fun answer =>
      (some answer, later.modify t fun task => { task with suspended := none, pinned := false }) := by
    simp only [resume, current, inside, bind, Except.bind]
    cases afterBlock later.now task (.sigtimedwait set k.now timeout) <;> rfl
  have kept : ((later.modify t fun task => { task with suspended := none, pinned := false }).task t).map sigpending =
      some task.sigpending := by
    simp [modify, (currentTask_eq_ok current).2]
  constructor
  · rintro ⟨prompt, answer, after, left, returned, remains, takes, _⟩
    have idle : (caller.sigpending &&& set).isEmpty = true := by
      by_contra given
      exact prompt (Bool.eq_false_iff.mpr given) (status_of_sigtimedwait calls called)
    rw [resumed] at returned
    cases answered : afterBlock later.now task (.sigtimedwait set k.now timeout) with
    | error halt =>
      rw [answered] at returned
      cases returned
    | ok number =>
      rw [answered] at returned
      cases returned
      rw [kept] at remains
      cases remains
      refine ⟨idle, ?_, ?_⟩
      · by_contra given
        rcases takes (Bool.eq_false_iff.mpr given) with ⟨signum, _, both, removed⟩
        rw [removed, Signals.remove, Signals.isEmpty, beq_eq_false_iff_ne] at both
        apply both
        grind
      · by_contra early
        rw [not_or, Bool.not_eq_false] at early
        rw [afterBlock, if_pos early.1, if_neg early.2] at answered
        cases answered
  · rintro ⟨idle, absent, finished⟩
    have answers : ∃ answer, afterBlock later.now task (.sigtimedwait set k.now timeout) = .ok answer /\
        (answer = EAGAIN -> (k.now.add timeout).Before later.now) := by
      rw [afterBlock]
      by_cases quiet : task.sigpending.isEmpty = true
      · have due := finished.resolve_left fun given => Bool.noConfusion (quiet.symm.trans given)
        rw [if_pos quiet, if_pos due]
        exact ⟨_, rfl, fun _ => due⟩
      · rw [if_neg quiet]
        split <;> exact ⟨_, rfl, fun same => by cases same⟩
    rcases answers with ⟨answer, answered, expired⟩
    refine ⟨fun given => Bool.noConfusion (idle.symm.trans given), answer, _, task.sigpending, ?_, kept, ?_, ?_, ?_⟩
    · rw [resumed, answered]
      rfl
    · exact fun given => Bool.noConfusion (absent.symm.trans given)
    · exact fun _ => rfl
    · exact fun again => ⟨absent, expired again⟩

/-- Five seconds pass before the leader runs again. -/
def awaitSignal : List Event :=
  [.fetch, .advance 62500000, .expire, .suspend false, .fetch]

theorem wait_for_signal_expires : ∃ blocked later task,
    crew.sigtimedwait (.single 10) ⟨5, 0⟩ = .ok blocked /\ awaitSignal.foldlM exec blocked = .ok later /\
      AnswersWait blocked later 1 { threadBlock 2 1 .running with exitSignal := Signals.SIGCHLD } task
        (.single 10) ⟨5, 0⟩ := by
  have run : ∃ blocked later task, crew.sigtimedwait (.single 10) ⟨5, 0⟩ = .ok blocked /\
      awaitSignal.foldlM exec blocked = .ok later /\ later.currentTask = .ok (1, task) /\
      task.suspended = some (.sigtimedwait (.single 10) ⟨0, 0⟩ ⟨5, 0⟩) /\ task.sigpending = .empty /\ later.now = ⟨5, 0⟩ :=
    ⟨_, _, _, rfl, rfl, rfl, rfl, rfl, rfl⟩
  rcases run with ⟨blocked, later, task, called, reached, current, inside, quiet, late⟩
  refine ⟨blocked, later, task, called, reached,
    (sigtimedwait_answers_iff rfl called current inside).mpr ⟨rfl, by rw [quiet]; rfl, .inr ?_⟩⟩
  rw [late]
  decide

/-- The signal is pending from the start: the leader waits all the same, is told its number,
and has it pending afterwards. -/
theorem wait_leaves_signal_pending : ∃ k caller blocked later task after,
    exec crew (.tkill 2 10) = .ok k /\ k.currentTask = .ok (1, caller) /\ caller.sigpending = .single 10 /\
      k.sigtimedwait (.single 10) ⟨5, 0⟩ = .ok blocked /\ blocked.status 1 = some .interruptible /\
      awaitSignal.foldlM exec blocked = .ok later /\ later.currentTask = .ok (1, task) /\ later.now = ⟨5, 0⟩ /\
      later.resume = .ok (some 10, after) /\ (after.task 1).map sigpending = some (.single 10) /\
      ¬ AnswersWait blocked later 1 caller task (.single 10) ⟨5, 0⟩ := by
  refine ⟨_, _, _, _, _, _, rfl, rfl, rfl, rfl, rfl, rfl, rfl, rfl, rfl, rfl, fun answers => ?_⟩
  exact answers.1 rfl rfl

/-! ## Two words -/

/-- The tasks that two wake-ups should ready, the second one behind the first. -/
def wokenByOp (k : Kernel) (futex word word2 : Nat) (both : Bool) (val val2 : Nat) : List TaskId :=
  let first := (firstAsleep k.asleep val (k.futexes futex word)).1
  first ++ if both then
    (firstAsleep (fun t => k.asleep t && decide (t ∉ first)) val2 (k.futexes futex word2)).1
  else []

/-- Tasks in front that do not sleep are passed over. -/
theorem firstAsleep_skip {asleep : TaskId -> Bool} {gone rest : List TaskId} (awake : ∀ t ∈ gone, asleep t = false)
    (val : Nat) : (firstAsleep asleep val (gone ++ rest)).1 = (firstAsleep asleep val rest).1 := by
  induction gone with
  | nil => rfl
  | cons x gone ih =>
    cases val with
    | zero => rw [firstAsleep, firstAsleep]
    | succ val =>
      have passed : asleep x ≠ true := Bool.eq_false_iff.mp (awake x mem_cons_self)
      rw [cons_append, firstAsleep, if_neg passed]
      exact ih fun t member => awake t (mem_cons_of_mem x member)

theorem asleep_readyAll {woken : List TaskId} (blocked : ∀ t ∈ woken, k.status t = some .interruptible) :
    (woken.foldl ready k).asleep = fun t => k.asleep t && decide (t ∉ woken) := by
  funext t
  unfold asleep
  rw [status_readyAll blocked]
  by_cases member : t ∈ woken <;> simp [member]

/-- `Futex::wake_op` readies the tasks of both wake-ups, with its own two limits. -/
theorem futexWakeOp_eq (scheduled : Scheduled k []) (futex word word2 val : Nat) (both : Bool) : ∃ queues,
    (∀ f w, ¬ (f = futex /\ (w = word \/ w = word2)) -> queues f w = k.futexes f w) /\
    futexWakeOp futex word word2 val both k =
      .ok ((k.wokenByOp futex word word2 both (val % 2 ^ 31) (val / 2 ^ 16 % 2 ^ 16)).length,
        { (k.wokenByOp futex word word2 both (val % 2 ^ 31) (val / 2 ^ 16 % 2 ^ 16)).foldl ready k with
          futexes := queues }) := by
  have wakes := futexWake_eq scheduled.wakeable futex word (val % 2 ^ 31)
  have later := scheduled.futexWake (fun _ _ outside => absurd outside not_mem_nil) wakes
  rcases firstAsleep_spec k.asleep (val % 2 ^ 31) (k.futexes futex word) with ⟨gone, front, _, spec, _⟩
  unfold wokenByOp
  simp only [futexWakeOp, wakes, bind, Except.bind]
  generalize firstAsleep k.asleep (val % 2 ^ 31) (k.futexes futex word) = split at front spec later ⊢
  rcases split with ⟨first, rest⟩
  dsimp only at front spec later ⊢
  have blocked : ∀ t ∈ first, k.status t = some .interruptible := fun t member => of_decide_eq_true ((spec t).mp member).2
  have queues : ∀ f w, ((first.foldl ready k).setFutex futex word rest).futexes f w =
      if f = futex /\ w = word then rest else k.futexes f w := by
    intro f w
    rw [futexes_setFutex, (@sameWaits_readyAll first k).futexes]
  cases both with
  | false =>
    refine ⟨((first.foldl ready k).setFutex futex word rest).futexes, fun f w other => ?_, ?_⟩
    · rw [queues, if_neg fun same => other ⟨same.1, .inl same.2⟩]
    · simp only [Bool.false_eq_true, if_false, append_nil]
      rfl
  | true =>
    have again := futexWake_eq later.wakeable futex word2 (val / 2 ^ 16 % 2 ^ 16)
    have sleeping : ((first.foldl ready k).setFutex futex word rest).asleep =
        fun t => k.asleep t && decide (t ∉ first) := asleep_readyAll blocked
    rw [sleeping] at again
    have same : (firstAsleep (fun t => k.asleep t && decide (t ∉ first)) (val / 2 ^ 16 % 2 ^ 16)
          (((first.foldl ready k).setFutex futex word rest).futexes futex word2)).1 =
        (firstAsleep (fun t => k.asleep t && decide (t ∉ first)) (val / 2 ^ 16 % 2 ^ 16) (k.futexes futex word2)).1 := by
      rw [queues]
      split
      · next equal =>
        rw [equal.2, front]
        refine (firstAsleep_skip (fun t member => ?_) _).symm
        by_cases sleeps : k.asleep t = true
        · simp [(spec t).mpr ⟨member, sleeps⟩]
        · simp [sleeps]
      · rfl
    rw [same] at again
    generalize (firstAsleep _ _ (((first.foldl ready k).setFutex futex word rest).futexes futex word2)).2 = left at again
    simp only [if_true, again]
    generalize (firstAsleep _ _ (k.futexes futex word2)).1 = more
    refine ⟨((more.foldl ready ((first.foldl ready k).setFutex futex word rest)).setFutex futex word2 left).futexes,
      fun f w other => ?_, ?_⟩
    · rw [futexes_setFutex, if_neg fun equal => other ⟨equal.1, .inr equal.2⟩, (sameWaits_readyAll _).futexes, queues,
        if_neg fun equal => other ⟨equal.1, .inl equal.2⟩]
    · rw [length_append, foldl_append, readyAll_eq _ more, readyAll_eq _ more]
      rfl

end Kernel

namespace System

open Mm.World (Surroundings bareSurroundings)

variable {system first second : System} {surroundings : Surroundings} {t : TaskId} {task : TaskControlBlock}
  {uaddr uaddr2 word word2 futexOp val timeout val3 newval : Nat}

theorem storeU32_eq_iff {memory : Nat -> Mm.Page} {pa value other : Nat} :
    storeU32 memory pa value = storeU32 memory pa other ↔ value % 2 ^ 32 = other % 2 ^ 32 := by
  unfold storeU32
  constructor
  · intro same
    have stored : ∀ bytes : List Nat, bytes.length = 4 ->
        (range' pa 4).map (Mm.byteAt (Mm.writeBytes bytes pa memory)) = bytes := by
      intro bytes fits
      rw [Mm.byteAt_writeBytes, fits]
      exact Library.map_scatter nodup_range' (length_range'.trans fits.symm)
    have bytes := congrArg (fun memory => (range' pa 4).map (Mm.byteAt memory)) same
    rw [stored _ rfl, stored _ rfl] at bytes
    simp only [cons.injEq, and_true] at bytes
    omega
  · intro same
    have bytes : [value % 256, value / 256 % 256, value / 256 ^ 2 % 256, value / 256 ^ 3 % 256] =
        [other % 256, other / 256 % 256, other / 256 ^ 2 % 256, other / 256 ^ 3 % 256] := by
      simp only [cons.injEq, and_true]
      omega
    rw [bytes]

/-- What the command is for: it gives the second word its value, readies the tasks, and counts them. -/
def WakesBoth (second : System) (futex word word2 : Nat) (value : Option Nat) (woken : List TaskId)
    (outcome : Outcome (Option Int × System)) : Prop :=
  ∃ newval queues, value = some newval /\
    (∀ f w, ¬ (f = futex /\ (w = word \/ w = word2)) -> queues f w = second.kernel.futexes f w) /\
    outcome = .ok (some ((woken.length : Nat) : Int), { second with
      world := second.world.withMemory (storeU32 second.world.memory word2 newval)
      kernel := { woken.foldl Kernel.ready second.kernel with futexes := queues } })

/-- `FUTEX_WAKE_OP` does what it should if and only if its operation gives the same word with the
number to compare with as operand, and the tasks that are woken are the same with the first
count cut to 31 bits and with its upper half as the second count. -/
theorem wake_op_wakes_both_iff {both : Bool} (current : system.kernel.currentTask = .ok (t, task))
    (start : system.futexWord surroundings t uaddr = .ok (.ok word, first))
    (next : first.futexWord surroundings t uaddr2 = .ok (.ok word2, second)) (scheduled : second.kernel.Scheduled [])
    (command : FutexCmd.fromPrimitive (futexOp % 2 ^ 7) = .wakeOp)
    (compares : wakeOpCond (val3 / 2 ^ 24 % 16) (loadU32 second.world.memory word2) (val3 % 2 ^ 12) = both) :
    WakesBoth second task.futex word word2
        (wakeOpValue (val3 / 2 ^ 28 % 16) (loadU32 second.world.memory word2) (val3 / 2 ^ 12 % 2 ^ 12))
        (second.kernel.wokenByOp task.futex word word2 both val (timeout % 2 ^ 32))
        (system.sysFutex surroundings uaddr futexOp val timeout uaddr2 val3) ↔
      (∃ newval other,
        wakeOpValue (val3 / 2 ^ 28 % 16) (loadU32 second.world.memory word2) (val3 / 2 ^ 12 % 2 ^ 12) = some newval /\
        wakeOpValue (val3 / 2 ^ 28 % 16) (loadU32 second.world.memory word2) (val3 % 2 ^ 12) = some other /\
        other % 2 ^ 32 = newval % 2 ^ 32) /\
      second.kernel.wokenByOp task.futex word word2 both val (timeout % 2 ^ 32) =
        second.kernel.wokenByOp task.futex word word2 both (val % 2 ^ 31) (val / 2 ^ 16 % 2 ^ 16) := by
  rcases Kernel.futexWakeOp_eq scheduled task.futex word word2 val both with ⟨queues, apart, wakes⟩
  have called : system.sysFutex surroundings uaddr futexOp val timeout uaddr2 val3 =
      second.futexWakeOp task word word2 val val3 := by
    simp only [sysFutex, current, start, next, command, bind, Except.bind]
  rw [called, futexWakeOp]
  simp only [compares]
  cases computed : wakeOpValue (val3 / 2 ^ 28 % 16) (loadU32 second.world.memory word2) (val3 % 2 ^ 12) with
  | none =>
    refine iff_of_false ?_ ?_
    · rintro ⟨_, _, _, _, same⟩
      have negative := Option.some.inj (Prod.mk.inj (Except.ok.inj same)).1
      exact absurd negative (by unfold EINVAL; omega)
    · rintro ⟨⟨_, _, _, ⟨⟩, _⟩, _⟩
  | some other =>
    simp only [counted, wakes, bind, Except.bind]
    constructor
    · rintro ⟨newval, _, value, _, same⟩
      rcases Prod.mk.inj (Except.ok.inj same) with ⟨_, states⟩
      have memory := congrArg (fun system => system.world.memory) states
      have woken := congrArg (fun system => system.kernel.readyQueue) states
      simp only [Kernel.readyAll_eq] at woken
      exact ⟨⟨newval, other, value, rfl, storeU32_eq_iff.mp memory⟩, (append_cancel_left woken).symm⟩
    · rintro ⟨⟨newval, _, value, ⟨⟩, agrees⟩, woken⟩
      refine ⟨newval, queues, value, apart, ?_⟩
      rw [woken, storeU32_eq_iff.mpr agrees]

/-- A task sleeps on the first word, and the second is zero: the operation adds one to it, as it
is not one. -/
theorem wake_op_adds_one : ∃ set after, Mm.MemorySet.loadSmallProgram = .ok set /\
    System.sysFutex { twoThreads set with kernel := crew.setFutex 1 0xb000 [2, 0] } (bareSurroundings 0) 0xbff00000 5 0x10001
      1 0xbff00004 0x11001001 = .ok (some 1, after) /\
      loadU32 after.world.memory 0xb004 = 1 /\ after.kernel.readyQueue = [2, 0] := by
  have loaded : ∃ set system task first second,
      Mm.MemorySet.loadSmallProgram = .ok set /\ system = { twoThreads set with kernel := crew.setFutex 1 0xb000 [2, 0] } /\
      system.kernel.currentTask = .ok (1, task) /\
      system.futexWord (bareSurroundings 0) 1 0xbff00000 = .ok (.ok 0xb000, first) /\
      first.futexWord (bareSurroundings 0) 1 0xbff00004 = .ok (.ok 0xb004, second) /\
      second.kernel = crew.setFutex 1 0xb000 [2, 0] /\ task.futex = 1 /\
      loadU32 second.world.memory 0xb004 = 0 /\ loadU32 (storeU32 second.world.memory 0xb004 1) 0xb004 = 1 :=
    ⟨_, _, _, _, _, rfl, rfl, rfl, rfl, rfl, rfl, rfl, rfl, rfl⟩
  rcases loaded with ⟨set, system, task, first, second, program, same, current, start, next, kernel, futex, zero, one⟩
  have scheduled : second.kernel.Scheduled [] := by
    rw [kernel]
    exact (scheduled_iff_orderly.mpr ⟨unwaited_crew.orderly, unwaited_crew.distinct⟩).setFutex 1 0xb000 [2, 0]
  have woken : second.kernel.wokenByOp task.futex 0xb000 0xb004 true 0x10001 (1 % 2 ^ 32) = [0] := by
    rw [kernel, futex]
    rfl
  have cut : second.kernel.wokenByOp task.futex 0xb000 0xb004 true (0x10001 % 2 ^ 31) (0x10001 / 2 ^ 16 % 2 ^ 16) = [0] := by
    rw [kernel, futex]
    rfl
  have value : wakeOpValue (0x11001001 / 2 ^ 28 % 16) (loadU32 second.world.memory 0xb004) 1 = some 1 := by
    rw [zero]
    rfl
  have holds : wakeOpCond (0x11001001 / 2 ^ 24 % 16) (loadU32 second.world.memory 0xb004) 1 = true := by
    rw [zero]
    rfl
  rcases (wake_op_wakes_both_iff current start next scheduled (show FutexCmd.fromPrimitive (5 % 2 ^ 7) = .wakeOp from rfl)
    holds).mpr ⟨⟨1, 1, value, value, rfl⟩, woken.trans cut.symm⟩ with ⟨_, queues, given, _, called⟩
  rw [woken] at called
  cases value.symm.trans given
  refine ⟨set, _, program, same ▸ called, one, ?_⟩
  rw [kernel]
  rfl

/-- The operand is one and the number to compare with is zero: nothing is added. -/
theorem wake_op_adds_comparison : ∃ set after, Mm.MemorySet.loadSmallProgram = .ok set /\
    loadU32 (twoThreads set).world.memory 0xb004 = 0 /\
    (twoThreads set).sysFutex (bareSurroundings 0) 0xbff00000 5 0 0 0xbff00004 0x10001000 = .ok (some 0, after) /\
      loadU32 after.world.memory 0xb004 = 0 := ⟨_, _, rfl, rfl, rfl, rfl⟩

end System
end GCore.Task
