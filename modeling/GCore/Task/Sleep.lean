import GCore.Task.Futex

namespace GCore.Task

open Library List Kernel

/-!
# Timed sleeps

`sys_nanosleep` and `sigtimedwait` put a deadline into the global heap, block,
and assert afterwards that without a pending signal the deadline has passed.
The heap keeps a deadline until it expires, also when the task was woken before,
and a wait queue keeps an entry in the same way.  Such a leftover ends a later
sleep too early, and the assertion fails.

The assertions hold in every run in which a task goes to sleep only with no entry
in a wait queue and with no deadline in the heap that lies before its own.
-/

/-- The deadline of a call that asserts it. -/
def Call.deadline : Call -> Option TimeSpec
  | .nanosleep deadline => some deadline
  | .sigtimedwait _ start timeout => some (start.add timeout)
  | _ => none

theorem TimeSpec.Before.refl (time : TimeSpec) : time.Before time := .inr ⟨rfl, le_rfl⟩

namespace Kernel

/-- What keeps the assertions true.  A sleeper has no entry in a wait queue and no
deadline in the heap before its own; one that has been readied and not yet gone
on has a pending signal, or its deadline has passed. -/
structure Rested (k : Kernel) : Prop where
  scheduled : Scheduled k []
  asleep : ∀ t task call deadline, k.task t = some task -> task.taskStatus = .interruptible ->
    task.suspended = some call -> call.deadline = some deadline ->
    (∀ waiter ∈ k.timeouts, waiter.task = t -> deadline.Before waiter.timeout) /\ Unlisted k t
  awake : ∀ t task call deadline, k.task t = some task -> task.taskStatus ≠ .interruptible ->
    task.suspended = some call -> call.deadline = some deadline ->
    task.sigpending.isEmpty = false \/ deadline.Before k.now

variable {k after : Kernel} {t : TaskId} {task : TaskControlBlock}

/-- The general step: deadlines and entries only go, time passes, and a sleeper
that is readied has a reason. -/
theorem Rested.change (rested : Rested k) (scheduled : Scheduled after []) (later : k.tick <= after.tick)
    (waiters : ∀ waiter ∈ after.timeouts, waiter ∈ k.timeouts)
    (entries : ∀ futex word t, t ∈ after.futexes futex word -> t ∈ k.futexes futex word)
    (block : ∀ x new call deadline, after.task x = some new -> new.suspended = some call ->
      call.deadline = some deadline -> ∃ old, k.task x = some old /\ old.suspended = some call /\
        (old.taskStatus ≠ .interruptible -> old.sigpending.isEmpty = false -> new.sigpending.isEmpty = false) /\
        (new.taskStatus = .interruptible -> old.taskStatus = .interruptible) /\
        (new.taskStatus ≠ .interruptible -> old.taskStatus = .interruptible ->
          new.sigpending.isEmpty = false \/ deadline.Before after.now)) : Rested after := by
  refine ⟨scheduled, ?_, ?_⟩
  · intro t new call deadline present blocked inside named
    rcases block t new call deadline present inside named with ⟨old, before, same, _, kept, _⟩
    rcases rested.asleep t old call deadline before (kept blocked) same named with ⟨own, unlisted⟩
    exact ⟨fun waiter member => own waiter (waiters waiter member),
      fun futex word member => unlisted futex word (entries futex word t member)⟩
  · intro t new call deadline present running inside named
    rcases block t new call deadline present inside named with ⟨old, before, same, pending, _, readied⟩
    by_cases blocked : old.taskStatus = .interruptible
    · exact readied running blocked
    · rcases rested.awake t old call deadline before blocked same named with signalled | passed
      · exact .inl (pending blocked signalled)
      · exact .inr (passed.trans (TimeSpec.fromTick_before later))

/-- A block that stays as it is. -/
theorem Rested.same (rested : Rested k) (scheduled : Scheduled after []) (later : k.tick <= after.tick)
    (waiters : ∀ waiter ∈ after.timeouts, waiter ∈ k.timeouts)
    (entries : ∀ futex word t, t ∈ after.futexes futex word -> t ∈ k.futexes futex word)
    (blocks : ∀ x new, after.task x = some new -> k.task x = some new) : Rested after := by
  refine rested.change scheduled later waiters entries ?_
  intro x new call deadline present inside _
  exact ⟨new, blocks x new present, inside, fun _ => id, id, fun running asleep => absurd asleep running⟩

variable {change : TaskControlBlock -> TaskControlBlock} {answer : Option Int} {event : Event} {call : Call}
  {start : Kernel} (rested : Rested k)

include rested

/-- Only one block changes. -/
theorem Rested.touch {base : Kernel} (scheduled : Scheduled after []) (tick : after.tick = k.tick)
    (timeouts : after.timeouts = k.timeouts) (futexes : after.futexes = k.futexes) (task : base.task = k.task)
    (blocks : after.task = (base.modify t change).task)
    (own : ∀ old call deadline, k.task t = some old -> (change old).suspended = some call ->
      call.deadline = some deadline -> old.suspended = some call /\
        (old.taskStatus ≠ .interruptible -> old.sigpending.isEmpty = false ->
          (change old).sigpending.isEmpty = false) /\
        ((change old).taskStatus = .interruptible -> old.taskStatus = .interruptible) /\
        ((change old).taskStatus ≠ .interruptible -> old.taskStatus = .interruptible ->
          (change old).sigpending.isEmpty = false \/ deadline.Before k.now)) : Rested after := by
  refine rested.change scheduled (le_of_eq tick.symm) (fun _ member => timeouts ▸ member)
    (fun _ _ _ member => futexes ▸ member) ?_
  intro x new call deadline present inside named
  rw [blocks] at present
  rcases task_of_modify present with ⟨rfl, old, before, rfl⟩ | ⟨_, before⟩
  · rw [now, tick]
    exact ⟨old, task ▸ before, own old call deadline (task ▸ before) inside named⟩
  · exact ⟨new, task ▸ before, inside, fun _ => id, id, fun running asleep => absurd asleep running⟩

/-- Only the running task changes, and it enters no call. -/
theorem Rested.modify (current : k.current = some t)
    (kept : ∀ task, (change task).pid = task.pid /\ (change task).taskStatus = task.taskStatus)
    (suspended : ∀ task, k.task t = some task ->
      (change task).suspended = none \/
        ((change task).suspended = task.suspended /\ (change task).sigpending = task.sigpending)) :
    Rested (k.modify t change) := by
  refine rested.touch (rested.scheduled.modify t kept) rfl rfl rfl rfl rfl fun old call _ before inside _ => ?_
  have runs := rested.scheduled.running current before
  rcases suspended old before with ended | ⟨going, pending⟩
  · rw [ended] at inside
    cases inside
  · rw [(kept old).2, runs]
    exact ⟨going ▸ inside, fun _ => pending ▸ id, nofun, fun _ => nofun⟩

theorem Rested.suspend {pinned : Bool} (done : k.suspendCurrentAndRunNext pinned = .ok after) : Rested after := by
  have scheduled := rested.scheduled.suspend done
  rcases suspend_eq_ok done with ⟨_, current, rfl⟩
  refine rested.touch scheduled rfl rfl rfl rfl rfl fun old call _ before inside _ => ?_
  rw [rested.scheduled.running current before]
  exact ⟨inside, fun _ => id, nofun, fun _ => nofun⟩

theorem Rested.fetch (done : k.fetch = .ok after) : Rested after := by
  have scheduled := rested.scheduled.fetch done
  rcases fetch_eq_ok done with ⟨t, _, _, queue, rfl⟩
  refine rested.touch scheduled rfl rfl rfl rfl rfl fun old call _ before inside _ => ?_
  have first : t ∈ k.readyQueue := by
    rw [queue]
    exact mem_cons_self
  rcases status_eq_some.mp (rested.scheduled.placed t .ready first).1 with ⟨_, found, named⟩
  rw [before] at found
  cases found
  rw [named]
  exact ⟨inside, fun _ => id, nofun, fun _ => nofun⟩

/-- The running task blocks.  If its call has a deadline, none of its deadlines in
the heap lies before it and no wait queue has an entry for it. -/
theorem Rested.block (done : k.blockCurrentAndRunNext call = .ok after)
    (own : ∀ t deadline, k.current = some t -> call.deadline = some deadline ->
      (∀ waiter ∈ k.timeouts, waiter.task = t -> deadline.Before waiter.timeout) /\
        Unlisted k t) : Rested after := by
  have scheduled := rested.scheduled.block done
  rcases block_eq_ok done with ⟨t, current, rfl⟩
  refine ⟨scheduled, ?_, ?_⟩
  · intro x new inner deadline present blocked inside named
    rcases task_of_modify present with ⟨rfl, old, before, rfl⟩ | ⟨_, before⟩
    · cases inside
      exact own x deadline current named
    · exact rested.asleep x new inner deadline before blocked inside named
  · intro x new inner deadline present running inside named
    rcases task_of_modify present with ⟨rfl, old, before, rfl⟩ | ⟨_, before⟩
    · exact absurd rfl running
    · exact rested.awake x new inner deadline before running inside named

variable (present : k.task t = some task)

include present

variable (free : task.suspended = none)

include free

/-- The running task, which is in no call, gets an entry or a deadline. -/
theorem Rested.enlist (scheduled : Scheduled after [])
    (sameTask : after.task = k.task) (sameTick : after.tick = k.tick)
    (waiters : ∀ waiter ∈ after.timeouts, waiter ∈ k.timeouts \/ waiter.task = t)
    (entries : ∀ futex word x, x ∈ after.futexes futex word -> x ∈ k.futexes futex word \/ x = t) :
    Rested after := by
  have other : ∀ x block call, after.task x = some block -> block.suspended = some call ->
      x ≠ t /\ k.task x = some block := by
    intro x block call found inside
    rw [sameTask] at found
    refine ⟨fun same => ?_, found⟩
    rw [same, present] at found
    cases found
    rw [free] at inside
    cases inside
  refine ⟨scheduled, ?_, ?_⟩
  · intro x block call deadline found blocked inside named
    rcases other x block call found inside with ⟨different, before⟩
    rcases rested.asleep x block call deadline before blocked inside named with ⟨own, unlisted⟩
    refine ⟨fun waiter member belongs => ?_, fun futex word member => ?_⟩
    · rcases waiters waiter member with old | new
      · exact own waiter old belongs
      · exact absurd (belongs.symm.trans new) different
    · rcases entries futex word x member with old | new
      · exact unlisted futex word old
      · exact different new
  · intro x block call deadline found running inside named
    rcases other x block call found inside with ⟨_, before⟩
    rw [now, sameTick]
    exact rested.awake x block call deadline before running inside named

theorem Rested.waitWithTimeout (timeout : TimeSpec) : Rested (k.waitWithTimeout t timeout) := by
  refine rested.enlist present free (rested.scheduled.waitWithTimeout t timeout) rfl rfl ?_
    fun _ _ _ member => .inl member
  intro waiter member
  rcases mem_waitWithTimeout.mp member with new | old
  · exact .inr (congrArg TimeoutWaiter.task new)
  · exact .inl old

theorem Rested.setFutex (futex word : Nat) : Rested (k.setFutex futex word (k.futexes futex word ++ [t])) := by
  refine rested.enlist present free (rested.scheduled.setFutex futex word _) rfl rfl
    (fun _ member => .inl member) ?_
  intro f w x member
  rw [futexes_setFutex] at member
  by_cases same : f = futex /\ w = word
  · rw [if_pos same] at member
    rcases mem_append.mp member with old | new
    · exact .inl (by rw [same.1, same.2]; exact old)
    · exact .inr (mem_singleton.mp new)
  · rw [if_neg same] at member
    exact .inl member

omit free

omit present

/-- A task is readied; if it sleeps it has a pending signal or its deadline has passed. -/
theorem Rested.ready (blocked : k.status t = some .interruptible)
    (reason : ∀ task call deadline, k.task t = some task -> task.suspended = some call ->
      call.deadline = some deadline -> task.sigpending.isEmpty = false \/ deadline.Before k.now) :
    Rested (k.ready t) := by
  refine rested.touch (rested.scheduled.ready blocked not_mem_nil) rfl rfl rfl rfl rfl ?_
  intro old call deadline before inside named
  exact ⟨inside, fun _ => id, nofun, fun _ _ => reason old call deadline before inside named⟩

theorem Rested.addSignal (t : TaskId) {signal : Signals}
    (given : signal.isEmpty = false) : Rested (k.addSignal t signal) := by
  refine rested.touch (rested.scheduled.modify t fun _ => ⟨rfl, rfl⟩) rfl rfl rfl rfl rfl ?_
  intro old call deadline before inside _
  exact ⟨inside, fun _ _ => Signals.isEmpty_eq_false_of_insert given, id,
    fun running asleep => absurd asleep running⟩

theorem Rested.sendSignal (t : TaskId) (signal : Signals) : Rested (k.sendSignal t signal) := by
  refine sendSignal_preserves Rested rested fun task present given => ?_
  have signalled := rested.addSignal t given
  have changed := task_addSignal present signal
  rw [rested.scheduled.signalTask_eq present]
  by_cases blocked : task.taskStatus = .interruptible
  · rw [if_pos blocked]
    refine signalled.ready (status_eq_some.mpr ⟨_, changed, blocked⟩) ?_
    intro found call deadline foundPresent _ _
    rw [changed] at foundPresent
    cases foundPresent
    exact .inl (Signals.isEmpty_eq_false_of_insert given)
  · rw [if_neg blocked]
    exact signalled

omit rested

/-- A futex wake-up readies no sleeper: a sleeper has no entry. -/
theorem Rested.futexWake {futex word val count : Nat} (rested : Rested k)
    (done : futexWake none futex word val k = .ok (count, after)) : Rested after := by
  have scheduled := rested.scheduled.futexWake (fun _ _ outside => by cases outside) done
  have follows := Follows.futexWake done
  rcases futexWake_spec rested.scheduled.wakeable futex word val with ⟨woken, _, rest, wakes, front, _, spec, _⟩
  rw [wakes] at done
  cases done
  have same : SameWaits k (woken.foldl Kernel.ready k) := sameWaits_readyAll k
  refine rested.change scheduled (le_of_eq same.tick.symm) (fun _ member => same.timeouts ▸ member)
    follows.futexes ?_
  intro x new call deadline present inside named
  rcases follows.block x new present with ⟨old, before, aged⟩
  have sleeping : old.suspended = some call := aged.suspended ▸ inside
  have absent : x ∉ woken := by
    intro member
    rcases (spec x).mp member with ⟨taken, blocked⟩
    rcases status_eq_some.mp blocked with ⟨_, found, asleep⟩
    rw [before] at found
    cases found
    refine (rested.asleep x old call deadline before asleep sleeping named).2 futex word ?_
    exact front ▸ mem_append_left rest taken
  have unchanged : (woken.foldl Kernel.ready k).task x = some new := present
  rw [readyAll_eq] at unchanged
  dsimp only at unchanged
  rw [if_neg absent, before] at unchanged
  cases unchanged
  exact ⟨new, before, inside, fun _ => id, id, fun running asleep => absurd asleep running⟩

/-- The deadlines that expire wake a sleeper only once its own has passed. -/
theorem Rested.expireLoop {waiters : List TimeoutWaiter} : ∀ {k : Kernel}, Rested k ->
    (∀ waiter ∈ waiters, waiter ∈ k.timeouts) ->
      Rested (expireLoop k.now waiters k).2 /\
      (∀ waiter ∈ (expireLoop k.now waiters k).1, waiter ∈ waiters) := by
  induction waiters with
  | nil =>
    intro k rested _
    exact ⟨rested, fun _ member => member⟩
  | cons first waiters ih =>
    intro k rested inHeap
    have rest : ∀ waiter ∈ waiters, waiter ∈ k.timeouts :=
      fun waiter member => inHeap waiter (mem_cons_of_mem first member)
    have skip : ∀ {later : Kernel}, Rested later -> later.timeouts = k.timeouts ->
        later.now = k.now ->
        Rested (Kernel.expireLoop k.now waiters later).2 /\
        (∀ waiter ∈ (Kernel.expireLoop k.now waiters later).1, waiter ∈ first :: waiters) := by
      intro later held same time
      have both := ih held fun waiter member => same ▸ rest waiter member
      rw [time] at both
      exact ⟨both.1, fun waiter member => mem_cons_of_mem first (both.2 waiter member)⟩
    rw [Kernel.expireLoop]
    by_cases due : first.timeout.Before k.now
    · rw [if_pos due]
      cases present : k.task first.task with
      | none => exact skip rested rfl rfl
      | some task =>
        simp only
        by_cases blocked : task.taskStatus = .interruptible
        · rw [if_pos blocked, wakeInterruptible, rested.scheduled.wakeable.tryWake present blocked]
          refine skip (rested.ready (status_eq_some.mpr ⟨task, present, blocked⟩) ?_) rfl rfl
          intro found call deadline foundPresent inside named
          rw [present] at foundPresent
          cases foundPresent
          have own := (rested.asleep first.task task call deadline present blocked inside named).1
          exact .inr ((own first (inHeap first mem_cons_self) rfl).trans due)
        · rw [if_neg blocked]
          exact skip rested rfl rfl
    · rw [if_neg due]
      exact ⟨rested, fun _ member => member⟩

include rested

theorem Rested.doWakeExpired : Rested k.doWakeExpired := by
  rcases rested.expireLoop fun waiter member => member with ⟨woken, left⟩
  have same : SameWaits k (Kernel.expireLoop k.now k.timeouts k).2 := .wakes (expireLoop_wakes _ _ k)
  refine woken.same (woken.scheduled.congr rfl rfl rfl fun _ => rfl) le_rfl ?_
    (fun _ _ _ member => member) fun _ _ present => present
  intro waiter member
  rw [same.timeouts]
  exact left waiter member

theorem Rested.dropArc (done : k.dropArc t = .ok after) : Rested after := by
  have same := SameWaits.release done
  exact rested.same (rested.scheduled.dropArc done) (le_of_eq same.tick.symm)
    (fun _ member => same.timeouts ▸ member) (fun _ _ _ member => same.futexes ▸ member) (task_of_release done)

theorem Rested.wait4Loop {pid : Int} {nohang : Bool} {fault : Option Int} {rounds : Nat} (current : k.current = some t)
    (done : wait4Loop pid nohang fault rounds t k = .ok (answer, after)) : Rested after := by
  have ends := @wait4Loop_preserves (fun k => Rested k /\ k.current = some t) fault nohang rounds pid t (by
    rintro k task c child reaped ⟨held, runs⟩ _ _ _ _ _ dropped
    refine ⟨Rested.dropArc ?_ dropped, (SameWaits.release dropped).current.trans runs⟩
    exact held.modify runs (fun _ => ⟨rfl, rfl⟩) fun _ _ => .inr ⟨rfl, rfl⟩) k after answer
      ⟨rested, current⟩ done
  rcases ends with ⟨left, _⟩ | ⟨_, ⟨left, _⟩, _, slept⟩
  · exact left
  · exact left.block slept fun _ _ _ named => by cases named

theorem Rested.resume (done : k.resume = .ok (answer, after)) : Rested after := by
  rcases resume_eq_ok done with ⟨t, task, current, ends⟩
  have running := (currentTask_eq_ok current).1
  have cleared : Rested (k.modify t fun task => { task with suspended := none, pinned := false }) :=
    rested.modify running (fun _ => ⟨rfl, rfl⟩) fun _ _ => .inl rfl
  rcases ends with ⟨_, _, _, _, loop⟩ | rfl
  · exact cleared.wait4Loop running loop
  · exact cleared

/-! ## Runs -/

/-- The running task has no entry in a wait queue and no deadline in the heap that
lies before the given one. -/
def OwnDeadline (k : Kernel) (deadline : TimeSpec) : Prop :=
  ∀ t, k.current = some t ->
    (∀ waiter ∈ k.timeouts, waiter.task = t -> deadline.Before waiter.timeout) /\ Unlisted k t

/-- A task starts a timed sleep only without leftovers of its earlier waits, and `exit`,
`exit_group`, `clone`, `setsid` and `load_elf` are left out. -/
def Undisturbed (k : Kernel) : Event -> Prop
  | .nanosleep req => OwnDeadline k (k.now.add req)
  | .sigtimedwait _ timeout => OwnDeadline k (k.now.add timeout)
  | .exit _ _ => False
  | .exitGroup _ _ => False
  | .clone _ _ _ => False
  | .setsid => False
  | .loadElf => False
  | _ => True

/-- Both timed sleeps: the deadline goes into the heap and the task blocks. -/
theorem Rested.sleep {deadline : TimeSpec} (current : k.currentTask = .ok (t, task))
    (free : task.suspended = none) (own : OwnDeadline k deadline) (named : call.deadline = some deadline)
    (slept : (k.waitWithTimeout t deadline).blockCurrentAndRunNext call = .ok after) : Rested after := by
  rcases currentTask_eq_ok current with ⟨_, present⟩
  refine (rested.waitWithTimeout present free deadline).block slept ?_
  intro x other runs asserted
  rw [named] at asserted
  cases asserted
  rcases own x runs with ⟨earlier, unlisted⟩
  refine ⟨fun waiter member belongs => ?_, unlisted⟩
  rcases mem_waitWithTimeout.mp member with new | old
  · rw [new]
    exact .refl deadline
  · exact earlier waiter old belongs

omit rested

theorem Rested.step {k after : Kernel} (rested : Rested k)
    (admitted : Undisturbed k event) (taken : Step k event after) : Rested after := by
  have does := does_of_step taken
  have sent : ∀ {after}, Sends k after -> Rested after :=
    fun sends => sends.preserves rested rested.sendSignal
  cases event with
  | advance ticks =>
    cases does
    exact rested.same (rested.scheduled.congr rfl rfl rfl fun _ => rfl) (Nat.le_add_right _ _)
      (fun _ member => member) (fun _ _ _ member => member) fun _ _ present => present
  | fetch => exact rested.fetch does
  | suspend pinned => exact rested.suspend does
  | block pinned => exact rested.block does fun _ _ _ named => by cases named
  | futexWait word loaded val timeout =>
    rcases does with ⟨t, task, _, current, free, waits⟩
    rcases doFutexWait_eq_ok waits with rfl | ⟨_, block, _, again, _, waiters, slept⟩
    · exact rested
    · rw [current] at again
      cases again
      have present := (currentTask_eq_ok current).2
      have entered := rested.setFutex present free task.futex word
      refine Rested.block ?_ slept fun _ _ _ named => by cases named
      exact entered.enlist present free (entered.scheduled.congr rfl rfl rfl fun _ => rfl) rfl rfl waiters
        fun _ _ _ member => .inl member
  | futexWake word val =>
    rcases does with ⟨_, _, woken⟩
    exact rested.futexWake woken
  | nanosleep req | sigtimedwait set timeout =>
    rcases does with ⟨t, task, current, free, slept⟩
    exact rested.sleep current free admitted rfl slept
  | resume =>
    rcases does with ⟨_, resumed⟩
    exact rested.resume resumed
  | takeSignal signal =>
    rcases does with ⟨t, task, current, free, rfl⟩
    refine rested.modify (currentTask_eq_ok current).1 (fun _ => ⟨rfl, rfl⟩) fun old before => .inl ?_
    rw [(currentTask_eq_ok current).2] at before
    cases before
    exact free
  | kill pid sig | tkill tid sig | tgkill tgid tid sig => exact sent does
  | expire =>
    rw [does]
    exact rested.doWakeExpired
  | wait4 pid nohang fault =>
    rcases does with ⟨t, _, _, current, loop⟩
    exact rested.wait4Loop (currentTask_eq_ok current).1 loop
  | _ => cases admitted

/-- In every run from a kernel in which nobody sleeps, with timed sleeps that start
without leftovers, a sleeper that goes on without a pending signal has reached
its deadline, and neither assertion fails. -/
theorem sleeps_last_in_every_run (orderly : Orderly start) (distinct : start.DistinctPids)
    (nobody : ∀ t task call, start.task t = some task -> task.suspended = some call -> call.deadline = none)
    (run : Reached (Guarded Undisturbed Step) start k) :
    ∀ t task call, k.currentTask = .ok (t, task) -> task.suspended = some call ->
      (∀ deadline, call.deadline = some deadline -> task.sigpending.isEmpty = true ->
        deadline.Before k.now) /\ afterBlock k.now task call ≠ .error .assertion := by
  have initial : Rested start := by
    refine ⟨scheduled_iff_orderly.mpr ⟨orderly, distinct⟩, ?_, ?_⟩
    all_goals
      intro t task call deadline present _ inside named
      rw [nobody t task call present inside] at named
      cases named
  have rested := run.invariant initial fun before event after held taken => held.step taken.1 taken.2
  intro t task call current inside
  rcases currentTask_eq_ok current with ⟨running, present⟩
  have passed : ∀ deadline, call.deadline = some deadline -> task.sigpending.isEmpty = true ->
      deadline.Before k.now := by
    intro deadline named quiet
    have runs : task.taskStatus ≠ .interruptible := by
      rw [rested.scheduled.running running present]
      exact nofun
    rcases rested.awake t task call deadline present runs inside named with signalled | reached
    · rw [quiet] at signalled
      cases signalled
    · exact reached
  refine ⟨passed, ?_⟩
  cases call with
  | futexWait word | wait4 pid fault | other => exact nofun
  | nanosleep deadline =>
    rw [afterBlock]
    split
    · rename_i quiet
      rw [if_pos (passed deadline rfl quiet)]
      exact nofun
    · exact nofun
  | sigtimedwait set begun timeout =>
    rw [afterBlock]
    split
    · rename_i quiet
      rw [if_pos (passed (begun.add timeout) rfl quiet)]
      exact nofun
    · split <;> exact nofun

/-! ## Two threads that sleep -/

/-- The events that start no timed sleep and end no task. -/
def Event.mild : Event -> Bool
  | .advance _ => true
  | .fetch => true
  | .suspend _ => true
  | .futexWait _ _ _ _ => true
  | .futexWake _ _ => true
  | .resume => true
  | .expire => true
  | _ => false

theorem undisturbed_of_mild (mild : event.mild = true) : Undisturbed k event := by
  cases event with
  | advance ticks | fetch | suspend pinned | futexWait word loaded val timeout | futexWake word val
  | resume | expire => trivial
  | block pinned | nanosleep req | sigtimedwait set timeout | takeSignal signal | kill pid sig | tkill tid sig
  | tgkill tgid tid sig | exit translate exitCode | exitGroup translate exitCode
  | clone flags ctid ptidFault | setsid | wait4 pid nohang fault | loadElf => cases mild

/-- A run of such events continues a run without leftovers. -/
theorem reached_mild {before : Kernel} {events : List Event}
    (run : Reached (Guarded Undisturbed Step) start before) (mild : ∀ event ∈ events, event.mild = true)
    (done : events.foldlM exec before = .ok after) : Reached (Guarded Undisturbed Step) start after :=
  run.foldlM (fun _ event _ member taken => ⟨undisturbed_of_mild (mild event member), taken⟩) done

/-- The second thread sleeps for a second and goes on after two. -/
theorem sleep_of_one_second_lasts :
    ∃ k : Kernel, ∃ task, Reached (Guarded Undisturbed Step) crew k /\
      k.currentTask = .ok (2, task) /\ task.suspended = some (.nanosleep ⟨1, 0⟩) /\
      task.sigpending.isEmpty = true /\
      TimeSpec.Before ⟨1, 0⟩ k.now /\ afterBlock k.now task (.nanosleep ⟨1, 0⟩) ≠ .error .assertion := by
  have run : ∃ first second k task,
      [Event.suspend false, .fetch].foldlM exec crew = .ok first /\
      first.exec (.nanosleep ⟨1, 0⟩) = .ok second /\
      [Event.fetch, .advance 25000000, .expire, .suspend false, .fetch].foldlM exec second = .ok k /\
      first.futexes = (fun _ _ => []) /\ first.timeouts = [] /\ k.currentTask = .ok (2, task) /\
      task.suspended = some (.nanosleep ⟨1, 0⟩) /\ task.sigpending.isEmpty = true :=
    ⟨_, _, _, _, rfl, rfl, rfl, rfl, rfl, rfl, rfl, rfl⟩
  rcases run with ⟨first, second, k, task, started, slept, woken, empty, none, current, inside, quiet⟩
  have reachedFirst : Reached (Guarded Undisturbed Step) crew first := reached_mild .refl (by decide) started
  have admitted : Guarded Undisturbed Step first (.nanosleep ⟨1, 0⟩) second := by
    refine ⟨fun t _ => ⟨fun waiter member => ?_, fun futex word member => ?_⟩, slept⟩
    · rw [none] at member
      cases member
    · rw [empty] at member
      cases member
  have reached : Reached (Guarded Undisturbed Step) crew k := reached_mild (reachedFirst.next admitted) (by decide) woken
  have nobody : ∀ t task call, crew.task t = some task -> task.suspended = some call ->
      call.deadline = Option.none := by
    intro t task call present going
    have every : ∀ block ∈ crewBlocks, (block.suspended.bind Call.deadline) = Option.none := by decide
    have one := every task (mem_of_getElem? present)
    rwa [going] at one
  have kept := sleeps_last_in_every_run unwaited_crew.orderly unwaited_crew.distinct nobody reached 2 task _
    current inside
  exact ⟨k, task, reached, current, inside, quiet, kept.1 _ rfl quiet, kept.2⟩

/-- The second thread waits for a word for at most one second, is woken at once,
and sleeps for a hundred seconds; the first deadline is still in the heap. -/
def leftover : List Event :=
  [.suspend false, .fetch, .futexWait 0x80001000 4 4 (some ⟨1, 0⟩), .fetch, .futexWake 0x80001000 1,
    .suspend false, .fetch, .resume, .nanosleep ⟨100, 0⟩, .fetch, .advance 25000000, .expire,
    .suspend false, .fetch]

/-- After two seconds the sleep ends and the assertion fails. -/
theorem leftover_deadline_ends_sleep :
    ∃ k task, leftover.foldlM exec crew = .ok k /\ k.currentTask = .ok (2, task) /\
      task.suspended = some (.nanosleep ⟨100, 0⟩) /\ task.sigpending.isEmpty = true /\ k.now = ⟨2, 0⟩ /\
      afterBlock k.now task (.nanosleep ⟨100, 0⟩) = .error .assertion /\ k.resume = .error .assertion :=
  ⟨_, _, rfl, rfl, rfl, rfl, rfl, rfl, rfl⟩

end Kernel

end GCore.Task
