import GCore.Library.Run
import GCore.Task.Lifecycle

namespace GCore.Task

open Library Function Kernel

/-!
# What wake-ups and exits leave as it was

`Follows` relates the kernel before and after wake-ups, exits and drops: no task
comes into being, the blocks that are left keep what an exit reads of them, up
to an adoption by `initproc`, the wait queues only lose entries, and no other
task comes to run.  The module
also shows that the heap stays below the number of the next task in every run.
-/

namespace Kernel

variable {change : TaskControlBlock -> TaskControlBlock}

theorem task_modify (k : Kernel) (t x : TaskId) :
    (k.modify t change).task x = if x = t then (k.task t).map change else k.task x := by
  exact update_apply k.task t _ x

@[simp] theorem task_modify_self (k : Kernel) (t : TaskId) :
    (k.modify t change).task t = (k.task t).map change := by
  rw [task_modify, if_pos rfl]

variable {t x child : TaskId} {k after : Kernel} {task : TaskControlBlock} {held : Option TaskId}
  {may : TaskId -> Prop} {word val exitCode depth sig : Nat} {children : List TaskId}
  {translate : TaskId -> Option Nat} {answer : Int} {flags : CloneFlags}

@[simp] theorem task_modify_of_ne (k : Kernel) (different : x ≠ t) : (k.modify t change).task x = k.task x := by
  rw [task_modify, if_neg different]

variable {holds : Kernel -> Prop} {self : TaskControlBlock}
  {exitSignal : Signals} {list : List TaskId} {fault : Option Int} {event : Event} {nohang : Bool} {rounds : Nat}
  {call : Call} {s : TaskId} {pid : Int}

/-! ## What the functions do -/

theorem task_of_modify {new : TaskControlBlock} (present : (k.modify t change).task x = some new) :
    (x = t /\ ∃ old, k.task x = some old /\ change old = new) \/ (x ≠ t /\ k.task x = some new) := by
  by_cases same : x = t
  · subst same
    rw [task_modify_self] at present
    exact .inl ⟨rfl, Option.map_eq_some_iff.mp present⟩
  · rw [task_modify_of_ne k same] at present
    exact .inr ⟨same, present⟩

theorem task_of_forget (present : update k.task t none x = some task) : x ≠ t /\ k.task x = some task := by
  by_cases same : x = t
  · rw [same, update_self] at present
    cases present
  · rw [update_of_ne same] at present
    exact ⟨same, present⟩

theorem suspend_eq_ok {pinned : Bool} (done : k.suspendCurrentAndRunNext pinned = .ok after) :
    ∃ t, k.current = some t /\ after = (Kernel.modify { k with current := none } t fun task =>
      { task with taskStatus := .ready, pinned := pinned }).add t := by
  rcases ok_of_bind_ok done with ⟨⟨t, _⟩, taken, finished⟩
  rcases takeCurrent_eq_ok taken with ⟨current, rfl⟩
  cases finished
  exact ⟨t, current, rfl⟩

theorem block_eq_ok (done : k.blockCurrentAndRunNext call = .ok after) :
    ∃ t, k.current = some t /\ after = (Kernel.modify { k with current := none } t fun task =>
      { task with taskStatus := .interruptible, suspended := some call, pinned := call.keepsArc }).addInterruptible
        t := by
  rcases ok_of_bind_ok done with ⟨⟨t, _⟩, taken, finished⟩
  rcases takeCurrent_eq_ok taken with ⟨current, rfl⟩
  cases finished
  exact ⟨t, current, rfl⟩

theorem fetch_eq_ok (done : k.fetch = .ok after) :
    ∃ t rest, k.current = none /\ k.readyQueue = t :: rest /\
      after = { k.setStatus t .running with current := some t, readyQueue := rest } := by
  rw [fetch] at done
  split at done
  · cases done
  · rename_i idle
    split at done
    · cases done
    · rename_i t rest queue
      cases done
      exact ⟨t, rest, idle, queue, rfl⟩

/-- Tasks are woken one after the other, each of them seen to be interruptible. -/
inductive Wakes (may : TaskId -> Prop) : Kernel -> Kernel -> Prop
  | done (k : Kernel) : Wakes may k k
  | next {k after : Kernel} {t : TaskId} {task : TaskControlBlock} (allowed : may t)
      (present : k.task t = some task) (blocked : task.taskStatus = .interruptible)
      (later : Wakes may ((k.setStatus t .ready).tryWakeInterruptible t task.pid).2 after) : Wakes may k after

/-- The queue of `wake_at_most` is walked in order, and what is left was in it. -/
theorem wakeLoop_wakes {limit : Nat} {queue : List TaskId} :
    ∀ {k after : Kernel} {count total : Nat} {rest : List TaskId},
      (∀ t ∈ queue, held ≠ some t -> may t) ->
      wakeLoop held limit queue count k = .ok (total, rest, after) -> Wakes may k after /\ rest ⊆ queue := by
  induction queue with
  | nil =>
    intro k after count total rest _ done
    cases done
    exact ⟨.done k, List.Subset.refl _⟩
  | cons t queue ih =>
    intro k after count total rest allowed done
    have later : ∀ {middle : Kernel} {count : Nat},
        wakeLoop held limit queue count middle = .ok (total, rest, after) ->
        Wakes may middle after /\ rest ⊆ t :: queue := by
      intro middle count walked
      rcases ih (fun x member => allowed x (List.mem_cons_of_mem t member)) walked with ⟨wakes, left⟩
      exact ⟨wakes, List.subset_cons_of_subset t left⟩
    rw [wakeLoop] at done
    cases present : k.task t with
    | none =>
      simp only [present] at done
      exact later done
    | some task =>
      simp only [present] at done
      by_cases own : held = some t
      · rw [if_pos own] at done
        cases done
      · rw [if_neg own] at done
        by_cases blocked : task.taskStatus = .interruptible
        · rw [if_pos blocked] at done
          have mine := allowed t List.mem_cons_self own
          generalize (if ((k.setStatus t .ready).tryWakeInterruptible t task.pid).1 = true
            then count + 1 else count) = counted at done
          by_cases full : counted = limit
          · rw [if_pos full] at done
            cases done
            exact ⟨.next mine present blocked (.done _), List.subset_cons_self t queue⟩
          · rw [if_neg full] at done
            exact ⟨.next mine present blocked (later done).1, (later done).2⟩
        · rw [if_neg blocked] at done
          exact later done

theorem futexWake_eq_ok {futex count : Nat} (done : futexWake held futex word val k = .ok (count, after)) :
    ∃ woken rest,
      Wakes (fun t => t ∈ k.futexes futex word /\ held ≠ some t) k woken /\ rest ⊆ k.futexes futex word /\
        after = woken.setFutex futex word rest := by
  rcases ok_of_bind_ok done with ⟨⟨_, rest, woken⟩, walked, finished⟩
  cases finished
  rw [wakeAtMost] at walked
  split at walked
  · cases walked
    exact ⟨k, _, .done k, List.Subset.refl _, rfl⟩
  · rcases wakeLoop_wakes (fun t member free => And.intro member free) walked with ⟨wakes, left⟩
    exact ⟨woken, rest, wakes, left, rfl⟩

theorem expireLoop_wakes (now : TimeSpec) (waiters : List TimeoutWaiter) :
    ∀ (k : Kernel), Wakes (fun _ => True) k (expireLoop now waiters k).2 := by
  induction waiters with
  | nil =>
    intro k
    exact .done k
  | cons waiter waiters ih =>
    intro k
    rw [expireLoop]
    split
    · split
      · exact ih k
      · rename_i task present
        split
        · rename_i blocked
          exact .next trivial present blocked (ih _)
        · exact ih k
    · exact .done k

theorem task_addSignal (present : k.task t = some task) (signal : Signals) :
    (k.addSignal t signal).task t = some { task with sigpending := task.sigpending.insert signal } := by
  rw [addSignal, task_modify_self, present]
  rfl

theorem signalTask_wakes (present : k.task t = some task)
    (signal : Signals) : Wakes (· = t) (k.addSignal t signal) (k.signalTask t task signal) := by
  rw [signalTask]
  split
  · rename_i blocked
    exact .next rfl (task_addSignal present signal) blocked (.done _)
  · exact .done _

theorem sendSignal_preserves (holds : Kernel -> Prop) {signal : Signals} (held : holds k)
    (signals : ∀ task, k.task t = some task -> signal.isEmpty = false -> holds (k.signalTask t task signal)) :
    holds (k.sendSignal t signal) := by
  rw [sendSignal]
  split
  · exact held
  · rename_i task present
    split
    · exact held
    · rename_i given
      exact signals task present (Bool.eq_false_iff.mpr given)

theorem notifyParent_eq_ok (done : k.notifyParent t task = .ok after) : after = k \/
      ∃ p parent, task.exitSignal.isEmpty = false /\ task.parent = some p /\ p ≠ t /\
        k.task p = some parent /\ after = k.signalTask p parent task.exitSignal := by
  rw [notifyParent] at done
  split at done
  · cases done
    exact .inl rfl
  · rename_i given
    split at done
    · cases done
      exact .inl rfl
    · rename_i p named
      split at done
      · cases done
      · rename_i parent present
        split at done
        · cases done
        · rename_i other
          cases done
          exact .inr ⟨p, parent, Bool.eq_false_iff.mpr given, named, other, present, rfl⟩

theorem handOver_eq_ok
    (done : k.handOver t children = .ok after) : (children = [] /\ after = k) \/ (children ≠ [] /\ t ≠ k.initproc /\
      Wakes (· = (k.adopt children.reverse).initproc) (k.adopt children.reverse) after) := by
  rw [handOver] at done
  split at done
  · rename_i empty
    cases done
    exact .inl ⟨empty, rfl⟩
  · rename_i some
    split at done
    · cases done
    · rename_i other
      refine .inr ⟨some, other, ?_⟩
      simp only at done
      split at done
      · cases done
        exact .done _
      · rename_i init present
        split at done
        · rename_i blocked
          cases done
          exact .next rfl present blocked (.done _)
        · cases done
          exact .done _

theorem clearChildTid_eq_ok (done : k.clearChildTid translate t task = .ok after) : after = k \/
      ∃ word count, task.clearChildTid ≠ 0 /\ translate t = some word /\
        futexWake (some t) task.futex word 1 k = .ok (count, after) := by
  rw [clearChildTid] at done
  split at done
  · cases done
    exact .inl rfl
  · rename_i set
    split at done
    · cases done
      exact .inl rfl
    · rename_i word named
      rcases ok_of_bind_ok done with ⟨⟨count, _⟩, wakes, finished⟩
      cases finished
      exact .inr ⟨word, count, set, named, wakes⟩

/-- What the loss of one block that nobody holds preserves, a drop preserves. -/
theorem release_preserves (forgets : ∀ k t tids pids, holds k -> k.strongCount t = 0 -> holds { k with
      task := update k.task t none
      tidAllocators := tids
      pidAllocator := pids }) {depth : Nat} :
    ∀ {t : TaskId} {k after : Kernel}, holds k -> release depth t k = .ok after -> holds after := by
  induction depth with
  | zero =>
    intro t k after held done
    cases done
    exact held
  | succ depth ih =>
    intro t k after held done
    rw [release] at done
    split at done
    · cases done
      exact held
    · rename_i last
      split at done
      · cases done
        exact held
      · split at done
        · apply (Reached.of_foldlM done).invariant (forgets k t _ _ held (Decidable.not_not.mp last))
          intro before child later kept dropped
          exact ih kept dropped
        · cases done

/-- The loop of `sys_wait4` ends after some children have been reaped, or it blocks then. -/
theorem wait4Loop_preserves {t : TaskId}
    (reaps : ∀ k task c child reaped, holds k -> k.task t = some task -> k.task c = some child ->
      c ∈ task.children -> child.taskStatus = .zombie ->
      (k.modify t fun task => { task with children := task.children.erase c }).strongCount c = 0 ->
      (k.modify t fun task => { task with children := task.children.erase c }).dropArc c = .ok reaped ->
      holds reaped) :
    ∀ {k after : Kernel} {answer : Option Int}, holds k ->
      wait4Loop pid nohang fault rounds t k = .ok (answer, after) -> holds after \/
        ∃ last, holds last /\ nohang = false /\
          last.blockCurrentAndRunNext (.wait4 pid fault) = .ok after := by
  induction rounds with
  | zero =>
    intro k after answer _ done
    cases done
  | succ rounds ih =>
    intro k after answer held done
    rw [wait4Loop] at done
    split at done
    · cases done
    · rename_i task present
      simp only at done
      split at done
      · split at done
        · rename_i c chosen
          have test := List.find?_some chosen
          rcases Bool.and_eq_true_iff.mp test with ⟨zombie, _⟩
          rcases (Option.any_eq_true _ _).mp zombie with ⟨child, found, dead⟩
          split at done
          · cases done
          · rename_i last
            rcases ok_of_bind_ok done with ⟨reaped, dropped, others⟩
            have left := reaps k task c child reaped held present found (List.mem_of_find?_eq_some chosen)
              (beq_iff_eq.mp dead) (Decidable.not_not.mp last) dropped
            split at others
            · cases others
              exact .inl left
            · exact ih left others
        · split at done
          · cases done
            exact .inl held
          · rename_i hangs
            rcases ok_of_bind_ok done with ⟨_, slept, finished⟩
            cases finished
            exact .inr ⟨k, held, Bool.eq_false_iff.mpr hangs, slept⟩
      · cases done
        exact .inl held

/-- A task goes on in `sys_wait4`, or its call ends. -/
theorem resume_eq_ok {answer : Option Int} (done : k.resume = .ok (answer, after)) :
    ∃ t task, k.currentTask = .ok (t, task) /\
      ((∃ pid fault rounds, task.suspended = some (.wait4 pid fault) /\
        wait4Loop pid false fault rounds t (k.modify t fun task =>
          { task with suspended := none, pinned := false }) = .ok (answer, after)) \/
        after = k.modify t fun task => { task with suspended := none, pinned := false }) := by
  rcases ok_of_bind_ok done with ⟨⟨t, task⟩, current, going⟩
  refine ⟨t, task, current, ?_⟩
  dsimp only at going
  split at going
  · cases going
  · rename_i pid fault inside
    rcases ok_of_bind_ok going with ⟨⟨x, _⟩, again, loop⟩
    have same : k.current = some x := (currentTask_eq_ok again).1
    rw [(currentTask_eq_ok current).1] at same
    cases same
    exact .inl ⟨pid, fault, _, inside, loop⟩
  · rcases ok_of_bind_ok going with ⟨_, _, finished⟩
    cases finished
    exact .inr rfl

theorem mem_waitWithTimeout {timeout : TimeSpec} {waiter : TimeoutWaiter} :
    waiter ∈ (k.waitWithTimeout t timeout).timeouts ↔ waiter = ⟨t, timeout⟩ \/ waiter ∈ k.timeouts :=
  List.mem_orderedInsert _

/-- A thread that is to wait for a word gets an entry, and a deadline if there is one, and blocks. -/
theorem doFutexWait_eq_ok {loaded : Nat} {timeout : Option TimeSpec}
    {answer : Option Int} (done : k.doFutexWait word loaded val timeout = .ok (answer, after)) : after = k \/
      ∃ t task timeouts, k.currentTask = .ok (t, task) /\ loaded = val /\
        (∀ waiter ∈ timeouts, waiter ∈ k.timeouts \/ waiter.task = t) /\
        blockCurrentAndRunNext { k.setFutex task.futex word (k.futexes task.futex word ++ [t]) with
          timeouts := timeouts } (.futexWait word) = .ok after := by
  rcases ok_of_bind_ok done with ⟨⟨t, task⟩, current, going⟩
  dsimp only at going
  split at going
  · cases going
    exact .inl rfl
  · rename_i equal
    rcases ok_of_bind_ok going with ⟨_, slept, finished⟩
    cases finished
    refine .inr ⟨t, task, ?_⟩
    cases timeout with
    | none => exact ⟨k.timeouts, current, Decidable.not_not.mp equal, fun _ => .inl, slept⟩
    | some timeout =>
      refine ⟨_, current, Decidable.not_not.mp equal, fun waiter member => ?_, slept⟩
      rcases mem_waitWithTimeout.mp member with new | old
      · exact .inr (congrArg TimeoutWaiter.task new)
      · exact .inl old

/-- A block after some wake-ups and exits, against the block before: what an exit
of the task reads is the same, except that `initproc` may have adopted it. -/
structure Aged (initproc : TaskId) (old new : TaskControlBlock) : Prop where
  tgid : new.tgid = old.tgid
  exitSignal : new.exitSignal = old.exitSignal
  futex : new.futex = old.futex
  clearChildTid : new.clearChildTid = old.clearChildTid
  suspended : new.suspended = old.suspended
  parent : new.parent = old.parent \/ new.parent = some initproc
  status : new.taskStatus = old.taskStatus \/
    (old.taskStatus = .interruptible /\ new.taskStatus = .ready) \/ new.taskStatus = .zombie

theorem Aged.refl (initproc : TaskId) (task : TaskControlBlock) : Aged initproc task task :=
  ⟨rfl, rfl, rfl, rfl, rfl, .inl rfl, .inl rfl⟩

theorem Aged.trans {initproc : TaskId} {first second third : TaskControlBlock}
    (early : Aged initproc first second) (late : Aged initproc second third) : Aged initproc first third where
  tgid := late.tgid.trans early.tgid
  exitSignal := late.exitSignal.trans early.exitSignal
  futex := late.futex.trans early.futex
  clearChildTid := late.clearChildTid.trans early.clearChildTid
  suspended := late.suspended.trans early.suspended
  parent := by
    rcases late.parent with same | adopted
    · rw [same]
      exact early.parent
    · exact .inr adopted
  status := by
    rcases late.status with same | ⟨blocked, woken⟩ | dead
    · rw [same]
      exact early.status
    · rcases early.status with before | ⟨_, awake⟩ | dead
      · exact .inr (.inl ⟨before ▸ blocked, woken⟩)
      · rw [awake] at blocked
        cases blocked
      · rw [dead] at blocked
        cases blocked
    · exact .inr (.inr dead)

/-- The second kernel comes from the first by wake-ups, exits and drops. -/
structure Follows (k after : Kernel) : Prop where
  initproc : after.initproc = k.initproc
  nextTask : after.nextTask = k.nextTask
  block : ∀ x new, after.task x = some new ->
    ∃ old, k.task x = some old /\ Aged k.initproc old new
  futexes : ∀ futex word a, a ∈ after.futexes futex word -> a ∈ k.futexes futex word
  current : ∀ t, after.current = some t -> k.current = some t

open Follows

theorem Follows.of_eq (initproc : after.initproc = k.initproc)
    (nextTask : after.nextTask = k.nextTask) (task : after.task = k.task)
    (futexes : after.futexes = k.futexes) (current : ∀ t, after.current = some t -> k.current = some t) :
    Follows k after where
  initproc := initproc
  nextTask := nextTask
  block := fun _ new present => ⟨new, task ▸ present, .refl _ _⟩
  futexes := fun _ _ _ member => futexes ▸ member
  current := current

theorem Follows.refl (k : Kernel) : Follows k k := .of_eq rfl rfl rfl rfl fun _ same => same

theorem Follows.trans {first second third : Kernel} (early : Follows first second)
    (late : Follows second third) : Follows first third where
  initproc := late.initproc.trans early.initproc
  nextTask := late.nextTask.trans early.nextTask
  block := by
    intro x new present
    rcases late.block x new present with ⟨middle, between, aged⟩
    rcases early.block x middle between with ⟨old, before, older⟩
    rw [early.initproc] at aged
    exact ⟨old, before, older.trans aged⟩
  futexes := fun futex word a member => early.futexes futex word a (late.futexes futex word a member)
  current := fun t same => early.current t (late.current t same)

theorem Follows.modify (k : Kernel) (t : TaskId)
    (aged : ∀ task, k.task t = some task -> Aged k.initproc task (change task)) :
    Follows k (k.modify t change) where
  initproc := rfl
  nextTask := rfl
  block := by
    intro x new present
    rcases task_of_modify present with ⟨rfl, old, before, rfl⟩ | ⟨_, before⟩
    · exact ⟨old, before, aged old before⟩
    · exact ⟨new, before, .refl _ _⟩
  futexes := fun _ _ _ member => member
  current := fun _ same => same

theorem Follows.tryWake (k : Kernel) (t : TaskId) (pid : Nat) : Follows k (k.tryWakeInterruptible t pid).2 := by
  rw [tryWakeInterruptible]
  split <;> exact .of_eq rfl rfl rfl rfl fun _ same => same

theorem Follows.wakes (wakes : Wakes may k after) : Follows k after := by
  induction wakes with
  | done k => exact .refl k
  | next _ present blocked _ ih =>
    refine Follows.trans (Follows.modify _ _ ?_) ((tryWake _ _ _).trans ih)
    intro old before
    rw [present] at before
    cases before
    exact ⟨rfl, rfl, rfl, rfl, rfl, .inl rfl, .inr (.inl ⟨blocked, rfl⟩)⟩

theorem futexes_setFutex (k : Kernel) (futex word : Nat) (queue : List TaskId) (f w : Nat) :
    (k.setFutex futex word queue).futexes f w = if f = futex /\ w = word then queue else k.futexes f w := by
  rw [setFutex]
  dsimp only
  by_cases sameFutex : f = futex
  · subst sameFutex
    rw [update_self, update_apply]
    by_cases sameWord : w = word
    · rw [if_pos sameWord, if_pos ⟨rfl, sameWord⟩]
    · rw [if_neg sameWord, if_neg fun both => sameWord both.2]
  · rw [update_of_ne sameFutex, if_neg fun both => sameFutex both.1]

theorem Follows.futexWake {futex count : Nat}
    (done : futexWake held futex word val k = .ok (count, after)) : Follows k after := by
  rcases futexWake_eq_ok done with ⟨_, _, wakes, left, rfl⟩
  have follows := Follows.wakes wakes
  refine ⟨follows.initproc, follows.nextTask, follows.block, ?_, follows.current⟩
  intro f w a member
  rw [futexes_setFutex] at member
  by_cases same : f = futex /\ w = word
  · rw [if_pos same] at member
    rw [same.1, same.2]
    exact left member
  · rw [if_neg same] at member
    exact follows.futexes f w a member

theorem Follows.signalTask (present : k.task t = some task)
    (signal : Signals) : Follows k (k.signalTask t task signal) := by
  have signalled : Follows k (k.addSignal t signal) :=
    .modify k t fun _ _ => ⟨rfl, rfl, rfl, rfl, rfl, .inl rfl, .inl rfl⟩
  exact signalled.trans (.wakes (signalTask_wakes present signal))

theorem Follows.notifyParent (done : k.notifyParent t task = .ok after) : Follows k after := by
  rcases notifyParent_eq_ok done with rfl | ⟨_, _, _, _, _, present, rfl⟩
  · exact .refl after
  · exact .signalTask present task.exitSignal

theorem Follows.adopt : ∀ (k : Kernel), Follows k (k.adopt children) := by
  induction children with
  | nil =>
    intro k
    exact .refl k
  | cons child children ih =>
    intro k
    have renamed : Follows k (k.modify child fun task => { task with parent := some k.initproc }) :=
      .modify k child fun _ _ => ⟨rfl, rfl, rfl, rfl, rfl, .inr rfl, .inl rfl⟩
    have one : Follows k (k.adoptChild child) :=
      renamed.trans (.modify _ _ fun _ _ => ⟨rfl, rfl, rfl, rfl, rfl, .inl rfl, .inl rfl⟩)
    exact one.trans (ih _)

theorem Follows.handOver (done : k.handOver t children = .ok after) : Follows k after := by
  rcases handOver_eq_ok done with ⟨_, rfl⟩ | ⟨_, _, wakes⟩
  · exact .refl after
  · exact (adopt k).trans (.wakes wakes)

theorem Follows.clearChildTid (done : k.clearChildTid translate t task = .ok after) : Follows k after := by
  rcases clearChildTid_eq_ok done with rfl | ⟨_, _, _, _, woken⟩
  · exact .refl after
  · exact .futexWake woken

/-- The four parts of `do_exit`. -/
theorem doExit_eq_ok (done : doExit translate t exitCode k = .ok after) :
    ∃ task notified handed,
      k.task t = some task /\ k.notifyParent t task = .ok notified /\
      (notified.modify t fun task => { task with taskStatus := .zombie, exitCode := exitCode }).handOver t
        task.children = .ok handed /\
      (handed.modify t fun task => { task with children := [] }).clearChildTid translate t task = .ok after := by
  rw [doExit] at done
  cases present : k.task t with
  | none =>
    simp only [present] at done
    cases done
  | some task =>
    simp only [present] at done
    rcases ok_of_bind_ok done with ⟨notified, first, others⟩
    rcases ok_of_bind_ok others with ⟨handed, second, last⟩
    exact ⟨task, notified, handed, rfl, first, second, last⟩

theorem Follows.zombie (k : Kernel) (t : TaskId) (exitCode : Nat) :
    Follows k (k.modify t fun task => { task with taskStatus := .zombie, exitCode := exitCode }) :=
  .modify k t fun _ _ => ⟨rfl, rfl, rfl, rfl, rfl, .inl rfl, .inr (.inr rfl)⟩

theorem Follows.childless (k : Kernel) (t : TaskId) :
    Follows k (k.modify t fun task => { task with children := [] }) :=
  .modify k t fun _ _ => ⟨rfl, rfl, rfl, rfl, rfl, .inl rfl, .inl rfl⟩

theorem Follows.doExit (done : doExit translate t exitCode k = .ok after) : Follows k after := by
  rcases doExit_eq_ok done with ⟨_, notified, handed, _, first, second, last⟩
  exact (notifyParent first).trans ((zombie notified t exitCode).trans
    ((handOver second).trans ((childless handed t).trans (clearChildTid last))))

variable (done : release depth t k = .ok after)

include done in
theorem Follows.release : Follows k after := by
  refine @release_preserves (Follows k) ?_ depth t k after (.refl k) done
  intro middle x tids pids follows _
  refine follows.trans ⟨rfl, rfl, ?_, fun _ _ _ member => member, fun _ same => same⟩
  intro y new present
  exact ⟨new, (task_of_forget present).2, .refl _ _⟩

theorem Follows.exitCurrent (done : exitCurrentAndRunNext translate exitCode k = .ok after) : Follows k after := by
  rcases ok_of_bind_ok done with ⟨⟨_, _⟩, taken, others⟩
  rcases takeCurrent_eq_ok taken with ⟨_, rfl⟩
  rcases ok_of_bind_ok others with ⟨_, first, dropped⟩
  have started : Follows k { k with current := none } := .of_eq rfl rfl rfl rfl fun _ => nofun
  exact started.trans ((doExit first).trans (release dropped))

theorem Follows.sendSignal (k : Kernel) (t : TaskId) (signal : Signals) : Follows k (k.sendSignal t signal) :=
  sendSignal_preserves (Follows k) (.refl k) fun _ present _ => .signalTask present signal

/-- One signal is sent to one task, or nothing is done. -/
def Sends (k after : Kernel) : Prop :=
  after = k \/ ∃ t signal, after = k.sendSignal t signal

theorem Sends.preserves {k after : Kernel} (sends : Sends k after) (held : holds k)
    (one : ∀ t signal, holds (k.sendSignal t signal)) : holds after := by
  rcases sends with rfl | ⟨t, signal, rfl⟩
  · exact held
  · exact one t signal

theorem sends_of_kill {test : TaskControlBlock -> Bool} {found missing : Int} {signal : Signals} (done : (do
      match <- k.findTask test with
      | some t => .ok (found, k.sendSignal t signal)
      | none => .ok (missing, k) : Outcome (Int × Kernel)) = .ok (answer, after)) :
    Sends k after := by
  rcases ok_of_bind_ok done with ⟨target, _, sent⟩
  cases target with
  | none =>
    cases sent
    exact .inl rfl
  | some t =>
    cases sent
    exact .inr ⟨t, signal, rfl⟩

theorem sysKill_sends {pid : Nat} (done : k.sysKill pid sig = .ok (answer, after)) : Sends k after := by
  rw [sysKill] at done
  split at done
  · cases done
    exact .inl rfl
  · split at done
    · exact sends_of_kill done
    · cases done
      exact .inl rfl

theorem sysTkill_sends {tid : Nat} (done : k.sysTkill tid sig = .ok (answer, after)) : Sends k after := by
  rw [sysTkill] at done
  split at done
  · cases done
    exact .inl rfl
  · split at done
    · exact sends_of_kill done
    · cases done
      exact .inl rfl

theorem sysTgkill_sends {tgid tid : Nat}
    (done : k.sysTgkill tgid tid sig = .ok (answer, after)) : Sends k after := by
  rw [sysTgkill] at done
  split at done
  · cases done
    exact .inl rfl
  · rename_i signal _
    rcases ok_of_bind_ok done with ⟨target, _, sent⟩
    cases target with
    | none =>
      cases sent
      exact .inl rfl
    | some t =>
      dsimp only at sent
      split at sent
      · cases sent
        exact .inr ⟨t, signal, rfl⟩
      · cases sent
        exact .inl rfl

/-- What an event does, without the frame of its system call. -/
def Does (k : Kernel) : Event -> Kernel -> Prop
  | .advance ticks, after => after = { k with tick := k.tick + ticks }
  | .fetch, after => k.fetch = .ok after
  | .suspend pinned, after => k.suspendCurrentAndRunNext pinned = .ok after
  | .block pinned, after => k.blockCurrentAndRunNext (.other pinned) = .ok after
  | .futexWait word loaded val timeout, after => ∃ t task answer,
    k.currentTask = .ok (t, task) /\ task.suspended = none /\
      k.doFutexWait word loaded val timeout = .ok (answer, after)
  | .futexWake word val, after => ∃ futex count,
    futexWake none futex word val k = .ok (count, after)
  | .nanosleep req, after => ∃ t task,
    k.currentTask = .ok (t, task) /\ task.suspended = none /\
      (k.waitWithTimeout t (k.now.add req)).blockCurrentAndRunNext (.nanosleep (k.now.add req)) = .ok after
  | .sigtimedwait set timeout, after => ∃ t task,
    k.currentTask = .ok (t, task) /\ task.suspended = none /\
      (k.waitWithTimeout t (k.now.add timeout)).blockCurrentAndRunNext (.sigtimedwait set k.now timeout) = .ok after
  | .resume, after => ∃ answer, k.resume = .ok (answer, after)
  | .takeSignal signal, after => ∃ t task,
    k.currentTask = .ok (t, task) /\ task.suspended = none /\
      after = k.modify t fun task => { task with sigpending := task.sigpending.remove signal }
  | .kill _ _, after => Sends k after
  | .tkill _ _, after => Sends k after
  | .tgkill _ _ _, after => Sends k after
  | .expire, after => after = k.doWakeExpired
  | .exit translate exitCode, after => exitCurrentAndRunNext translate exitCode k = .ok after
  | .exitGroup translate exitCode, after => exitGroupAndRunNext translate exitCode k = .ok after
  | .clone flags ctid ptidFault, after => ∃ answer, k.sysClone flags ctid ptidFault = .ok (answer, after)
  | .setsid, after => k.sysSetsid = .ok after
  | .wait4 pid nohang fault, after => ∃ t task answer,
    k.currentTask = .ok (t, task) /\
      wait4Loop pid nohang fault (task.children.length + 1) t k = .ok (answer, after)
  | .loadElf, after => k.loadElf = .ok after

theorem ok_of_silent {body : Outcome Kernel} (taken : k.call (silently body) = .ok after) : body = .ok after := by
  rcases ok_of_call taken with ⟨_, done⟩
  cases body with
  | error halt => cases done
  | ok reached =>
    cases done
    rfl

theorem does_of_step (taken : Step k event after) : Does k event after := by
  cases event with
  | advance ticks | expire =>
    cases taken
    rfl
  | fetch => exact taken
  | suspend pinned | block pinned | exit translate exitCode | exitGroup translate exitCode | setsid | loadElf =>
    exact ok_of_silent taken
  | futexWait word loaded val timeout =>
    rcases ok_of_call taken with ⟨answer, body⟩
    rcases free_of_call taken with ⟨t, task, current, free⟩
    exact ⟨t, task, answer, current, free, body⟩
  | futexWake word val =>
    rcases ok_of_bind_ok taken with ⟨⟨t, task⟩, _, called⟩
    exact ⟨task.futex, ok_of_call called⟩
  | nanosleep req | sigtimedwait set timeout =>
    rcases free_of_call taken with ⟨t, task, current, free⟩
    rcases ok_of_bind_ok (ok_of_silent taken) with ⟨⟨x, block⟩, again, slept⟩
    rw [current] at again
    cases again
    exact ⟨t, task, current, free, slept⟩
  | resume =>
    rcases ok_of_bind_ok taken with ⟨⟨answer, _⟩, resumed, finished⟩
    cases finished
    exact ⟨answer, resumed⟩
  | takeSignal signal =>
    rcases ok_of_bind_ok taken with ⟨⟨t, task⟩, current, called⟩
    rcases ok_of_call called with ⟨_, body⟩
    rcases free_of_call called with ⟨x, block, again, free⟩
    rw [current] at again
    cases again
    cases body
    exact ⟨t, task, current, free, rfl⟩
  | kill pid sig =>
    rcases ok_of_call taken with ⟨_, body⟩
    exact sysKill_sends body
  | tkill tid sig =>
    rcases ok_of_call taken with ⟨_, body⟩
    exact sysTkill_sends body
  | tgkill tgid tid sig =>
    rcases ok_of_call taken with ⟨_, body⟩
    exact sysTgkill_sends body
  | clone flags ctid ptidFault => exact ok_of_call taken
  | wait4 pid nohang fault =>
    rcases ok_of_call taken with ⟨answer, body⟩
    rcases ok_of_bind_ok body with ⟨⟨t, task⟩, current, loop⟩
    exact ⟨t, task, answer, current, loop⟩

/-! ## What wake-ups and drops do not touch -/

/-- Wake-ups, signals and drops leave the wait queues, the deadlines, the running
task and the clock alone. -/
structure SameWaits (k after : Kernel) : Prop where
  futexes : after.futexes = k.futexes
  timeouts : after.timeouts = k.timeouts
  current : after.current = k.current
  tick : after.tick = k.tick

theorem SameWaits.refl (k : Kernel) : SameWaits k k := ⟨rfl, rfl, rfl, rfl⟩

theorem SameWaits.trans {first second third : Kernel} (early : SameWaits first second)
    (late : SameWaits second third) : SameWaits first third :=
  ⟨late.futexes.trans early.futexes, late.timeouts.trans early.timeouts, late.current.trans early.current,
    late.tick.trans early.tick⟩

theorem SameWaits.wakes (wakes : Wakes may k after) : SameWaits k after := by
  induction wakes with
  | done k => exact .refl k
  | @next k after t task _ _ _ _ ih =>
    refine SameWaits.trans ?_ ih
    rw [tryWakeInterruptible]
    split <;> exact ⟨rfl, rfl, rfl, rfl⟩

theorem SameWaits.sendSignal (k : Kernel) (t : TaskId) (signal : Signals) :
    SameWaits k (k.sendSignal t signal) := by
  refine sendSignal_preserves (SameWaits k) (.refl k) fun task present _ => ?_
  have signalled : SameWaits k (k.addSignal t signal) := ⟨rfl, rfl, rfl, rfl⟩
  exact signalled.trans (.wakes (signalTask_wakes present signal))

include done

theorem SameWaits.release : SameWaits k after :=
  @release_preserves (SameWaits k) (fun _ _ _ _ same _ => same.trans ⟨rfl, rfl, rfl, rfl⟩) depth t k after
    (.refl k) done

/-- A block that survives a drop is as it was. -/
theorem task_of_release : ∀ x task, after.task x = some task -> k.task x = some task :=
  @release_preserves (fun later => ∀ x task, later.task x = some task -> k.task x = some task)
    (fun _ _ _ _ kept _ x task present => kept x task (task_of_forget present).2) depth t k after
    (fun _ _ present => present) done

/-! ## The heap is bounded -/

/-- Every task has a number below that of the next one. -/
def Bounded (k : Kernel) : Prop := ∀ t task, k.task t = some task -> t < k.nextTask

variable (bounded : Bounded k)

include bounded

omit done

theorem Bounded.follows (follows : Follows k after) : Bounded after := by
  intro t task present
  rcases follows.block t task present with ⟨old, before, _⟩
  rw [follows.nextTask]
  exact bounded t old before

theorem Bounded.modify (t : TaskId)
    (change : TaskControlBlock -> TaskControlBlock) : Bounded (k.modify t change) := by
  intro x task present
  rcases task_of_modify present with ⟨_, old, before, _⟩ | ⟨_, before⟩
  · exact bounded x old before
  · exact bounded x task before

omit bounded

/-- `sys_clone` puts the new block on the heap and enlists it. -/
theorem cloneTask_eq_ok (done : k.cloneTask flags exitSignal = .ok (child, after)) :
    ∃ s self, k.currentTask = .ok (s, self) /\ child = k.nextTask /\
      { (k.cloneBlock s self flags exitSignal).2 with
        task := update k.task child (some (k.cloneBlock s self flags exitSignal).1)
        nextTask := child + 1 }.enlist s self flags child = .ok after := by
  rcases ok_of_bind_ok done with ⟨⟨s, self⟩, current, going⟩
  rcases ok_of_bind_ok going with ⟨_, entered, finished⟩
  cases finished
  exact ⟨s, self, current, rfl, entered⟩

/-- The parent that `sys_clone` gives to the new task. -/
def parentOfClone (s : TaskId) (self : TaskControlBlock) (flags : CloneFlags) : Option TaskId :=
  if isSibling flags then self.parent else some s

/-- Enlisting appends the new task to the list of its parent, if it has one. -/
theorem enlist_eq_ok (done : k.enlist s self flags child = .ok after) :
    (parentOfClone s self flags = none /\ after = k) \/ ∃ p, parentOfClone s self flags = some p /\
      after = k.modify p fun task => { task with children := task.children ++ [child] } := by
  rw [enlist] at done
  rw [parentOfClone]
  split at done
  · rename_i sibling
    rw [if_pos sibling]
    split at done
    · rename_i orphan
      cases done
      exact .inl ⟨orphan, rfl⟩
    · rename_i grandparent named
      split at done
      · cases done
      · split at done
        · cases done
        · cases done
          exact .inr ⟨grandparent, named, rfl⟩
  · rename_i own
    cases done
    rw [if_neg own]
    exact .inr ⟨s, rfl, rfl⟩

include bounded

theorem Bounded.enlist (done : k.enlist s self flags child = .ok after) : Bounded after := by
  rcases enlist_eq_ok done with ⟨_, rfl⟩ | ⟨p, _, rfl⟩
  · exact bounded
  · exact bounded.modify p _

theorem Bounded.cloneTask (done : k.cloneTask flags exitSignal = .ok (child, after)) : Bounded after := by
  rcases cloneTask_eq_ok done with ⟨_, _, _, rfl, entered⟩
  refine Bounded.enlist (fun t task present => ?_) entered
  by_cases new : t = k.nextTask
  · rw [new]
    exact Nat.lt_succ_self k.nextTask
  · dsimp only at present
    rw [update_of_ne new] at present
    exact Nat.lt_succ_of_lt (bounded t task present)

omit bounded

end Kernel

end GCore.Task
