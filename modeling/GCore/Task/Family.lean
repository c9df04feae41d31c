import Mathlib.Algebra.Order.BigOperators.Group.List
import Mathlib.Algebra.Order.Group.Nat
import GCore.Library.Forest
import GCore.Task.Aging

namespace GCore.Task

open Library Forest List Function Option Kernel

/-!
# The process tree

A task names its parent by a `Weak` and a parent its children by `Arc`s.  Both
ends are written at different places, and `do_exit` and `sys_clone` upgrade the
`Weak` without asking.  The forest of a kernel forgets everything but these
links; each operation on tasks is an operation on the forest, or leaves it alone.

Two operations can break the links.  `sys_setsid` removes from the parent's list
all children with the caller's thread number, and all leaders of processes have
the number one.  `load_elf` drops the other threads of its group from the
queues; one without a parent is freed then, and its children stay behind.  In
every run from boot in which the first finds only the caller, and the second no
such thread with children, the links stay consistent.
-/

namespace Kernel

/-- The links between the tasks. -/
def forest (k : Kernel) : Forest TaskId :=
  fun t => (k.task t).map fun task => ⟨task.parent, task.children⟩

variable {k after : Kernel} {t x : TaskId} {task new : TaskControlBlock}
  {change : TaskControlBlock -> TaskControlBlock} {translate : TaskId -> Option Nat}
  {list children : List TaskId} {exitCode : Nat} {flags : CloneFlags}

theorem forest_of_task (present : k.task t = some task) : k.forest t = some ⟨task.parent, task.children⟩ := by
  rw [forest, present]
  rfl

theorem task_of_forest {node : Node TaskId} (present : k.forest t = some node) :
    ∃ task, k.task t = some task /\ task.parent = node.parent /\ task.children = node.children := by
  rcases map_eq_some_iff.mp present with ⟨task, found, rfl⟩
  exact ⟨task, found, rfl, rfl⟩

/-- A zombie other than `initproc` has handed over its children. -/
def ZombiesChildless (k : Kernel) : Prop :=
  ∀ t task, k.task t = some task -> task.taskStatus = .zombie -> t ≠ k.initproc -> task.children = []

/-- The running task has not exited. -/
def RunningAlive (k : Kernel) : Prop :=
  ∀ t task, k.current = some t -> k.task t = some task -> task.taskStatus ≠ .zombie

structure Family (k : Kernel) : Prop where
  linked : Linked k.forest
  rooted : ∃ init, k.task k.initproc = some init /\ init.parent = none
  zombies : ZombiesChildless k
  running : RunningAlive k
  bounded : Bounded k

open Family

/-! ## Steps that leave the links alone -/

def NoNewZombies (k after : Kernel) : Prop :=
  ∀ x new, after.task x = some new -> new.taskStatus = .zombie ->
    ∃ old, k.task x = some old /\ old.taskStatus = .zombie

structure SameLinks (k after : Kernel) : Prop where
  initproc : after.initproc = k.initproc
  nextTask : after.nextTask = k.nextTask
  forest : after.forest = k.forest
  zombies : NoNewZombies k after
  running : ∀ t task, after.current = some t -> after.task t = some task ->
    task.taskStatus = .zombie -> k.current = some t

theorem SameLinks.of_eq (initproc : after.initproc = k.initproc)
    (nextTask : after.nextTask = k.nextTask) (task : after.task = k.task)
    (current : ∀ t, after.current = some t -> k.current = some t) : SameLinks k after where
  initproc := initproc
  nextTask := nextTask
  forest := by
    funext x
    rw [Kernel.forest, task]
    rfl
  zombies := fun _ new present dead => ⟨new, task ▸ present, dead⟩
  running := fun t _ same _ _ => current t same

theorem SameLinks.refl (k : Kernel) : SameLinks k k := .of_eq rfl rfl rfl fun _ same => same

theorem SameLinks.trans {first second third : Kernel} (early : SameLinks first second)
    (late : SameLinks second third) : SameLinks first third where
  initproc := late.initproc.trans early.initproc
  nextTask := late.nextTask.trans early.nextTask
  forest := late.forest.trans early.forest
  zombies := by
    intro x new present dead
    rcases late.zombies x new present dead with ⟨middle, between, died⟩
    exact early.zombies x middle between died
  running := by
    intro t task current present dead
    rcases late.zombies t task present dead with ⟨middle, between, died⟩
    exact early.running t middle (late.running t task current present dead) between died

/-- The forest after one block has changed. -/
theorem forest_modify (k : Kernel) (t : TaskId) {change : TaskControlBlock -> TaskControlBlock}
    {link : Node TaskId -> Node TaskId}
    (same : ∀ task, (⟨(change task).parent, (change task).children⟩ : Node TaskId) =
      link ⟨task.parent, task.children⟩) (x : TaskId) :
    (k.modify t change).forest x = if x = t then (k.forest t).map link else k.forest x := by
  by_cases own : x = t
  · rw [if_pos own, own, forest, task_modify_self, forest, Option.map_map, Option.map_map]
    exact map_congr fun task _ => same task
  · rw [if_neg own, forest, task_modify_of_ne k own]
    rfl

theorem forest_modify_same (k : Kernel) (t : TaskId) (parent : ∀ task, (change task).parent = task.parent)
    (children : ∀ task, (change task).children = task.children) :
    (k.modify t change).forest = k.forest := by
  funext x
  rw [@forest_modify k t change id (fun task => by rw [parent, children]; rfl) x]
  split
  · rename_i own
    rw [own, Option.map_id, id]
  · rfl

/-- One block changes, but not in its links, and does not become a zombie. -/
theorem SameLinks.of_modify (task : after.task = (k.modify t change).task) (initproc : after.initproc = k.initproc)
    (nextTask : after.nextTask = k.nextTask) (current : ∀ t, after.current = some t -> k.current = some t)
    (parent : ∀ task, (change task).parent = task.parent)
    (children : ∀ task, (change task).children = task.children)
    (alive : ∀ task, (change task).taskStatus = .zombie -> task.taskStatus = .zombie) :
    SameLinks k after where
  initproc := initproc
  nextTask := nextTask
  forest := by
    rw [<- forest_modify_same k t parent children]
    funext x
    rw [Kernel.forest, task]
    rfl
  zombies := by
    intro x new present dead
    rw [task] at present
    rcases task_of_modify present with ⟨_, old, before, rfl⟩ | ⟨_, before⟩
    · exact ⟨old, before, alive old dead⟩
    · exact ⟨new, before, dead⟩
  running := fun t _ same _ _ => current t same

theorem SameLinks.setStatus (k : Kernel) (t : TaskId) {status : TaskStatus} (alive : status ≠ .zombie) :
    SameLinks k (k.setStatus t status) :=
  .of_modify rfl rfl rfl (fun _ same => same) (fun _ => rfl) (fun _ => rfl) fun _ dead => absurd dead alive

/-- A change of other parts of a block. -/
theorem SameLinks.modify (k : Kernel) (t : TaskId) (kept : ∀ task,
    ((change task).parent, (change task).children, (change task).taskStatus) =
      (task.parent, task.children, task.taskStatus)) : SameLinks k (k.modify t change) := by
  simp only [Prod.mk.injEq] at kept
  exact .of_modify rfl rfl rfl (fun _ same => same) (fun task => (kept task).1) (fun task => (kept task).2.1)
    fun task dead => (kept task).2.2 ▸ dead

theorem SameLinks.wakes {may : TaskId -> Prop} (wakes : Wakes may k after) : SameLinks k after := by
  induction wakes with
  | done k => exact .refl k
  | @next k after t task _ _ _ _ ih =>
    have readied : SameLinks k (k.setStatus t .ready) := .setStatus k t (by decide)
    refine readied.trans (SameLinks.trans ?_ ih)
    rw [tryWakeInterruptible]
    split <;> exact .of_eq rfl rfl rfl fun _ same => same

variable {ptidFault : Option Int} {held : Option TaskId} {event : Event} {ctid : Nat}

theorem SameLinks.futexWake {futex word val count : Nat}
    (done : futexWake held futex word val k = .ok (count, after)) : SameLinks k after := by
  rcases futexWake_eq_ok done with ⟨_, _, wakes, _, rfl⟩
  exact (SameLinks.wakes wakes).trans (.of_eq rfl rfl rfl fun _ same => same)

theorem SameLinks.signalTask (present : k.task t = some task)
    (signal : Signals) : SameLinks k (k.signalTask t task signal) := by
  have signalled : SameLinks k (k.addSignal t signal) := .modify k t fun _ => rfl
  exact signalled.trans (.wakes (signalTask_wakes present signal))

theorem SameLinks.sendSignal (k : Kernel) (t : TaskId) (signal : Signals) : SameLinks k (k.sendSignal t signal) :=
  sendSignal_preserves (SameLinks k) (.refl k) fun _ present _ => .signalTask present signal

theorem SameLinks.suspend {pinned : Bool}
    (done : k.suspendCurrentAndRunNext pinned = .ok after) : SameLinks k after := by
  rcases suspend_eq_ok done with ⟨_, _, rfl⟩
  refine SameLinks.of_modify rfl rfl rfl ?_ ?_ ?_ ?_
  · exact fun _ => nofun
  · exact fun _ => rfl
  · exact fun _ => rfl
  · exact fun _ => nofun

theorem SameLinks.block {call : Call} (done : k.blockCurrentAndRunNext call = .ok after) : SameLinks k after := by
  rcases block_eq_ok done with ⟨_, _, rfl⟩
  refine SameLinks.of_modify rfl rfl rfl ?_ ?_ ?_ ?_
  · exact fun _ => nofun
  · exact fun _ => rfl
  · exact fun _ => rfl
  · exact fun _ => nofun

theorem SameLinks.fetch (done : k.fetch = .ok after) : SameLinks k after := by
  rcases fetch_eq_ok done with ⟨t, _, _, _, rfl⟩
  have fetched : SameLinks k (k.setStatus t .running) := .setStatus k t (by decide)
  refine ⟨fetched.initproc, fetched.nextTask, fetched.forest, fetched.zombies, ?_⟩
  -- The new running task has the status for it.
  intro x task same present dead
  cases same
  have own : (k.setStatus t .running).task t = some task := present
  rw [Kernel.setStatus, task_modify_self] at own
  rcases map_eq_some_iff.mp own with ⟨_, _, rfl⟩
  cases dead

theorem SameLinks.notifyParent (done : k.notifyParent t task = .ok after) : SameLinks k after := by
  rcases notifyParent_eq_ok done with rfl | ⟨_, _, _, _, _, present, rfl⟩
  · exact .refl after
  · exact .signalTask present task.exitSignal

theorem SameLinks.clearChildTid (done : k.clearChildTid translate t task = .ok after) : SameLinks k after := by
  rcases clearChildTid_eq_ok done with rfl | ⟨_, _, _, _, woken⟩
  · exact .refl after
  · exact .futexWake woken

/-- Where the links are the same, a block on either heap has one with the same links on the other. -/
theorem SameLinks.block_before (same : SameLinks k after) (present : after.task x = some new) :
    ∃ old, k.task x = some old /\ old.parent = new.parent /\ old.children = new.children := by
  have node := forest_of_task present
  rw [same.forest] at node
  exact task_of_forest node

theorem SameLinks.block_after (same : SameLinks k after)
    {old : TaskControlBlock} (present : k.task x = some old) :
    ∃ new, after.task x = some new /\ new.parent = old.parent /\ new.children = old.children := by
  have node := forest_of_task present
  rw [<- same.forest] at node
  exact task_of_forest node

variable (family : Family k)

include family

/-- A step that keeps the links consistent keeps the rest, if no task comes into
being, none exits and none gets a child. -/
theorem Family.of_blocks (linked : Linked after.forest)
    (initproc : after.initproc = k.initproc) (nextTask : after.nextTask = k.nextTask)
    (rooted : ∃ init, after.task k.initproc = some init /\ init.parent = none)
    (running : ∀ t task, after.current = some t -> after.task t = some task ->
      task.taskStatus = .zombie -> k.current = some t)
    (block : ∀ x new, after.task x = some new -> ∃ old, k.task x = some old /\
      (new.taskStatus = .zombie -> old.taskStatus = .zombie) /\ new.children ⊆ old.children) :
    Family after := by
  refine ⟨linked, by rw [initproc]; exact rooted, ?_, ?_, ?_⟩
  · intro t new present dead other
    rcases block t new present with ⟨old, before, died, fewer⟩
    rw [family.zombies t old before (died dead) (initproc ▸ other)] at fewer
    exact subset_nil.mp fewer
  · intro t new current present dead
    rcases block t new present with ⟨old, before, died, _⟩
    exact family.running t old (running t new current present dead) before (died dead)
  · intro t new present
    rcases block t new present with ⟨old, before, _⟩
    rw [nextTask]
    exact family.bounded t old before

theorem Family.same (same : SameLinks k after) : Family after := by
  refine family.of_blocks (same.forest ▸ family.linked) same.initproc same.nextTask ?_ same.running ?_
  · rcases family.rooted with ⟨_, present, orphan⟩
    rcases same.block_after present with ⟨new, found, sameParent, _⟩
    exact ⟨new, found, by rw [sameParent]; exact orphan⟩
  · intro t new present
    rcases same.block_before present with ⟨old, before, _, children⟩
    refine ⟨old, before, fun dead => ?_, children ▸ List.Subset.refl _⟩
    rcases same.zombies t new present dead with ⟨_, found, died⟩
    rw [before] at found
    cases found
    exact died

/-- A parent is there and lists its child once. -/
theorem Family.parentOf {p : TaskId} (present : k.task t = some task) (named : task.parent = some p) :
    ∃ parent, k.task p = some parent /\ parent.children.count t = 1 := by
  rcases family.linked.parent (forest_of_task present) named with ⟨_, found, once⟩
  rcases task_of_forest found with ⟨parent, above, _, children⟩
  exact ⟨parent, above, by rw [children]; exact once⟩

/-! ## Drops -/

omit family

/-- A listed child has an `Arc`. -/
theorem strongCount_of_child (bounded : Bounded k) {p c : TaskId} {parent : TaskControlBlock}
    (present : k.task p = some parent) (member : c ∈ parent.children) : k.strongCount c ≠ 0 := by
  have listed : parent.children.count c ∈
      (range k.nextTask).map fun p => (k.task p).elim 0 fun task => task.children.count c := by
    refine mem_map.mpr ⟨p, mem_range.mpr (bounded p parent present), ?_⟩
    rw [present]
    rfl
  have positive := count_pos_iff.mpr member
  have least := le_sum_of_mem listed
  rw [strongCount]
  omega

theorem strongCount_of_current (current : k.current = some t) : k.strongCount t ≠ 0 := by
  rw [strongCount, if_pos current]
  omega

/-- Nothing happens to a task that has another holder, or is gone already. -/
theorem dropArc_of_kept (kept : k.strongCount t ≠ 0 \/ k.task t = none)
    (done : k.dropArc t = .ok after) : after = k := by
  have same : release k.nextTask t k = .ok k := by
    cases k.nextTask with
    | zero => rfl
    | succ depth =>
      rw [release]
      rcases kept with held | gone
      · exact if_pos held
      · simp [gone]
  rw [dropArc, same] at done
  cases done
  rfl

theorem dropAll_of_held (held : ∀ t ∈ list, k.strongCount t ≠ 0) (done : list.foldlM dropArc k = .ok after) :
    after = k := by
  induction list with
  | nil =>
    cases done
    rfl
  | cons t list ih =>
    rw [foldlM_cons] at done
    rcases ok_of_bind_ok done with ⟨_, first, others⟩
    have same := dropArc_of_kept (.inl (held t mem_cons_self)) first
    rw [same] at others
    exact ih (fun x member => held x (mem_cons_of_mem t member)) others

/-- The block of one task is gone, and the links of the others are as they were. -/
structure Freed (k : Kernel) (t : TaskId) (after : Kernel) : Prop where
  initproc : after.initproc = k.initproc
  nextTask : after.nextTask = k.nextTask
  current : after.current = k.current
  task : after.task = Function.update k.task t none

/-- The last `Arc` of a task without children goes. -/
theorem freed_of_dropArc (bounded : Bounded k)
    (present : k.task t = some task) (childless : task.children = []) (last : k.strongCount t = 0)
    (done : k.dropArc t = .ok after) : Freed k t after := by
  rw [dropArc] at done
  cases size : k.nextTask with
  | zero =>
    have some := bounded t task present
    rw [size] at some
    exact absurd some (Nat.not_lt_zero t)
  | succ depth =>
    rw [size, release, if_neg fun held => held last] at done
    simp only [present] at done
    split at done
    · rw [childless] at done
      cases done
      exact ⟨rfl, rfl, rfl, rfl⟩
    · cases done

theorem Freed.forest (freed : Freed k t after) : after.forest = k.forest.free t := by
  funext x
  rw [Kernel.forest, freed.task, free, update_apply, update_apply]
  split
  · rfl
  · rfl

theorem Freed.of_task (freed : Freed k t after)
    (present : after.task x = some task) : x ≠ t /\ k.task x = some task := by
  rw [freed.task] at present
  exact task_of_forget present

include family

theorem Family.freed (freed : Freed k t after) (present : k.task t = some task) (orphan : task.parent = none)
    (childless : task.children = []) (other : t ≠ k.initproc) : Family after := by
  refine family.of_blocks ?_ freed.initproc freed.nextTask ?_ ?_ ?_
  · rw [freed.forest]
    exact family.linked.free (forest_of_task present) orphan childless
  · rcases family.rooted with ⟨init, found, root⟩
    refine ⟨init, ?_, root⟩
    rw [freed.task, update_of_ne other.symm]
    exact found
  · intro x block current _ _
    exact freed.current ▸ current
  · intro x block left
    exact ⟨block, (freed.of_task left).2, id, List.Subset.refl _⟩

/-- Dropping an `Arc` is harmless if the task has no children, or has a parent or
another holder. -/
theorem Family.dropArc (childless : ∀ task, k.task t = some task -> task.parent = none -> t ≠ k.initproc ->
      task.children = []) (done : k.dropArc t = .ok after) : Family after := by
  by_cases last : k.strongCount t = 0
  · cases present : k.task t with
    | none =>
      rw [dropArc_of_kept (.inr present) done]
      exact family
    | some task =>
      have other : t ≠ k.initproc := by
        intro same
        rw [same] at last
        rw [strongCount, if_pos rfl] at last
        omega
      have orphan : task.parent = none := by
        cases named : task.parent with
        | none => rfl
        | some p =>
          rcases family.parentOf present named with ⟨parent, above, once⟩
          refine absurd last (strongCount_of_child family.bounded above ?_)
          exact count_pos_iff.mp (once ▸ Nat.one_pos)
      have none := childless task present orphan other
      exact family.freed (freed_of_dropArc family.bounded present none last done) present orphan none other
  · rw [dropArc_of_kept (.inl last) done]
    exact family

omit family

theorem Family.dropAll : ∀ {k after : Kernel}, Family k ->
    (∀ t ∈ list, ∀ task, k.task t = some task -> task.parent = none -> t ≠ k.initproc ->
      task.children = []) -> list.foldlM Kernel.dropArc k = .ok after -> Family after := by
  induction list with
  | nil =>
    intro k after family _ done
    cases done
    exact family
  | cons t list ih =>
    intro k after family childless done
    rw [foldlM_cons] at done
    rcases ok_of_bind_ok done with ⟨_, first, others⟩
    refine ih (family.dropArc (childless t mem_cons_self) first) ?_ others
    intro x member task present orphan other
    rw [(Follows.release first).initproc] at other
    exact childless x (mem_cons_of_mem t member) task (task_of_release first x task present) orphan other

/-! ## Exit -/

theorem task_adopt : ∀ (k : Kernel) (x : TaskId),
    (k.adopt children).task x = (k.task x).map fun task =>
      { task with
        parent := if x ∈ children then some k.initproc else task.parent
        children := if x = k.initproc then task.children ++ children else task.children } := by
  induction children with
  | nil =>
    intro k x
    rw [adopt, foldl_nil]
    cases k.task x with
    | none => rfl
    | some task => simp
  | cons child children ih =>
    intro k x
    have one : (k.adoptChild child).task x = (k.task x).map fun task =>
        { task with
          parent := if x = child then some k.initproc else task.parent
          children := if x = k.initproc then task.children ++ [child] else task.children } := by
      rw [adoptChild, task_modify, task_modify, task_modify]
      by_cases isChild : x = child <;> by_cases isInit : x = k.initproc
      · subst isInit
        subst isChild
        cases k.task k.initproc <;> simp
      · subst isChild
        simp only [if_neg isInit, if_true]
      · subst isInit
        simp only [if_true, if_neg isChild]
      · simp only [if_neg isChild, if_neg isInit]
        cases k.task x <;> rfl
    have rest := ih (k.adoptChild child) x
    rw [adopt] at rest ⊢
    rw [foldl_cons, rest, one, Option.map_map]
    refine map_congr fun task _ => ?_
    have same : (k.adoptChild child).initproc = k.initproc := rfl
    have parents : (if x ∈ children then some k.initproc
        else if x = child then some k.initproc else task.parent) =
        if x = child \/ x ∈ children then some k.initproc else task.parent := by
      by_cases later : x ∈ children <;> simp [later]
    simp only [comp_apply, same, mem_cons, parents]
    by_cases isInit : x = k.initproc
    · simp only [if_pos isInit, append_assoc, singleton_append]
    · simp only [if_neg isInit]

/-- What handing over does to the links and to the zombies. -/
theorem handOver_spec (done : k.handOver t children = .ok after) :
    (children ≠ [] -> k.initproc ≠ t) /\ after.initproc = k.initproc /\ after.nextTask = k.nextTask /\
      after.forest = k.forest.give k.initproc children.reverse /\ NoNewZombies k after := by
  rcases handOver_eq_ok done with ⟨empty, rfl⟩ | ⟨some, other, wakes⟩
  · refine ⟨fun some => absurd empty some, rfl, rfl, ?_, (SameLinks.refl after).zombies⟩
    rw [empty, reverse_nil, give_nil]
  · have links : (k.adopt children.reverse).forest = k.forest.give k.initproc children.reverse := by
      funext x
      rw [forest, task_adopt, give, forest, Option.map_map, Option.map_map]
      rfl
    have adopted : Follows k (k.adopt children.reverse) := .adopt k
    have woken := SameLinks.wakes wakes
    refine ⟨fun _ same => other same.symm, woken.initproc.trans adopted.initproc,
      woken.nextTask.trans adopted.nextTask, woken.forest.trans links, ?_⟩
    intro x new present dead
    rcases woken.zombies x new present dead with ⟨_, between, died⟩
    rw [task_adopt] at between
    rcases map_eq_some_iff.mp between with ⟨old, before, rfl⟩
    exact ⟨old, before, died⟩

theorem forest_childless (k : Kernel) (t : TaskId) :
    (k.modify t fun task => { task with children := [] }).forest = k.forest.clear t := by
  funext x
  rw [@forest_modify k t _ (fun node => { node with children := [] }) (fun _ => rfl) x, clear]
  by_cases own : x = t
  · rw [if_pos own, own]
    simp
  · rw [if_neg own]
    cases k.forest x with
    | none => rfl
    | some node => simp [own]

include family in
theorem Family.doExit (idle : k.current = none) (done : doExit translate t exitCode k = .ok after) :
    Family after := by
  rcases doExit_eq_ok done with ⟨task, notified, handed, present, first, second, last⟩
  have told := SameLinks.notifyParent first
  have family := family.same told
  rcases told.block_after present with ⟨_, running, _, sameChildren⟩
  have cleared := SameLinks.clearChildTid last
  rcases handOver_spec second with ⟨apart, initproc, _, links, statuses⟩
  -- The status does not matter to the links.
  have marked : (notified.modify t fun task => { task with taskStatus := .zombie, exitCode := exitCode }).forest =
      notified.forest := forest_modify_same notified t (fun _ => rfl) fun _ => rfl
  have finish : Family (handed.modify t fun task => { task with children := [] }) := by
    rcases family.rooted with ⟨init, found, root⟩
    have inherited : (handed.modify t fun task => { task with children := [] }).forest =
        (notified.forest.give notified.initproc task.children.reverse).clear t := by
      rw [forest_childless, links, marked]
      rfl
    refine ⟨?_, ?_, ?_, ?_, ?_⟩
    · rw [inherited]
      by_cases empty : task.children = []
      · have same : (notified.forest.give notified.initproc task.children.reverse).clear t = notified.forest := by
          rw [empty, reverse_nil, give_nil]
          funext x
          rw [clear]
          by_cases own : x = t
          · rw [own, forest_of_task running]
            simp [sameChildren, empty]
          · cases notified.forest x with
            | none => rfl
            | some node => simp [own]
        rw [same]
        exact family.linked
      · refine family.linked.handOver (forest_of_task running) (forest_of_task found) root (apart empty) ?_
        rw [sameChildren]
        exact task.children.reverse_perm
    · have here := forest_of_task found
      have moved : (handed.modify t fun task => { task with children := [] }).forest notified.initproc =
          some ⟨if notified.initproc ∈ task.children.reverse then some notified.initproc else none,
            if notified.initproc = t then [] else init.children ++ task.children.reverse⟩ := by
        rw [inherited, clear, give, here, root]
        simp
      have stays : notified.initproc ∉ task.children.reverse := by
        intro member
        rw [mem_reverse, <- sameChildren] at member
        exact family.linked.not_mem_of_root (forest_of_task running) here root member
      rcases task_of_forest moved with ⟨block, there, orphan, _⟩
      refine ⟨block, ?_, ?_⟩
      · change (handed.modify t _).task handed.initproc = _
        rw [initproc]
        exact there
      · rw [orphan]
        exact if_neg stays
    · intro x new left dead different
      by_cases own : x = t
      · subst own
        rw [task_modify_self] at left
        rcases map_eq_some_iff.mp left with ⟨old, _, rfl⟩
        rfl
      · rw [task_modify_of_ne handed own] at left
        rcases statuses x new left dead with ⟨old, before, died⟩
        rw [task_modify_of_ne notified own] at before
        have childless := family.zombies x old before died fun same => different (same.trans initproc.symm)
        have node := forest_of_task left
        rw [links, marked, give, forest_of_task before] at node
        have same := congrArg Node.children (some.inj node)
        dsimp only at same
        rw [<- same, if_neg fun isInit => different (isInit.trans initproc.symm)]
        exact childless
    · intro x new current
      have before := (Follows.notifyParent first).current x ((Follows.handOver second).current x current)
      rw [idle] at before
      cases before
    · have bound : Bounded handed :=
        (family.bounded.modify t _).follows (Follows.handOver second)
      exact bound.modify t _
  exact finish.same cleared

theorem childless_of_doExit (done : doExit translate t exitCode k = .ok after)
    (present : after.task t = some task) : task.children = [] := by
  rcases doExit_eq_ok done with ⟨_, _, _, _, _, _, last⟩
  rcases (SameLinks.clearChildTid last).block_before present with ⟨_, before, _, children⟩
  rw [task_modify_self] at before
  rcases map_eq_some_iff.mp before with ⟨_, _, rfl⟩
  exact children.symm

include family

/-- A task that has exited leaves, as far as its links are concerned, quietly. -/
theorem Family.exitOne {exited : Kernel}
    (idle : k.current = none) (first : Kernel.doExit translate t exitCode k = .ok exited)
    (dropped : exited.dropArc t = .ok after) : Family after /\ after.current = none := by
  refine ⟨(family.doExit idle first).dropArc (fun task present _ _ => childless_of_doExit first present) dropped,
    ?_⟩
  cases running : after.current with
  | none => rfl
  | some x =>
    have before := ((Follows.doExit first).trans (Follows.release dropped)).current x running
    rw [idle] at before
    cases before

theorem Family.exitCurrent (done : exitCurrentAndRunNext translate exitCode k = .ok after) :
    Family after /\ after.current = none := by
  rcases ok_of_bind_ok done with ⟨⟨_, _⟩, taken, others⟩
  rcases takeCurrent_eq_ok taken with ⟨_, rfl⟩
  rcases ok_of_bind_ok others with ⟨_, first, dropped⟩
  have stopped : Family { k with current := none } := family.same (.of_eq rfl rfl rfl (by simp))
  exact stopped.exitOne rfl first dropped

omit family in
theorem Family.exitAll :
    ∀ {k after : Kernel}, Family k -> k.current = none ->
      Kernel.exitAll translate exitCode list k = .ok after -> Family after := by
  induction list with
  | nil =>
    intro k after family _ done
    cases done
    exact family
  | cons t list ih =>
    intro k after family idle done
    rcases ok_of_bind_ok done with ⟨_, first, others⟩
    rcases ok_of_bind_ok others with ⟨_, second, last⟩
    rcases family.exitOne idle first second with ⟨left, still⟩
    exact ih left still last

theorem Family.exitGroup (done : exitGroupAndRunNext translate exitCode k = .ok after) : Family after := by
  rcases ok_of_bind_ok done with ⟨⟨_, _⟩, _, others⟩
  rcases ok_of_bind_ok others with ⟨_, first, last⟩
  rcases family.exitCurrent first with ⟨left, idle⟩
  refine exitAll (left.same ?_) ?_ last
  · exact .of_eq rfl rfl rfl fun _ same => same
  · exact idle

/-! ## Clone -/

omit family in
/-- The parent of the new task exists and has not exited. -/
theorem Family.parentOfClone {k : Kernel} (family : Family k) {s : TaskId} {self : TaskControlBlock}
    (current : k.currentTask = .ok (s, self)) {flags : CloneFlags} {p : TaskId}
    (named : parentOfClone s self flags = some p) :
    ∃ parent, k.task p = some parent /\ (parent.taskStatus = .zombie -> p = k.initproc) := by
  rcases currentTask_eq_ok current with ⟨running, present⟩
  rw [Kernel.parentOfClone] at named
  split at named
  · rcases family.parentOf present named with ⟨parent, above, once⟩
    refine ⟨parent, above, fun dead => ?_⟩
    -- A zombie has no children, but this one has the caller.
    by_contra other
    rw [family.zombies p parent above dead other] at once
    cases once
  · cases named
    exact ⟨self, present, fun dead => absurd dead (family.running s self running present)⟩

theorem Family.cloneTask {exitSignal : Signals} {child : TaskId}
    (done : k.cloneTask flags exitSignal = .ok (child, after)) :
    Family after /\ ∀ task, after.task child = some task -> task.children = [] := by
  have bounded := family.bounded.cloneTask done
  rcases cloneTask_eq_ok done with ⟨s, self, current, rfl, entered⟩
  have fresh : k.task k.nextTask = none := by
    cases present : k.task k.nextTask with
    | none => rfl
    | some task => exact absurd (family.bounded _ task present) (lt_irrefl _)
  have alive := fun p => @parentOfClone k family s self current flags p
  -- The heap: the new block, and one more child for its parent.
  have heap : after.initproc = k.initproc /\ after.current = k.current /\ ∀ x, after.task x =
      if x = k.nextTask then some (k.cloneBlock s self flags exitSignal).1
      else (k.task x).map fun task => { task with
        children := if Kernel.parentOfClone s self flags = some x then task.children ++ [k.nextTask]
          else task.children } := by
    have same : ∀ x, (k.task x).map (fun task => { task with children := task.children }) = k.task x := by
      intro x
      cases k.task x <;> rfl
    rcases enlist_eq_ok entered with ⟨orphan, rfl⟩ | ⟨p, named, rfl⟩
    · refine ⟨rfl, rfl, fun x => ?_⟩
      rw [orphan]
      simp only [reduceCtorEq, if_false, same]
      exact update_apply k.task k.nextTask _ x
    · rcases alive p named with ⟨parent, above, _⟩
      have apart : p ≠ k.nextTask := ne_of_lt (family.bounded p parent above)
      refine ⟨rfl, rfl, fun x => ?_⟩
      rw [task_modify, named]
      dsimp only
      by_cases own : x = p
      · rw [if_pos own, own, if_neg apart, update_of_ne apart]
        simp only [if_true]
      · have different : some p ≠ some x := fun equal => own (some.inj equal).symm
        simp only [if_neg own, if_neg different, same]
        exact update_apply k.task k.nextTask _ x
  rcases heap with ⟨initproc, running, heap⟩
  have links : after.forest = k.forest.born k.nextTask (Kernel.parentOfClone s self flags) := by
    funext x
    rw [forest, heap, born, update_apply]
    split
    · rfl
    · rw [forest, Option.map_map, Option.map_map]
      rfl
  have born : ∀ task, after.task k.nextTask = some task -> task.children = [] := by
    intro task present
    rw [heap, if_pos rfl] at present
    cases present
    rfl
  have old : ∀ x new, after.task x = some new -> x ≠ k.nextTask -> ∃ before,
      k.task x = some before /\ new.parent = before.parent /\ new.taskStatus = before.taskStatus /\
        new.children = if Kernel.parentOfClone s self flags = some x then before.children ++ [k.nextTask]
          else before.children := by
    intro x new present other
    rw [heap, if_neg other] at present
    rcases map_eq_some_iff.mp present with ⟨before, found, rfl⟩
    exact ⟨before, found, rfl, rfl, rfl⟩
  have ready : ∀ x new, after.task x = some new -> new.taskStatus = .zombie -> x ≠ k.nextTask := by
    intro x new present dead isNew
    rw [isNew, heap, if_pos rfl] at present
    cases present
    cases dead
  refine ⟨⟨?_, ?_, ?_, ?_, bounded⟩, born⟩
  · rw [links]
    refine family.linked.born (by rw [forest, fresh]; rfl) ?_
    intro p named
    rcases alive p named with ⟨parent, above, _⟩
    exact ⟨_, forest_of_task above⟩
  · rcases family.rooted with ⟨init, found, root⟩
    have other : k.initproc ≠ k.nextTask := ne_of_lt (family.bounded _ init found)
    have stays := heap k.initproc
    rw [if_neg other, found, map_some] at stays
    refine ⟨_, (congrArg after.task initproc).trans stays, ?_⟩
    exact root
  · intro x new present dead different
    have other := ready x new present dead
    rcases old x new present other with ⟨before, found, _, sameStatus, children⟩
    rw [initproc] at different
    rw [children, if_neg fun named => ?_]
    · exact family.zombies x before found (sameStatus ▸ dead) different
    · rcases alive x named with ⟨parent, above, notZombie⟩
      rw [found] at above
      cases above
      exact different (notZombie (sameStatus ▸ dead))
  · intro x new current present dead
    have other := ready x new present dead
    rcases old x new present other with ⟨before, found, _, sameStatus, _⟩
    exact family.running x before (running ▸ current) found (sameStatus ▸ dead)

theorem Family.sysClone {answer : Int} (done : k.sysClone flags ctid ptidFault = .ok (answer, after)) :
    Family after := by
  rcases ok_of_bind_ok done with ⟨⟨_, _⟩, born, going⟩
  rcases family.cloneTask born with ⟨alive, childless⟩
  dsimp only at going
  split at going
  · rcases ok_of_bind_ok going with ⟨_, dropped, finished⟩
    cases finished
    exact alive.dropArc (fun task present _ _ => childless task present) dropped
  · cases going
    refine alive.same ?_
    split
    · exact .of_modify rfl rfl rfl (fun _ same => same) (fun _ => rfl) (fun _ => rfl) fun _ dead => dead
    · exact .of_eq rfl rfl rfl fun _ same => same

/-! ## Reaping -/

omit family in
/-- A change of one block that adds no child and keeps the status. -/
theorem block_of_modify (present : (k.modify t change).task x = some new)
    (fewer : ∀ task, (change task).taskStatus = task.taskStatus /\ (change task).children ⊆ task.children) :
    ∃ old, k.task x = some old /\
      (new.taskStatus = .zombie -> old.taskStatus = .zombie) /\ new.children ⊆ old.children := by
  rcases task_of_modify present with ⟨_, old, before, rfl⟩ | ⟨_, before⟩
  · exact ⟨old, before, fun dead => (fewer old).1 ▸ dead, (fewer old).2⟩
  · exact ⟨new, before, id, List.Subset.refl _⟩

/-- A child is taken out of the list of its parent and dropped. -/
theorem Family.reap {c : TaskId} {child : TaskControlBlock}
    (present : k.task t = some task) (found : k.task c = some child) (member : c ∈ task.children)
    (dead : child.taskStatus = .zombie)
    (last : (k.modify t fun task => { task with children := task.children.erase c }).strongCount c = 0)
    (done : (k.modify t fun task => { task with children := task.children.erase c }).dropArc c = .ok after) :
    Family after := by
  have node := forest_of_task present
  rcases family.linked.child node member with ⟨apart, _, here, named⟩
  have same := forest_of_task found
  rw [here] at same
  cases same
  have other : c ≠ k.initproc := by
    intro isInit
    rcases family.rooted with ⟨init, first, root⟩
    rw [isInit, first] at found
    cases found
    rw [root] at named
    cases named
  have childless := family.zombies c child found dead other
  have kept : (k.modify t fun task => { task with children := task.children.erase c }).task c = some child := by
    rw [task_modify_of_ne k apart]
    exact found
  have freed := freed_of_dropArc (family.bounded.modify t _) kept childless last done
  have links : after.forest = (k.forest.detach t c).free c := by
    funext x
    rw [freed.forest, free, free, update_apply, update_apply]
    by_cases isC : x = c
    · rw [if_pos isC, if_pos isC]
    · rw [if_neg isC, if_neg isC, detach,
        @forest_modify k t _ (fun node => { node with children := node.children.erase c }) (fun _ => rfl) x]
      by_cases own : x = t
      · rw [if_pos own, own, node]
        have list : task.children.erase c = task.children.filter (· ≠ c) := by
          rw [(family.linked.nodup node).erase_eq_filter c]
          exact filter_congr fun x _ => by simp [bne, BEq.beq]
        simp only [map_some, if_pos, if_neg apart.symm, list]
      · rw [if_neg own]
        cases k.forest x with
        | none => rfl
        | some node => simp [isC, own]
  refine family.of_blocks ?_ freed.initproc freed.nextTask ?_ ?_ ?_
  · rw [links]
    have cut := family.linked.detach here named
    refine cut.free (by rw [detach, here]; rfl) ?_ ?_
    · exact if_pos rfl
    · simp only [if_neg apart]
      exact childless
  · rcases family.rooted with ⟨init, first, root⟩
    have stays : after.forest k.initproc =
        some ⟨init.parent, if k.initproc = t then init.children.filter (· ≠ c) else init.children⟩ := by
      rw [links, free, update_of_ne other.symm, detach, forest_of_task first]
      simp [other.symm]
    rcases task_of_forest stays with ⟨block, there, orphan, _⟩
    exact ⟨block, there, orphan.trans root⟩
  · intro x block current _ _
    exact freed.current ▸ current
  · intro x new there
    exact block_of_modify (freed.of_task there).2 fun _ => ⟨rfl, erase_subset⟩

theorem Family.wait4Loop {pid : Int} {nohang : Bool} {fault : Option Int} {rounds : Nat} {answer : Option Int}
    (done : wait4Loop pid nohang fault rounds t k = .ok (answer, after)) : Family after := by
  rcases wait4Loop_preserves (fun _ _ _ _ _ held present found member dead last dropped =>
    reap held present found member dead last dropped) family done with left | ⟨last, left, _, slept⟩
  · exact left
  · exact left.same (.block slept)

/-! ## Sessions and program loading -/

/-- No sibling of the running task has its thread number. -/
def OnlyItsNumber (k : Kernel) : Prop :=
  ∀ t task p parent, k.currentTask = .ok (t, task) -> task.parent = some p -> k.task p = some parent ->
    ∀ c child, c ∈ parent.children -> k.task c = some child -> child.tid = task.tid -> c = t

/-- No queued thread of the running task's group, other than `initproc`, has
children but no parent. -/
def NoOrphanedParents (k : Kernel) : Prop :=
  ∀ t task, k.currentTask = .ok (t, task) -> ∀ x other, x ∈ k.readyQueue ++ k.interruptibleQueue ->
    k.task x = some other -> other.tgid = task.tgid -> other.parent = none -> x ≠ k.initproc ->
    other.children = []

theorem Family.sysSetsid (only : OnlyItsNumber k) (done : k.sysSetsid = .ok after) : Family after := by
  rcases ok_of_bind_ok done with ⟨⟨t, task⟩, current, going⟩
  rcases currentTask_eq_ok current with ⟨running, present⟩
  dsimp only at going
  cases named : task.parent with
  | none =>
    simp only [named] at going
    cases going
  | some p =>
    simp only [named] at going
    rcases ok_of_bind_ok going with ⟨left, dropped, finished⟩
    cases finished
    have node := forest_of_task present
    rcases family.linked.parent node named with ⟨above, found, once⟩
    rcases task_of_forest found with ⟨parent, there, _⟩
    have mine : (k.task t).any (fun x => x.tid == task.tid) = true := by
      rw [present]
      exact beq_self_eq_true task.tid
    have others : ∀ c ∈ parent.children, (k.task c).any (fun x => x.tid == task.tid) = true -> c = t := by
      intro c member same
      rcases (any_eq_true _ _).mp same with ⟨child, here, number⟩
      exact only t task p parent current named there c child member here (beq_iff_eq.mp number)
    -- Only the caller itself leaves the list, and it is running.
    have untouched : left = k.modify p fun parent => { parent with
        children := parent.children.filter fun child => !(k.task child).any fun x => x.tid == task.tid } := by
      refine dropAll_of_held ?_ dropped
      intro c member
      rw [there] at member
      rcases mem_filter.mp member with ⟨listed, same⟩
      rw [others c listed same]
      exact strongCount_of_current running
    rw [untouched]
    have filtered : parent.children.filter (fun child => !(k.task child).any fun x => x.tid == task.tid) =
        parent.children.filter (· ≠ t) := by
      refine filter_congr fun c member => ?_
      by_cases own : c = t
      · rw [own, mine]
        simp
      · cases same : (k.task c).any fun x => x.tid == task.tid with
        | false => simp [own]
        | true => exact absurd (others c member same) own
    have apart : p ≠ t := by
      intro same
      have member : t ∈ above.children := count_pos_iff.mp (once ▸ Nat.one_pos)
      exact (family.linked.child found member).1 same.symm
    have links : ((k.modify p fun parent => { parent with
        children := parent.children.filter fun child => !(k.task child).any fun x => x.tid == task.tid }).modify t
        fun task => { task with parent := none }).forest = k.forest.detach p t := by
      funext x
      rw [@forest_modify _ t _ (fun node => { node with parent := none }) (fun _ => rfl) x, detach]
      by_cases own : x = t
      · rw [if_pos own, own, forest, task_modify_of_ne k apart.symm]
        change Option.map _ (k.forest t) = _
        rw [node]
        simp [apart.symm]
      · rw [if_neg own, forest]
        by_cases isParent : x = p
        · rw [isParent, task_modify_self, there, forest_of_task there]
          simp only [map_some, if_neg fun same => own (isParent.trans same), if_true, filtered]
        · rw [task_modify_of_ne k isParent]
          change k.forest x = _
          cases k.forest x with
          | none => rfl
          | some node => simp [own, isParent]
    refine family.of_blocks (links ▸ family.linked.detach node named) rfl rfl ?_ (fun _ _ same _ _ => same) ?_
    · rcases family.rooted with ⟨init, first, root⟩
      have notMe : k.initproc ≠ t := by
        intro same
        rw [same, present] at first
        cases first
        rw [root] at named
        cases named
      rw [task_modify_of_ne _ notMe]
      by_cases isParent : k.initproc = p
      · rw [isParent] at first ⊢
        rw [task_modify_self, first]
        exact ⟨_, rfl, root⟩
      · rw [task_modify_of_ne k isParent]
        exact ⟨init, first, root⟩
    · intro x new here
      rcases block_of_modify here fun _ => ⟨rfl, List.Subset.refl _⟩ with ⟨_, between, late, fewer⟩
      rcases block_of_modify between fun _ => ⟨rfl, filter_subset_self _⟩ with ⟨old, before, early, less⟩
      exact ⟨old, before, fun dead => early (late dead), List.Subset.trans fewer less⟩

omit family in
theorem block_of_clear (present : (k.modify t fun task => { task with clearChildTid := 0 }).task x = some new) :
    ∃ old, k.task x = some old /\ old.tgid = new.tgid /\ old.parent = new.parent /\
      old.children = new.children := by
  rcases task_of_modify present with ⟨_, old, before, rfl⟩ | ⟨_, before⟩
  · exact ⟨old, before, rfl, rfl, rfl⟩
  · exact ⟨new, before, rfl, rfl, rfl⟩

theorem Family.loadElf (fine : NoOrphanedParents k) (done : k.loadElf = .ok after) : Family after := by
  rcases ok_of_bind_ok done with ⟨⟨t, task⟩, current, going⟩
  have cleared : SameLinks k { k.modify t fun task => { task with clearChildTid := 0 } with
      futexes := update k.futexes task.futex fun _ => [] } :=
    .of_modify rfl rfl rfl (fun _ same => same) (fun _ => rfl) (fun _ => rfl) fun _ dead => dead
  dsimp only at going
  split at going
  · refine dropAll (family.same (cleared.trans ?_)) ?_ going
    · exact .of_eq rfl rfl rfl fun _ same => same
    · intro x member other present orphan different
      rcases block_of_clear present with ⟨old, before, group, parent, children⟩
      rw [members, members, <- filter_append] at member
      rcases mem_filter.mp member with ⟨queued, inGroup⟩
      rcases (any_eq_true _ _).mp inGroup with ⟨again, same, tgid⟩
      have equal : again = other := some.inj (same.symm.trans present)
      rw [equal] at tgid
      rw [<- children]
      exact fine t task current x old queued before (group.trans (beq_iff_eq.mp tgid)) (parent.trans orphan)
        different
  · cases going
    exact family.same cleared

/-! ## The whole run -/

/-- The conditions on `sys_setsid` and `load_elf`. -/
def KeepsFamily (k : Kernel) : Event -> Prop
  | .setsid => OnlyItsNumber k
  | .loadElf => NoOrphanedParents k
  | _ => True

omit family

theorem Family.step {k after : Kernel} (family : Family k) (fine : KeepsFamily k event)
    (taken : Step k event after) : Family after := by
  have does := does_of_step taken
  have sent : ∀ {after}, Sends k after -> Family after :=
    fun sends => sends.preserves family fun t signal => family.same (.sendSignal k t signal)
  have sleeps : ∀ {middle : Kernel} {call : Call}, SameLinks k middle ->
      middle.blockCurrentAndRunNext call = .ok after -> Family after := fun same slept => family.same (same.trans (.block slept))
  cases event with
  | advance ticks =>
    cases does
    exact family.same (.of_eq rfl rfl rfl fun _ same => same)
  | fetch => exact family.same (.fetch does)
  | suspend pinned => exact family.same (.suspend does)
  | block pinned => exact family.same (.block does)
  | futexWait word loaded val timeout =>
    rcases does with ⟨_, _, _, _, _, waits⟩
    rcases doFutexWait_eq_ok waits with rfl | ⟨t, _, _, _, _, _, slept⟩
    · exact family
    · refine sleeps ?_ slept
      exact .of_eq rfl rfl rfl fun _ same => same
  | futexWake word val =>
    rcases does with ⟨_, _, woken⟩
    exact family.same (.futexWake woken)
  | nanosleep req | sigtimedwait set timeout =>
    rcases does with ⟨t, _, _, _, slept⟩
    refine sleeps ?_ slept
    exact .of_eq rfl rfl rfl fun _ same => same
  | resume =>
    rcases does with ⟨_, resumed⟩
    rcases resume_eq_ok resumed with ⟨t, _, _, ⟨_, _, _, _, loop⟩ | rfl⟩
    · refine wait4Loop ?_ loop
      exact family.same (.modify k t fun _ => rfl)
    · exact family.same (.modify k t fun _ => rfl)
  | takeSignal signal =>
    rcases does with ⟨t, _, _, _, rfl⟩
    exact family.same (.modify k t fun _ => rfl)
  | kill pid sig | tkill tid sig | tgkill tgid tid sig => exact sent does
  | expire =>
    rw [does]
    exact family.same ((SameLinks.wakes (expireLoop_wakes _ _ k)).trans (.of_eq rfl rfl rfl fun _ same => same))
  | exit translate exitCode => exact (family.exitCurrent does).1
  | exitGroup translate exitCode => exact family.exitGroup does
  | clone flags ctid ptidFault =>
    rcases does with ⟨_, cloned⟩
    exact family.sysClone cloned
  | setsid => exact family.sysSetsid fine does
  | wait4 pid nohang fault =>
    rcases does with ⟨_, _, _, _, loop⟩
    exact family.wait4Loop loop
  | loadElf => exact family.loadElf fine does

theorem task_boot (present : boot.task t = some task) : t = 0 /\ task = initprocBlock := by
  change (if t = 0 then some initprocBlock else none) = some task at present
  split at present
  · rename_i first
    exact ⟨first, (some.inj present).symm⟩
  · cases present

theorem family_boot : Family boot := by
  refine ⟨⟨?_, ?_⟩, ⟨initprocBlock, rfl, rfl⟩, ?_, ?_, ?_⟩
  · intro t node p present named
    rcases task_of_forest present with ⟨task, found, parent, _⟩
    rcases task_boot found with ⟨_, rfl⟩
    rw [<- parent] at named
    cases named
  · intro p node c present member
    rcases task_of_forest present with ⟨task, found, _, children⟩
    rcases task_boot found with ⟨_, rfl⟩
    rw [<- children] at member
    cases member
  · intro t task present _ _
    rw [(task_boot present).2]
    rfl
  · exact fun t task => nofun
  · intro t task present
    rw [(task_boot present).1]
    exact Nat.one_pos

/-- In every run from boot that meets the conditions, the tasks form a family. -/
theorem family_in_every_run (reached : Reached (Guarded KeepsFamily Step) boot k) : Family k :=
  reached.invariant family_boot fun _ _ _ family taken => family.step taken.1 taken.2

theorem family_of_harmless {events : List Event} (harmless : ∀ event ∈ events, ∀ k, KeepsFamily k event)
    (run : events.foldlM exec boot = .ok k) : Family k :=
  family_in_every_run (Reached.refl.foldlM (fun before event _ member taken => ⟨harmless event member before, taken⟩) run)

end Kernel

end GCore.Task
