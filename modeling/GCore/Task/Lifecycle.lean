import GCore.Task.Kernel

namespace GCore.Task

open Function

/-!
# Birth, exit and reaping of tasks

`TaskControlBlock::sys_clone`, `do_exit`, `exit_group_and_run_next`,
`sys_wait4`, `sys_setsid` and the part of `load_elf` that touches other tasks,
over the kernel state, with the drop of a task control block when its last
`Arc` goes.  The module ends with the events of a hart, each of which is one
uninterrupted stretch of kernel code.
-/

/-- `CloneFlags` of `syscall/process.rs`. -/
abbrev CloneFlags := BitVec 32

namespace CloneFlags

def CLONE_PARENT : CloneFlags := 0x00008000#32
def CLONE_THREAD : CloneFlags := 0x00010000#32
def CLONE_PARENT_SETTID : CloneFlags := 0x00100000#32
def CLONE_CHILD_CLEARTID : CloneFlags := 0x00200000#32

def contains (self other : CloneFlags) : Bool := self &&& other == other

end CloneFlags

namespace Kernel

/-! ## Dropping task control blocks -/

/-- The number of `Arc`s of a task. -/
def strongCount (k : Kernel) (t : TaskId) : Nat :=
  k.readyQueue.count t + k.interruptibleQueue.count t + (if k.current = some t then 1 else 0)
    + (if k.initproc = t then 1 else 0)
    + ((k.task t).elim 0 fun task => if task.pinned then 1 else 0)
    + ((List.range k.nextTask).map fun p => (k.task p).elim 0 fun task => task.children.count t).sum

/-- An `Arc` of the task is dropped.  With the last one the block goes: its two
identifiers are recycled and its children are dropped in turn. -/
def release : Nat -> TaskId -> Kernel -> Outcome Kernel
  | 0, _, k => .ok k
  | depth + 1, t, k =>
    if k.strongCount t ≠ 0 then .ok k
    else
      match k.task t with
      | none => .ok k
      | some task =>
        match (k.tidAllocators task.tidAllocator).dealloc task.tid, k.pidAllocator.dealloc task.pid with
        | some tids, some pids =>
          task.children.foldlM (fun k child => release depth child k)
            { k with
              task := update k.task t none
              tidAllocators := update k.tidAllocators task.tidAllocator tids
              pidAllocator := pids }
        | _, _ => .error .assertion

def dropArc (k : Kernel) (t : TaskId) : Outcome Kernel := release k.nextTask t k

/-! ## Exit -/

/-- The first part of `do_exit`: the exit signal goes to the parent. -/
def notifyParent (k : Kernel) (t : TaskId) (task : TaskControlBlock) : Outcome Kernel :=
  if task.exitSignal.isEmpty then .ok k
  else
    match task.parent with
    | none => .ok k
    | some p =>
      match k.task p with
      | none => .error .unwrap
      | some parent =>
        if p = t then .error .deadlock else .ok (k.signalTask p parent task.exitSignal)

/-- `initproc` becomes the parent of one child. -/
def adoptChild (k : Kernel) (child : TaskId) : Kernel :=
  (k.modify child fun task => { task with parent := some k.initproc }).modify k.initproc
    fun task => { task with children := task.children ++ [child] }

/-- The loop that hands the children over to `initproc`. -/
def adopt (k : Kernel) (children : List TaskId) : Kernel := children.foldl adoptChild k

/-- `do_exit` hands the children over, last child first, and wakes `initproc` if it waits. -/
def handOver (k : Kernel) (t : TaskId) (children : List TaskId) : Outcome Kernel :=
  if children = [] then .ok k
  else if t = k.initproc then .error .deadlock
  else
    let k := k.adopt children.reverse
    match k.task k.initproc with
    | none => .ok k
    | some init =>
      if init.taskStatus = .interruptible then
        .ok ((k.setStatus k.initproc .ready).wakeInterruptible k.initproc init.pid)
      else .ok k

/-- `do_exit` clears the word at `clear_child_tid` and wakes one waiter on it.
`translate` is `translated_refmut` in the address space of the task. -/
def clearChildTid (k : Kernel) (translate : TaskId -> Option Nat) (t : TaskId) (task : TaskControlBlock) :
    Outcome Kernel :=
  if task.clearChildTid = 0 then .ok k
  else
    match translate t with
    | none => .ok k
    | some word => do
        let (_, k) <- futexWake (some t) task.futex word 1 k
        .ok k

def doExit (translate : TaskId -> Option Nat) (t : TaskId) (exitCode : Nat) (k : Kernel) :
    Outcome Kernel :=
  match k.task t with
  | none => .error .idle
  | some task => do
      let k <- k.notifyParent t task
      let k := k.modify t fun task => { task with taskStatus := .zombie, exitCode := exitCode }
      let k <- k.handOver t task.children
      let k := k.modify t fun task => { task with children := [] }
      k.clearChildTid translate t task

def exitCurrentAndRunNext (translate : TaskId -> Option Nat) (exitCode : Nat) (k : Kernel) :
    Outcome Kernel := do
  let (t, k) <- k.takeCurrent
  let k <- doExit translate t exitCode k
  k.dropArc t

/-- The tasks of a queue that belong to the group. -/
def members (k : Kernel) (tgid : Nat) (queue : List TaskId) : List TaskId :=
  queue.filter fun t => (k.task t).any fun task => task.tgid == tgid

def others (k : Kernel) (tgid : Nat) (queue : List TaskId) : List TaskId :=
  queue.filter fun t => !(k.task t).any fun task => task.tgid == tgid

/-- The last loop of `exit_group_and_run_next`, over `exit_list`. -/
def exitAll (translate : TaskId -> Option Nat) (exitCode : Nat) :
    List TaskId -> Kernel -> Outcome Kernel
  | [], k => .ok k
  | t :: rest, k => do
      let k <- doExit translate t exitCode k
      let k <- k.dropArc t
      exitAll translate exitCode rest k

def exitGroupAndRunNext (translate : TaskId -> Option Nat) (exitCode : Nat) (k : Kernel) :
    Outcome Kernel := do
  let (_, task) <- k.currentTask
  let k <- exitCurrentAndRunNext translate exitCode k
  let exitList := k.members task.tgid k.readyQueue ++ k.members task.tgid k.interruptibleQueue
  exitAll translate exitCode exitList
    { k with
      readyQueue := k.others task.tgid k.readyQueue
      interruptibleQueue := k.others task.tgid k.interruptibleQueue }

/-! ## Clone -/

/-- The new task becomes a sibling of its creator, not a child. -/
def isSibling (flags : CloneFlags) : Bool :=
  flags.contains CloneFlags.CLONE_PARENT || flags.contains CloneFlags.CLONE_THREAD

/-- The block that `TaskControlBlock::sys_clone` builds, with the allocators it draws from. -/
def cloneBlock (k : Kernel) (s : TaskId) (self : TaskControlBlock) (flags : CloneFlags)
    (exitSignal : Signals) : TaskControlBlock × Kernel :=
  let thread := flags.contains CloneFlags.CLONE_THREAD
  let allocator := if thread then self.tidAllocator else k.nextAllocator
  let (tid, tids) := (if thread then k.tidAllocators allocator else .new).alloc
  let (pid, pids) := k.pidAllocator.alloc
  ({ pid := pid
     tid := tid
     tgid := if thread then self.tgid else pid
     exitSignal := exitSignal
     tidAllocator := allocator
     futex := if thread then self.futex else k.nextFutex
     sigmask := .empty
     sigpending := self.sigpending
     taskStatus := .ready
     parent := if isSibling flags then self.parent else some s
     children := []
     exitCode := 0
     clearChildTid := 0
     suspended := none
     pinned := false },
   { k with
     pidAllocator := pids
     tidAllocators := update k.tidAllocators allocator tids
     nextAllocator := if thread then k.nextAllocator else k.nextAllocator + 1
     futexes := if thread then k.futexes else update k.futexes k.nextFutex fun _ => []
     nextFutex := if thread then k.nextFutex else k.nextFutex + 1 })

/-- The new task enters the children list of its parent. -/
def enlist (k : Kernel) (s : TaskId) (self : TaskControlBlock) (flags : CloneFlags) (child : TaskId) :
    Outcome Kernel :=
  let push := fun (task : TaskControlBlock) => { task with children := task.children ++ [child] }
  if isSibling flags then
    match self.parent with
    | none => .ok k
    | some grandparent =>
      match k.task grandparent with
      | none => .error .unwrap
      | some _ => if grandparent = s then .error .deadlock else .ok (k.modify grandparent push)
  else .ok (k.modify s push)

/-- `TaskControlBlock::sys_clone` without its memory part. -/
def cloneTask (k : Kernel) (flags : CloneFlags) (exitSignal : Signals) : Outcome (TaskId × Kernel) := do
  let (s, self) <- k.currentTask
  let (block, k) := k.cloneBlock s self flags exitSignal
  let child := k.nextTask
  let k <- { k with task := update k.task child (some block), nextTask := child + 1 }.enlist
    s self flags child
  .ok (child, k)

/-- The system call.  `ptidFault` is the error of writing the child's number to
`ptid`, if there is one: the call then returns and drops its `Arc` of the child,
which never reaches the ready queue. -/
def sysClone (k : Kernel) (flags : CloneFlags) (ctid : Nat) (ptidFault : Option Int) :
    Outcome (Int × Kernel) := do
  let exitSignal := match Signals.fromSignum (flags &&& 0xff#32).toNat with
    | .ok signal => signal
    | .error _ => .empty
  let flags := flags &&& ~~~0xff#32
  let (child, k) <- k.cloneTask flags exitSignal
  let pid := (k.task child).elim 0 fun task => task.pid
  match (if flags.contains CloneFlags.CLONE_PARENT_SETTID then ptidFault else none) with
  | some errno => do
      let k <- k.dropArc child
      .ok (errno, k)
  | none =>
    let k := if flags.contains CloneFlags.CLONE_CHILD_CLEARTID /\ ctid ≠ 0 then
        k.modify child fun task => { task with clearChildTid := ctid }
      else k
    .ok (pid, k.add child)

/-! ## Sessions, waiting and program loading -/

/-- `sys_setsid`.  The children of the parent that have the caller's thread number
leave the list, and with it goes their `Arc`. -/
def sysSetsid (k : Kernel) : Outcome Kernel := do
  let (t, task) <- k.currentTask
  match task.parent with
  | none => .error .unwrap
  | some p => do
      let sameTid := fun child => (k.task child).any fun x => x.tid == task.tid
      let removed := (k.task p).elim [] fun parent => parent.children.filter sameTid
      let k := k.modify p fun parent =>
        { parent with children := parent.children.filter fun child => !sameTid child }
      let k <- removed.foldlM dropArc k
      .ok (k.modify t fun task => { task with parent := none })

/-- The loop of `sys_wait4`; one round reaps at most one zombie, and only the
leader of a group ends the loop. -/
def wait4Loop (pid : Int) (nohang : Bool) (fault : Option Int) :
    Nat -> TaskId -> Kernel -> Outcome (Option Int × Kernel)
  | 0, _, _ => .error .idle
  | rounds + 1, t, k =>
    match k.task t with
    | none => .error .idle
    | some task =>
      let wanted := fun child => (k.task child).any fun p => pid == -1 || pid == p.pid
      let zombie := fun child => (k.task child).any fun p => p.taskStatus == .zombie
      if task.children.any wanted then
        match task.children.find? (fun child => zombie child && wanted child) with
        | some c =>
          let k := k.modify t fun task => { task with children := task.children.erase c }
          if k.strongCount c ≠ 0 then .error .assertion
          else do
            let leader := (k.task c).elim false fun child => child.pid == child.tgid
            let found := (k.task c).elim 0 fun child => child.pid
            let k <- k.dropArc c
            if leader then .ok (some (fault.getD found), k)
            else wait4Loop pid nohang fault rounds t k
        | none =>
          if nohang then .ok (some SUCCESS, k)
          else do
            let k <- k.blockCurrentAndRunNext (.wait4 pid fault)
            .ok (none, k)
      else .ok (some ECHILD, k)

def sysWait4 (k : Kernel) (pid : Int) (nohang : Bool) (fault : Option Int) :
    Outcome (Option Int × Kernel) := do
  let (t, task) <- k.currentTask
  wait4Loop pid nohang fault (task.children.length + 1) t k

/-- The running task goes on where it was blocked. -/
def resume (k : Kernel) : Outcome (Option Int × Kernel) := do
  let (t, task) <- k.currentTask
  let cleared := k.modify t fun task => { task with suspended := none, pinned := false }
  match task.suspended with
  | none => .error .idle
  | some (.wait4 pid fault) => cleared.sysWait4 pid false fault
  | some call => do
      let answer <- afterBlock k.now task call
      .ok (some answer, cleared)

/-- `load_elf` as far as other tasks can tell: the futexes are cleared and the
other threads of the group leave both queues. -/
def loadElf (k : Kernel) : Outcome Kernel := do
  let (t, task) <- k.currentTask
  let k := k.modify t fun task => { task with clearChildTid := 0 }
  let k := { k with futexes := update k.futexes task.futex fun _ => [] }
  if 1 < (k.tidAllocators task.tidAllocator).getAllocated then
    let removed := k.members task.tgid k.readyQueue ++ k.members task.tgid k.interruptibleQueue
    removed.foldlM dropArc
      { k with
        readyQueue := k.others task.tgid k.readyQueue
        interruptibleQueue := k.others task.tgid k.interruptibleQueue }
  else .ok k

/-! ## Events -/

/-- The block of `initproc` as `TaskControlBlock::new` builds it. -/
def initprocBlock : TaskControlBlock where
  pid := 1
  tid := 1
  tgid := 1
  exitSignal := .empty
  tidAllocator := 0
  futex := 0
  sigmask := .empty
  sigpending := .empty
  taskStatus := .ready
  parent := none
  children := []
  exitCode := 0
  clearChildTid := 0
  suspended := none
  pinned := false

/-- The kernel after `add_initproc`. -/
def boot : Kernel where
  task := fun t => if t = 0 then some initprocBlock else none
  nextTask := 1
  current := none
  readyQueue := [0]
  interruptibleQueue := []
  timeouts := []
  futexes := fun _ _ => []
  nextFutex := 1
  pidAllocator := (RecycleAllocator.alloc .new).2
  tidAllocators := fun allocator => if allocator = 0 then (RecycleAllocator.alloc .new).2 else .new
  nextAllocator := 1
  initproc := 0
  tick := 0

/-- One uninterrupted stretch of kernel code on the hart. -/
inductive Event
  | advance (ticks : Nat)
  | fetch
  | suspend (pinned : Bool)
  | block (pinned : Bool)
  | futexWait (word loaded val : Nat) (timeout : Option TimeSpec)
  | futexWake (word val : Nat)
  | nanosleep (req : TimeSpec)
  | sigtimedwait (set : Signals) (timeout : TimeSpec)
  | resume
  | takeSignal (signal : Signals)
  | kill (pid sig : Nat)
  | tkill (tid sig : Nat)
  | tgkill (tgid tid sig : Nat)
  | expire
  | exit (translate : TaskId -> Option Nat) (exitCode : Nat)
  | exitGroup (translate : TaskId -> Option Nat) (exitCode : Nat)
  | clone (flags : CloneFlags) (ctid : Nat) (ptidFault : Option Int)
  | setsid
  | wait4 (pid : Int) (nohang : Bool) (fault : Option Int)
  | loadElf

/-- A system call of the running task starts, so none of its calls is still under way. -/
def call {α : Type} (k : Kernel) (body : Outcome (α × Kernel)) : Outcome Kernel := do
  let (_, task) <- k.currentTask
  if task.suspended = none then do
    let (_, k) <- body
    .ok k
  else .error .idle

/-- A stretch of kernel code without an answer. -/
def silently (done : Outcome Kernel) : Outcome (Unit × Kernel) := done.map fun k => ((), k)

def exec (k : Kernel) : Event -> Outcome Kernel
  | .advance ticks => .ok { k with tick := k.tick + ticks }
  | .fetch => k.fetch
  | .suspend pinned => k.call (silently (k.suspendCurrentAndRunNext pinned))
  | .block pinned => k.call (silently (k.blockCurrentAndRunNext (.other pinned)))
  | .futexWait word loaded val timeout => k.call (k.doFutexWait word loaded val timeout)
  | .futexWake word val => do
      let (_, task) <- k.currentTask
      k.call (futexWake none task.futex word val k)
  | .nanosleep req => k.call (silently (k.sysNanosleep req))
  | .sigtimedwait set timeout => k.call (silently (k.sigtimedwait set timeout))
  | .resume => do
      let (_, k) <- k.resume
      .ok k
  | .takeSignal signal => do
      let (t, _) <- k.currentTask
      k.call (.ok ((), k.modify t fun task => { task with sigpending := task.sigpending.remove signal }))
  | .kill pid sig => k.call (k.sysKill pid sig)
  | .tkill tid sig => k.call (k.sysTkill tid sig)
  | .tgkill tgid tid sig => k.call (k.sysTgkill tgid tid sig)
  | .expire => .ok k.doWakeExpired
  | .exit translate exitCode => k.call (silently (exitCurrentAndRunNext translate exitCode k))
  | .exitGroup translate exitCode => k.call (silently (exitGroupAndRunNext translate exitCode k))
  | .clone flags ctid ptidFault => k.call (k.sysClone flags ctid ptidFault)
  | .setsid => k.call (silently k.sysSetsid)
  | .wait4 pid nohang fault => k.call (k.sysWait4 pid nohang fault)
  | .loadElf => k.call (silently k.loadElf)

theorem ok_of_call {α : Type} {k after : Kernel} {body : Outcome (α × Kernel)}
    (done : k.call body = .ok after) : ∃ answer, body = .ok (answer, after) := by
  rcases ok_of_bind_ok done with ⟨⟨_, _⟩, _, free⟩
  dsimp only at free
  split at free
  · rcases ok_of_bind_ok free with ⟨⟨answer, _⟩, finished, same⟩
    cases same
    exact ⟨answer, finished⟩
  · cases free

/-- The task that starts a system call has finished the one before. -/
theorem free_of_call {α : Type} {k after : Kernel} {body : Outcome (α × Kernel)}
    (done : k.call body = .ok after) :
    ∃ t task, k.currentTask = .ok (t, task) /\ task.suspended = none := by
  rcases ok_of_bind_ok done with ⟨⟨t, task⟩, current, free⟩
  dsimp only at free
  split at free
  · rename_i finished
    exact ⟨t, task, current, finished⟩
  · cases free

/-- The steps of the hart. -/
def Step (before : Kernel) (event : Event) (after : Kernel) : Prop := before.exec event = .ok after

end Kernel

end GCore.Task
