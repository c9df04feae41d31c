import GCore.Fs.FdTable

namespace GCore.Net

open Library Fs FdTable Function Option List

/-!
# The socket table and the descriptor table

A task finds a socket by its descriptor in two tables.  The descriptor table has the file
behind the descriptor, and the socket table has the socket.  The second one is written by
`socket`, by `accept` and by `bind` alone.  All other calls change descriptors and leave the
socket table as it is, and each task has a socket table of its own, also if its
descriptors are shared with other tasks.

The module embeds the calls that open, close and duplicate descriptors, says for each of
them when it keeps the two tables in agreement, and reads off what holds in a whole run.
The answers of the network, which no table depends on, are part of an event.
-/

def AF_UNIX : BitVec 16 := 1
def AF_INET : BitVec 16 := 2
def AF_INET6 : BitVec 16 := 10

structure IpListenEndpoint where
  addr : Option Nat
  port : Nat
  deriving DecidableEq

/-- The bits of `SocketType`. -/
abbrev SocketType := BitVec 32

namespace SocketType

def SOCK_STREAM : SocketType := 1#32
def SOCK_DGRAM : SocketType := 2#32
def SOCK_RAW : SocketType := 4#32
def SOCK_CLOEXEC : SocketType := 0x80000#32
def SOCK_NONBLOCK : SocketType := 0x800#32

def all : SocketType := SOCK_STREAM ||| SOCK_DGRAM ||| SOCK_RAW ||| SOCK_CLOEXEC ||| SOCK_NONBLOCK

def fromBits (bits : BitVec 32) : Option SocketType := if bits &&& ~~~all = 0#32 then some bits else none

def contains (socketType other : SocketType) : Bool := socketType &&& other == other

end SocketType

open SocketType

/-- The four implementations of `Socket`. -/
inductive SocketKind where
  | tcp
  | udp
  | icmp
  | unix (socketType : SocketType)
  deriving DecidableEq

/-- A socket with the endpoint that it is bound to. -/
structure Socket where
  kind : SocketKind
  bound : IpListenEndpoint

namespace Socket

variable (socket : Socket)

def socketType : SocketType :=
  match socket.kind with
  | .tcp => SOCK_STREAM
  | .udp => SOCK_DGRAM
  | .icmp => SOCK_RAW
  | .unix socketType => socketType

def loaclEndpoint : IpListenEndpoint :=
  match socket.kind with
  | .tcp => socket.bound
  | .udp => socket.bound
  | .icmp => ⟨none, 0⟩
  | .unix _ => ⟨some 0, 0⟩

end Socket

/-- The file behind a descriptor; all that is not a socket is alike here. -/
inductive File where
  | socket (id : Nat)
  | other (id : Nat)
  deriving DecidableEq

def File.socket? : File -> Option Nat
  | .socket id => some id
  | .other _ => none

structure FileDescriptor where
  cloexec : Bool
  nonblock : Bool
  file : File
  deriving DecidableEq

/-- The map from descriptors to sockets, in the order of its keys. -/
structure SocketTable where
  entries : List (Nat × Nat)

namespace SocketTable

def new : SocketTable := ⟨[]⟩

/-- Insertion in order; the value of a key that is there is replaced. -/
def insertEntry (key value : Nat) : List (Nat × Nat) -> List (Nat × Nat)
  | [] => [(key, value)]
  | (first, old) :: rest =>
    if key < first then (key, value) :: (first, old) :: rest
    else if key = first then (key, value) :: rest
    else (first, old) :: insertEntry key value rest

variable (table : SocketTable)

def insert (key value : Nat) : SocketTable := ⟨insertEntry key value table.entries⟩

def getRef (fd : Nat) : Option Nat := table.entries.lookup fd

/-- The first datagram socket with this endpoint. -/
def canBind (sockets : Nat -> Socket) (endpoint : IpListenEndpoint) : Option (Nat × Nat) :=
  table.entries.find? (fun entry => (sockets entry.2).socketType.contains SOCK_DGRAM &&
    decide ((sockets entry.2).loaclEndpoint = endpoint))

theorem lookup_pair (entries : List (Nat × Nat)) (key value fd : Nat) :
    ((key, value) :: entries).lookup fd = if fd = key then some value else entries.lookup fd := by
  rw [lookup_cons]
  by_cases same : fd = key
  · rw [if_pos same, same, beq_self_eq_true]
  · rw [if_neg same, beq_eq_false_iff_ne.mpr same]

theorem lookup_insertEntry (entries : List (Nat × Nat)) (key value fd : Nat) :
    (insertEntry key value entries).lookup fd = if fd = key then some value else entries.lookup fd := by
  induction entries with
  | nil => exact lookup_pair [] key value fd
  | cons entry rest ih =>
    rcases entry with ⟨first, _⟩
    rw [insertEntry]
    split
    · exact lookup_pair _ key value fd
    · split
      · rename_i equal
        subst equal
        rw [lookup_pair, lookup_pair]
        split <;> rfl
      · rename_i different
        rw [lookup_pair, lookup_pair, ih]
        by_cases same : fd = first
        · rw [if_pos same, if_pos same, if_neg (fun equal => different (equal.symm.trans same))]
        · rw [if_neg same, if_neg same]

theorem getRef_insert (key value fd : Nat) :
    (table.insert key value).getRef fd = if fd = key then some value else table.getRef fd :=
  lookup_insertEntry table.entries key value fd

end SocketTable

open SocketTable

/-! ## The calls -/

structure Task where
  files : Nat
  socketTable : SocketTable

/-- All sockets, descriptor tables and tasks.  Tasks have the numbers of their descriptor
tables, and tables the numbers of sockets. -/
structure System where
  sockets : Nat -> Socket
  socketCount : Nat
  tables : Nat -> FdTable FileDescriptor
  tableCount : Nat
  tasks : Nat -> Task
  taskCount : Nat

namespace System

section Calls

variable (sys : System) (task : Nat)

def files : FdTable FileDescriptor := sys.tables (sys.tasks task).files

def socketTable : SocketTable := (sys.tasks task).socketTable

def setFiles (files : FdTable FileDescriptor) : System :=
  { sys with tables := Function.update sys.tables (sys.tasks task).files files }

def setSocketTable (socketTable : SocketTable) : System :=
  { sys with tasks := Function.update sys.tasks task { sys.tasks task with socketTable := socketTable } }

/-- `Arc::new` of a socket. -/
def addSocket (socket : Socket) : System :=
  { sys with sockets := Function.update sys.sockets sys.socketCount socket, socketCount := sys.socketCount + 1 }

/-- The socket that `Socket::alloc` makes, and the two flags of its descriptor.  The
endpoint of a new stream socket has a random port. -/
def newSocket (domain socketType : BitVec 32) (port : Nat) : Except Int (Socket × Bool × Bool) :=
  if socketType = 3#32 then
    if domain.setWidth 16 = AF_INET \/ domain.setWidth 16 = AF_INET6 then .ok (⟨.icmp, ⟨none, 0⟩⟩, false, false)
    else .error EAFNOSUPPORT
  else if domain.setWidth 16 = AF_INET \/ domain.setWidth 16 = AF_INET6 then
    match fromBits socketType with
    | none => .error EINVAL
    | some socketType =>
      let cloexec := socketType.contains SOCK_CLOEXEC
      let nonblock := socketType.contains SOCK_NONBLOCK
      if socketType.contains SOCK_DGRAM then .ok (⟨.udp, ⟨none, 0⟩⟩, cloexec, nonblock)
      else if socketType.contains SOCK_STREAM then .ok (⟨.tcp, ⟨none, port⟩⟩, cloexec, nonblock)
      else .error EINVAL
  else if domain.setWidth 16 = AF_UNIX then
    match fromBits socketType with
    | none => .error EINVAL
    | some socketType =>
      let cloexec := socketType.contains SOCK_CLOEXEC
      let nonblock := socketType.contains SOCK_NONBLOCK
      let baseType := socketType &&& ~~~(SOCK_CLOEXEC ||| SOCK_NONBLOCK)
      if baseType ≠ SOCK_STREAM /\ baseType ≠ SOCK_DGRAM then .error EINVAL
      else .ok (⟨.unix baseType, ⟨some 0, 0⟩⟩, cloexec, nonblock)
  else .error EINVAL

/-- All branches of `Socket::alloc` end like this.  No free descriptor is a panic. -/
def sysSocket (domain socketType : BitVec 32) (port : Nat) : Option (Int × System) :=
  match newSocket domain socketType port with
  | .error errno => some (errno, sys)
  | .ok (socket, cloexec, nonblock) =>
    match (sys.files task).insert ⟨cloexec, nonblock, .socket sys.socketCount⟩ with
    | some (.ok fd, files) =>
      some (fd, ((sys.addSocket socket).setFiles task files).setSocketTable task
        ((sys.socketTable task).insert fd sys.socketCount))
    | some (.error _, _) => none
    | none => none

/-- `Socket::bind`, with the answer of the interface for a datagram socket. -/
def bindSocket (id : Nat) (endpoint : IpListenEndpoint) (accepted : Bool) : Int × System :=
  match (sys.sockets id).kind with
  | .tcp => (0, { sys with sockets := Function.update sys.sockets id ⟨.tcp, endpoint⟩ })
  | .udp =>
    if accepted then (0, { sys with sockets := Function.update sys.sockets id ⟨.udp, endpoint⟩ })
    else (EINVAL, sys)
  | .icmp => if accepted then (0, sys) else (EINVAL, sys)
  | .unix _ => (0, sys)

/-- If another socket has the endpoint, then the entry of the socket table is replaced by it,
and it gets a new descriptor. -/
def sysBind (sockfd : Nat) (endpoint : IpListenEndpoint) (accepted : Bool) : Option (Int × System) :=
  match (sys.socketTable task).getRef sockfd with
  | none => some (ENOTSOCK, sys)
  | some socket =>
    if (sys.sockets socket).socketType = SOCK_STREAM then some (sys.bindSocket socket endpoint accepted)
    else if (sys.sockets socket).socketType = SOCK_DGRAM then
      match (sys.socketTable task).canBind sys.sockets endpoint with
      | none => some (sys.bindSocket socket endpoint accepted)
      | some (_, sock) =>
        ((sys.files task).insert ⟨false, false, .socket sock⟩).map (fun (_, files) =>
          (0, (sys.setSocketTable task ((sys.socketTable task).insert sockfd sock)).setFiles task files))
    else some (EINVAL, sys)

/-- `TcpSocket::accept`, with the outcome of waiting, listening and storing the address.  The
connected socket gets a new descriptor, and a new listening socket takes its place. -/
def acceptTcp (socket sockfd : Nat) (arrival : Except Int Unit) : Option (Int × System) :=
  match (sys.files task).get sockfd with
  | none => none
  | some oldFile =>
    match arrival with
    | .error errno => some (errno, sys)
    | .ok () =>
      let local_ := (sys.sockets socket).loaclEndpoint
      let newSocket := sys.socketCount
      let taken := ((sys.files task).take sockfd).2
      let replaced := (taken.insertAt ⟨oldFile.cloexec, oldFile.nonblock, .socket newSocket⟩ sockfd).2
      match replaced.insert oldFile, (sys.socketTable task).getRef sockfd with
      | some (.ok fd, files), some oldSocket =>
        some (fd, ((sys.addSocket ⟨.tcp, local_⟩).setFiles task files).setSocketTable task
          (((sys.socketTable task).insert sockfd newSocket).insert fd oldSocket))
      | _, _ => none

def sysAccept (sockfd : Nat) (arrival : Except Int Unit) : Option (Int × System) :=
  match (sys.socketTable task).getRef sockfd with
  | none => some (ENOTSOCK, sys)
  | some socket =>
    match (sys.sockets socket).kind with
    | .tcp => sys.acceptTcp task socket sockfd arrival
    | _ => some (EOPNOTSUPP, sys)

def sysClose (fd : Nat) : Option (Int × System) :=
  match (sys.files task).remove fd with
  | (.ok _, files) => some (SUCCESS, sys.setFiles task files)
  | (.error errno, _) => some (errno, sys)

def sysDup (oldfd : Nat) : Option (Int × System) :=
  match (sys.files task).get oldfd with
  | none => some (EBADF, sys)
  | some oldFile =>
    match (sys.files task).insert oldFile with
    | some (.ok fd, files) => some (fd, sys.setFiles task files)
    | some (.error errno, _) => some (errno, sys)
    | none => none

/-- Both `dup2` and `dup3` put the descriptor at a given place. -/
def duplicateAt (oldfd newfd : Nat) (cloexec : Bool) : Option (Int × System) :=
  match (sys.files task).get oldfd with
  | none => some (EBADF, sys)
  | some oldFile =>
    match (sys.files task).insertAt { oldFile with cloexec := cloexec } newfd with
    | (.ok fd, files) => some (fd, sys.setFiles task files)
    | (.error errno, _) => some (errno, sys)

def sysDup2 (oldfd newfd : Nat) : Option (Int × System) := sys.duplicateAt task oldfd newfd false

def oCloexec : Nat := 0o2000000

def sysDup3 (oldfd newfd flags : Nat) : Option (Int × System) :=
  if oldfd = newfd then some (EINVAL, sys)
  else if flags = oCloexec then sys.duplicateAt task oldfd newfd true
  else if flags = 0 then sys.duplicateAt task oldfd newfd false
  else some (EINVAL, sys)

/-- The two commands of `fcntl` that duplicate a descriptor. -/
def fcntlDupfd (fd : Nat) (cloexec : Bool) (arg : Nat) : Option (Int × System) :=
  match (sys.files task).get fd with
  | none => some (EBADF, sys)
  | some oldFile =>
    match (sys.files task).tryInsertAt (if cloexec then { oldFile with cloexec := true } else oldFile) arg with
    | some (.ok fd, files) => some (fd, sys.setFiles task files)
    | some (.error errno, _) => some (errno, sys)
    | none => none

/-- The new task has the descriptor table of the caller or a copy of it, and a copy of its
socket table. -/
def sysClone (cloneFiles : Bool) : System :=
  { sys with
    tables := if cloneFiles then sys.tables else Function.update sys.tables sys.tableCount (sys.files task)
    tableCount := if cloneFiles then sys.tableCount else sys.tableCount + 1
    tasks := Function.update sys.tasks sys.taskCount
      ⟨if cloneFiles then (sys.tasks task).files else sys.tableCount, sys.socketTable task⟩
    taskCount := sys.taskCount + 1 }

/-- What `load_elf` does with the descriptors when it succeeds. -/
def exec : System := sys.setFiles task ((sys.files task).closeOnExec FileDescriptor.cloexec)

end Calls

/-- A call of a task. -/
inductive Call where
  | socket (domain socketType : BitVec 32) (port : Nat)
  | bind (sockfd : Nat) (endpoint : IpListenEndpoint) (accepted : Bool)
  | accept (sockfd : Nat) (arrival : Except Int Unit)
  | close (fd : Nat)
  | dup (oldfd : Nat)
  | dup2 (oldfd newfd : Nat)
  | dup3 (oldfd newfd flags : Nat)
  | fcntlDupfd (fd : Nat) (cloexec : Bool) (arg : Nat)
  | clone (cloneFiles : Bool)
  | exec

/-- The result and the new state of a call; there is none if the kernel panics. -/
def call (sys : System) (task : Nat) : Call -> Option (Int × System)
  | .socket domain socketType port => sys.sysSocket task domain socketType port
  | .bind sockfd endpoint accepted => sys.sysBind task sockfd endpoint accepted
  | .accept sockfd arrival => sys.sysAccept task sockfd arrival
  | .close fd => sys.sysClose task fd
  | .dup oldfd => sys.sysDup task oldfd
  | .dup2 oldfd newfd => sys.sysDup2 task oldfd newfd
  | .dup3 oldfd newfd flags => sys.sysDup3 task oldfd newfd flags
  | .fcntlDupfd fd cloexec arg => sys.fcntlDupfd task fd cloexec arg
  | .clone cloneFiles => some (sys.taskCount, sys.sysClone task cloneFiles)
  | .exec => some (SUCCESS, sys.exec task)

def Step (before : System) (label : Nat × Call) (after : System) : Prop :=
  label.1 < before.taskCount /\ ∃ result, before.call label.1 label.2 = some (result, after)

/-- The first task, with the terminal at its three descriptors. -/
def initial : System :=
  { sockets := fun _ => ⟨.icmp, ⟨none, 0⟩⟩
    socketCount := 0
    tables := fun _ => FdTable.new (replicate 3 (some ⟨false, false, .other 0⟩))
    tableCount := 1
    tasks := fun _ => ⟨0, .new⟩
    taskCount := 1 }

/-! ## Agreement -/

/-- The socket behind a descriptor. -/
def socketAt (files : FdTable FileDescriptor) (fd : Nat) : Option Nat :=
  (files.get fd).bind (fun descriptor => descriptor.file.socket?)

section Agreement

variable (sys : System)

/-- The socket table has the socket of each descriptor, and nothing for the descriptors
that are closed or belong to something else. -/
def Agrees : Prop :=
  ∀ task < sys.taskCount, ∀ fd, (sys.socketTable task).getRef fd = socketAt (sys.files task) fd

/-- No other task has the same descriptor table. -/
def Alone (task : Nat) : Prop :=
  ∀ other < sys.taskCount, other ≠ task -> (sys.tasks other).files ≠ (sys.tasks task).files

/-- Descriptor `fd` would become the same as `oldfd`; for the sockets this is no change. -/
def SameSocket (task fd oldfd : Nat) : Prop := socketAt (sys.files task) fd = socketAt (sys.files task) oldfd

/-- When a call keeps the tables in agreement.  A call that is refused always does. -/
def Permits (task : Nat) : Call -> Prop
  | .socket domain socketType port => (newSocket domain socketType port).isOk = true -> sys.Alone task
  | .bind sockfd endpoint _ =>
    ∀ socket found, (sys.socketTable task).getRef sockfd = some socket ->
      (sys.sockets socket).socketType = SOCK_DGRAM ->
      (sys.socketTable task).canBind sys.sockets endpoint = some found ->
      found.2 = socket /\ (sys.files task).Full
  | .accept sockfd arrival =>
    ∀ socket, (sys.socketTable task).getRef sockfd = some socket -> (sys.sockets socket).kind = .tcp ->
      arrival = .ok () -> sys.Alone task
  | .close fd => socketAt (sys.files task) fd = none
  | .dup oldfd =>
    (sys.files task).Live oldfd -> ¬ (sys.files task).Full -> sys.SameSocket task (sys.files task).nextFd oldfd
  | .dup2 oldfd newfd =>
    (sys.files task).Live oldfd -> newfd < (sys.files task).inner.length \/ newfd < (sys.files task).softLimit ->
      sys.SameSocket task newfd oldfd
  | .dup3 oldfd newfd flags =>
    oldfd ≠ newfd -> flags = oCloexec \/ flags = 0 -> (sys.files task).Live oldfd ->
      newfd < (sys.files task).inner.length \/ newfd < (sys.files task).softLimit -> sys.SameSocket task newfd oldfd
  | .fcntlDupfd fd _ arg =>
    (sys.files task).Live fd -> arg < (sys.files task).softLimit ->
      ¬ ((sys.files task).hintedFd arg = (sys.files task).inner.length /\
        (sys.files task).hintedFd arg = (sys.files task).softLimit) ->
      sys.SameSocket task ((sys.files task).hintedFd arg) fd
  | .clone _ => True
  | .exec => ∀ fd descriptor, (sys.files task).get fd = some descriptor -> descriptor.cloexec = true ->
      descriptor.file.socket? = none

def Admits (label : Nat × Call) : Prop := sys.Permits label.1 label.2

/-- Agreement, and numbers of descriptor tables that exist. -/
structure Sound : Prop where
  tables : ∀ task < sys.taskCount, (sys.tasks task).files < sys.tableCount
  agrees : sys.Agrees

end Agreement

variable {sys after : System} {task : Nat}

variable (sys task)

theorem files_setFiles (files : FdTable FileDescriptor) (other : Nat) : (sys.setFiles task files).files other =
      if (sys.tasks other).files = (sys.tasks task).files then files else sys.files other := by
  exact update_apply sys.tables (sys.tasks task).files files (sys.tasks other).files

theorem tasks_setSocketTable (socketTable : SocketTable) (other : Nat) :
    (sys.setSocketTable task socketTable).tasks other =
      if other = task then ⟨(sys.tasks task).files, socketTable⟩ else sys.tasks other := by
  exact update_apply sys.tasks task _ other

theorem number_setSocketTable (socketTable : SocketTable) (other : Nat) :
    ((sys.setSocketTable task socketTable).tasks other).files = (sys.tasks other).files := by
  rw [tasks_setSocketTable]
  by_cases same : other = task
  · rw [if_pos same, same]
  · rw [if_neg same]

theorem files_setSocketTable (socketTable : SocketTable) (other : Nat) :
    (sys.setSocketTable task socketTable).files other = sys.files other := by
  unfold files
  rw [number_setSocketTable]
  rfl

theorem socketTable_setSocketTable (socketTable : SocketTable) (other : Nat) :
    (sys.setSocketTable task socketTable).socketTable other =
      if other = task then socketTable else sys.socketTable other := by
  unfold System.socketTable
  rw [tasks_setSocketTable]
  by_cases same : other = task
  · rw [if_pos same, if_pos same]
  · rw [if_neg same, if_neg same]

variable {files : FdTable FileDescriptor} {fd : Nat}

variable {sys task}

/-- New descriptors with the same sockets. -/
theorem Sound.setFiles (sound : sys.Sound)
    (same : ∀ fd, socketAt files fd = socketAt (sys.files task) fd) : (sys.setFiles task files).Sound := by
  refine ⟨sound.tables, ?_⟩
  intro other live fd
  have before := sound.agrees other live fd
  rw [files_setFiles]
  by_cases shared : (sys.tasks other).files = (sys.tasks task).files
  · rw [if_pos shared, same]
    unfold System.files at before ⊢
    rw [<- shared]
    exact before
  · rw [if_neg shared]
    exact before

variable {socketTable : SocketTable} {file : FileDescriptor}

/-- A socket table with the same sockets. -/
theorem Sound.setSocketTable (sound : sys.Sound)
    (same : ∀ fd, socketTable.getRef fd = (sys.socketTable task).getRef fd) :
    (sys.setSocketTable task socketTable).Sound := by
  constructor
  · intro other live
    rw [number_setSocketTable]
    exact sound.tables other live
  · intro other live fd
    rw [socketTable_setSocketTable, files_setSocketTable, <- sound.agrees other live fd]
    by_cases here : other = task
    · rw [if_pos here, here, same]
    · rw [if_neg here]

/-- Both tables of a task change together, and no other task has these descriptors. -/
theorem Sound.setBoth (sound : sys.Sound) (alone : sys.Alone task)
    (own : ∀ fd, socketTable.getRef fd = socketAt files fd) :
    ((sys.setFiles task files).setSocketTable task socketTable).Sound := by
  constructor
  · intro other live
    rw [number_setSocketTable]
    exact sound.tables other live
  · intro other live fd
    rw [socketTable_setSocketTable, files_setSocketTable, files_setFiles]
    by_cases same : other = task
    · rw [if_pos same, same, if_pos rfl]
      exact own fd
    · rw [if_neg same, if_neg (alone other live same)]
      exact sound.agrees other live fd

theorem socketAt_writes {next : FdTable FileDescriptor}
    (writes : FdTable.Writes files file fd next) (other : Nat) :
    socketAt next other = if other = fd then file.file.socket? else socketAt files other := by
  unfold socketAt
  rw [writes other]
  by_cases same : other = fd
  · rw [if_pos same, if_pos same, bind_some]
  · rw [if_neg same, if_neg same]

/-- A descriptor for a socket that was there before, or for something else at a place without
a socket. -/
theorem Sound.writes (sound : sys.Sound) (writes : FdTable.Writes (sys.files task) file fd files)
    (same : socketAt (sys.files task) fd = file.file.socket?) : (sys.setFiles task files).Sound := by
  apply sound.setFiles
  intro other
  rw [socketAt_writes writes]
  by_cases here : other = fd
  · rw [if_pos here, here, same]
  · rw [if_neg here]

/-! ## One call -/

section Calls

variable {result : Int}

theorem Sound.sysSocket {domain socketType : BitVec 32} {port : Nat} (sound : sys.Sound)
    (live : task < sys.taskCount) (admitted : sys.Permits task (.socket domain socketType port))
    (done : sys.sysSocket task domain socketType port = some (result, after)) : after.Sound := by
  unfold System.sysSocket at done
  change (newSocket domain socketType port).isOk = true -> _ at admitted
  cases made : newSocket domain socketType port with
  | error errno =>
    rw [made] at done
    cases done
    exact sound
  | ok parts =>
    rcases parts with ⟨socket, _⟩
    rw [made] at done admitted
    dsimp only at done
    split at done
    · rename_i fd files inserted
      cases done
      have base : (sys.addSocket socket).Sound := ⟨sound.tables, sound.agrees⟩
      apply base.setBoth (admitted rfl)
      intro other
      rw [getRef_insert, socketAt_writes (writes_insert inserted).2, sound.agrees task live]
      rfl
    · cases done
    · cases done

theorem Sound.bindSocket (sound : sys.Sound) (id : Nat) (endpoint : IpListenEndpoint) (accepted : Bool) :
    (sys.bindSocket id endpoint accepted).2.Sound := by
  unfold System.bindSocket
  split
  · exact ⟨sound.tables, sound.agrees⟩
  · split
    · exact ⟨sound.tables, sound.agrees⟩
    · exact ⟨sound.tables, sound.agrees⟩
  · split
    · exact ⟨sound.tables, sound.agrees⟩
    · exact ⟨sound.tables, sound.agrees⟩
  · exact ⟨sound.tables, sound.agrees⟩

variable {sockfd oldfd : Nat} (sound : sys.Sound)

include sound

theorem Sound.sysBind {endpoint : IpListenEndpoint} {accepted : Bool}
    (admitted : sys.Permits task (.bind sockfd endpoint accepted))
    (done : sys.sysBind task sockfd endpoint accepted = some (result, after)) : after.Sound := by
  unfold System.sysBind at done
  split at done
  · cases done
    exact sound
  · rename_i socket entry
    split at done
    · have bound := sound.bindSocket socket endpoint accepted
      rw [some.inj done] at bound
      exact bound
    · split at done
      · rename_i datagram
        cases found : (sys.socketTable task).canBind sys.sockets endpoint with
        | none =>
          rw [found] at done
          have bound := sound.bindSocket socket endpoint accepted
          rw [some.inj done] at bound
          exact bound
        | some pair =>
          rcases admitted socket pair entry datagram found with ⟨same, full⟩
          rcases pair with ⟨_, sock⟩
          subst same
          rw [found] at done
          dsimp only at done
          rw [full.insert_eq] at done
          cases done
          -- the entry is replaced by itself, and the descriptors stay as they are
          have kept : (sys.setSocketTable task ((sys.socketTable task).insert sockfd sock)).Sound := by
            apply sound.setSocketTable
            intro fd
            rw [getRef_insert]
            by_cases here : fd = sockfd
            · rw [if_pos here, here, entry]
            · rw [if_neg here]
          apply kept.setFiles
          intro fd
          rw [files_setSocketTable]
      · cases done
        exact sound

variable {arrival : Except Int Unit} {cloexec : Bool} {newfd : Nat}

theorem Sound.acceptTcp {socket : Nat} (live : task < sys.taskCount) (alone : arrival = .ok () -> sys.Alone task)
    (done : sys.acceptTcp task socket sockfd arrival = some (result, after)) : after.Sound := by
  unfold System.acceptTcp at done
  cases entry : (sys.files task).get sockfd with
  | none =>
    rw [entry] at done
    cases done
  | some oldFile =>
    have inside : sockfd < ((sys.files task).take sockfd).2.inner.length := by
      rw [FdTable.length_take]
      exact (FdTable.Live.of_get entry).lt_length
    rw [entry] at done
    cases arrival with
    | error errno =>
      cases done
      exact sound
    | ok arrived =>
      dsimp only at done
      split at done
      · rename_i fd files oldSocket inserted old
        cases done
        have base : (sys.addSocket ⟨.tcp, (sys.sockets socket).loaclEndpoint⟩).Sound := ⟨sound.tables, sound.agrees⟩
        apply base.setBoth (alone rfl)
        intro other
        rw [getRef_insert, getRef_insert, socketAt_writes (writes_insert inserted).2]
        have before := sound.agrees task live
        have socket_eq : oldFile.file.socket? = some oldSocket := by
          have found := before sockfd
          rw [old, socketAt, entry, bind_some] at found
          exact found.symm
        by_cases here : other = fd
        · rw [if_pos here, if_pos here, socket_eq]
        · rw [if_neg here, if_neg here, socketAt_writes (writes_insertAt (insertAt_inside inside)).2]
          by_cases there : other = sockfd
          · rw [if_pos there, if_pos there]
            rfl
          · rw [if_neg there, if_neg there, before, socketAt, socketAt, get_take, if_neg there]
      · cases done

theorem Sound.sysAccept (live : task < sys.taskCount) (admitted : sys.Permits task (.accept sockfd arrival))
    (done : sys.sysAccept task sockfd arrival = some (result, after)) : after.Sound := by
  unfold System.sysAccept at done
  split at done
  · cases done
    exact sound
  · rename_i socket entry
    split at done
    · rename_i stream
      exact sound.acceptTcp live (admitted socket entry stream) done
    · cases done
      exact sound

theorem Sound.sysClose (admitted : sys.Permits task (.close fd))
    (done : sys.sysClose task fd = some (result, after)) : after.Sound := by
  unfold System.sysClose at done
  split at done
  · rename_i file files removed
    cases done
    apply sound.setFiles
    intro other
    have cleared := @FdTable.get_remove _ (sys.files task) fd other
    rw [removed] at cleared
    unfold socketAt
    rw [cleared]
    by_cases here : other = fd
    · rw [if_pos here, here]
      exact admitted.symm
    · rw [if_neg here]
  · cases done
    exact sound

theorem Sound.sysDup (admitted : sys.Permits task (.dup oldfd))
    (done : sys.sysDup task oldfd = some (result, after)) : after.Sound := by
  unfold System.sysDup at done
  split at done
  · cases done
    exact sound
  · rename_i oldFile entry
    have live := FdTable.Live.of_get entry
    split at done
    · rename_i fd files inserted
      cases done
      have stored := writes_insert inserted
      have room : ¬ (sys.files task).Full := by
        intro full
        rw [full.insert_eq] at inserted
        cases inserted
      apply sound.writes stored.2
      rw [stored.1, admitted live room, socketAt, entry, bind_some]
    · cases done
      exact sound
    · cases done

theorem Sound.duplicateAt (admitted : sys.Permits task (.dup2 oldfd newfd))
    (done : sys.duplicateAt task oldfd newfd cloexec = some (result, after)) : after.Sound := by
  unfold System.duplicateAt at done
  split at done
  · cases done
    exact sound
  · rename_i oldFile entry
    have live := FdTable.Live.of_get entry
    split at done
    · rename_i fd files inserted
      cases done
      have stored := writes_insertAt inserted
      apply sound.writes stored.2
      rw [admitted live stored.1, socketAt, entry, bind_some]
    · cases done
      exact sound

theorem Sound.sysDup3 {flags : Nat} (admitted : sys.Permits task (.dup3 oldfd newfd flags))
    (done : sys.sysDup3 task oldfd newfd flags = some (result, after)) : after.Sound := by
  unfold System.sysDup3 at done
  split at done
  · cases done
    exact sound
  · rename_i different
    split at done
    · rename_i flagged
      exact sound.duplicateAt (admitted different (.inl flagged)) done
    · split at done
      · rename_i flagged
        exact sound.duplicateAt (admitted different (.inr flagged)) done
      · cases done
        exact sound

theorem Sound.fcntlDupfd {arg : Nat} (admitted : sys.Permits task (.fcntlDupfd fd cloexec arg))
    (done : sys.fcntlDupfd task fd cloexec arg = some (result, after)) : after.Sound := by
  unfold System.fcntlDupfd at done
  split at done
  · cases done
    exact sound
  · rename_i oldFile entry
    have live := FdTable.Live.of_get entry
    split at done
    · rename_i place files inserted
      cases done
      rcases writes_tryInsertAt inserted with ⟨place_eq, below, room, writes⟩
      apply sound.writes writes
      rw [place_eq] at room ⊢
      rw [admitted live below room, socketAt, entry, bind_some]
      cases cloexec with
      | true | false => rfl
    · cases done
      exact sound
    · cases done

omit sound

theorem Sound.exec (sound : sys.Sound) (admitted : sys.Permits task .exec) : (sys.exec task).Sound := by
  apply sound.setFiles
  intro fd
  unfold socketAt
  rw [get_closeOnExec]
  cases entry : (sys.files task).get fd with
  | none => rfl
  | some descriptor =>
    rw [filter_some]
    cases closes : descriptor.cloexec with
    | true => exact (admitted fd descriptor entry closes).symm
    | false => rfl

/-- The new task has the same sockets in both of its tables. -/
theorem Sound.sysClone (sound : sys.Sound) (live : task < sys.taskCount) (cloneFiles : Bool) :
    (sys.sysClone task cloneFiles).Sound := by
  have own := sound.tables task live
  have old_task : ∀ other < sys.taskCount, (sys.sysClone task cloneFiles).tasks other = sys.tasks other :=
    fun other below => update_of_ne (ne_of_lt below) ..
  have new_task : (sys.sysClone task cloneFiles).tasks sys.taskCount =
      ⟨if cloneFiles then (sys.tasks task).files else sys.tableCount, sys.socketTable task⟩ := update_self ..
  have old_table : ∀ number < sys.tableCount,
      (sys.sysClone task cloneFiles).tables number = sys.tables number := by
    intro number below
    cases cloneFiles with
    | true => rfl
    | false => exact update_of_ne (ne_of_lt below) ..
  have new_files : (sys.sysClone task cloneFiles).files sys.taskCount = sys.files task := by
    unfold files
    rw [new_task]
    cases cloneFiles with
    | true => rfl
    | false => exact update_self ..
  constructor
  · intro other below
    change other < sys.taskCount + 1 at below
    by_cases same : other = sys.taskCount
    · rw [same, new_task]
      cases cloneFiles with
      | true => exact own
      | false => exact Nat.lt_succ_self _
    · rw [old_task other (by omega)]
      have bound := sound.tables other (by omega)
      cases cloneFiles with
      | true => exact bound
      | false => exact Nat.lt_succ_of_lt bound
  · intro other below fd
    change other < sys.taskCount + 1 at below
    by_cases same : other = sys.taskCount
    · rw [same, new_files, System.socketTable, new_task]
      exact sound.agrees task live fd
    · have within : other < sys.taskCount := by omega
      have before := sound.agrees other within fd
      rw [System.socketTable, System.files, old_task other within, old_table _ (sound.tables other within)]
      exact before

end Calls

/-- The step lemma: an admitted call keeps the tables of all tasks in agreement. -/
theorem Sound.step {label : Nat × Call} (sound : sys.Sound) (taken : Guarded Admits Step sys label after) :
    after.Sound := by
  rcases label with ⟨_, call⟩
  rcases taken with ⟨admitted, live, _, done⟩
  cases call with
  | socket domain socketType port => exact sound.sysSocket live admitted done
  | bind sockfd endpoint accepted => exact sound.sysBind admitted done
  | accept sockfd arrival => exact sound.sysAccept live admitted done
  | close fd => exact sound.sysClose admitted done
  | dup oldfd => exact sound.sysDup admitted done
  | dup2 oldfd newfd => exact sound.duplicateAt admitted done
  | dup3 oldfd newfd flags => exact sound.sysDup3 admitted done
  | fcntlDupfd fd cloexec arg => exact sound.fcntlDupfd admitted done
  | clone cloneFiles =>
    cases done
    exact sound.sysClone live cloneFiles
  | exec =>
    cases done
    exact sound.exec admitted

theorem initial_sound : initial.Sound := by
  constructor
  · intro task _
    exact Nat.one_pos
  · intro task _ fd
    change none = socketAt (FdTable.new (replicate 3 (some ⟨false, false, .other 0⟩))) fd
    unfold socketAt FdTable.get FdTable.new
    rw [getElem?_replicate]
    split
    · rfl
    · rfl

/-- In every run of admitted calls the two tables of every task agree. -/
theorem socket_tables_agree_in_every_run {start : System} (sound : start.Sound)
    (run : Reached (Guarded Admits Step) start sys) : sys.Agrees :=
  (run.invariant sound (fun _ _ _ => Sound.step)).agrees

/-- The first task opens a stream socket and accepts a connection on it; the connection is
behind the new descriptor. -/
theorem socket_tables_agree_after_accept : ∃ sys, Reached (Guarded Admits Step) initial sys /\
    (sys.socketTable 0).getRef 4 = some 0 /\ sys.Agrees := by
  have evaluated : (initial.call 0 (.socket 2 1 7)).any (fun opened => decide (opened.2.taskCount = 1) &&
      (opened.2.call 0 (.accept 3 (.ok ()))).any (fun accepted =>
        decide ((accepted.2.socketTable 0).getRef 4 = some 0))) = true := by
    decide +kernel
  rcases (any_eq_true _ _).mp evaluated with ⟨⟨result, middle⟩, opened, rest⟩
  rcases Bool.and_eq_true_iff.mp rest with ⟨single, accepts⟩
  rcases (any_eq_true _ _).mp accepts with ⟨⟨fd, sys⟩, accepted, found⟩
  have only : middle.taskCount = 1 := of_decide_eq_true single
  have first : Guarded Admits Step initial (0, .socket 2 1 7) middle := by
    refine ⟨?_, by decide, result, opened⟩
    intro _ other below different
    change other < 1 at below
    omega
  have second : Guarded Admits Step middle (0, .accept 3 (.ok ())) sys := by
    refine ⟨?_, by rw [only]; decide, fd, accepted⟩
    intro socket _ _ _ other below different
    omega
  have run := (Reached.refl.next first).next second
  exact ⟨sys, run, of_decide_eq_true found, socket_tables_agree_in_every_run initial_sound run⟩

/-- The socket of a closed descriptor is still in the socket table. -/
theorem closed_socket_is_still_found : ¬ ∀ sys : System, Reached Step initial sys -> sys.Agrees := by
  intro claimed
  have evaluated : (initial.call 0 (.socket 2 1 7)).any (fun opened => decide (opened.2.taskCount = 1) &&
      (opened.2.call 0 (.close 3)).any (fun closed => decide (closed.2.taskCount = 1) &&
        decide ((closed.2.socketTable 0).getRef 3 ≠ socketAt (closed.2.files 0) 3))) = true := by
    decide +kernel
  rcases (any_eq_true _ _).mp evaluated with ⟨⟨result, middle⟩, opened, rest⟩
  rcases Bool.and_eq_true_iff.mp rest with ⟨single, closes⟩
  rcases (any_eq_true _ _).mp closes with ⟨⟨outcome, sys⟩, closed, rest⟩
  rcases Bool.and_eq_true_iff.mp rest with ⟨still, differs⟩
  have only : middle.taskCount = 1 := of_decide_eq_true single
  have last : sys.taskCount = 1 := of_decide_eq_true still
  have first : Step initial (0, .socket 2 1 7) middle := ⟨by decide, result, opened⟩
  have second : Step middle (0, .close 3) sys := ⟨by rw [only]; decide, outcome, closed⟩
  have agrees := claimed sys ((Reached.refl.next first).next second)
  exact of_decide_eq_true differs (agrees 0 (by rw [last]; decide) 3)

end System

end GCore.Net
