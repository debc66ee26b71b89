import MidiDaemon.CommandServer

/-!
# Clients of the command server

The command server receives from a client until `recv` reports `EWOULDBLOCK`. Its listening
socket does not block, and the code takes for granted that the sockets `accept` returns inherit
this. On Linux they do not, and `recv` waits for the client.

The model adds the kernel's side: connections in the backlog and behind descriptors, with the
bytes their clients have sent, and clients that connect, send and close in any order. Whether
sockets inherit the state of the listening socket is a parameter. Where they do not, the server
is stuck with an idle client exactly when it comes back to `recv` before the client has sent
more or closed its end (`never_blocked_iff`).
-/

namespace MidiDaemon

open Machine Ledger

/-- The end of a connection that the server reads. -/
structure Connection where
  /-- The bytes sent and not yet received. -/
  pending : List UInt8
  /-- The client has not closed its end. -/
  isOpen : Bool
deriving DecidableEq, Repr

/-- An accepted connection. -/
structure CommandSocket where
  /-- The connection. -/
  connection : Connection
  /-- `O_NONBLOCK`. -/
  nonBlocking : Bool
deriving DecidableEq, Repr

/-- Where a connection is: at a position of the backlog, or behind a descriptor. -/
inductive Place where
  /-- Not yet accepted. -/
  | queued (position : Nat)
  /-- Accepted. -/
  | accepted (fd : Nat)
deriving DecidableEq, Repr

/-- The command server, and the kernel's side of its sockets. -/
structure CommandHost where
  /-- The server. -/
  server : CommandServer
  /-- The connections not yet accepted, the oldest first. -/
  backlog : List Connection
  /-- The connections behind descriptors. -/
  sockets : Nat → Option CommandSocket

/-- A step of a client or of the server. -/
inductive HostEvent where
  /-- A client connects. -/
  | connect
  /-- A client sends. -/
  | send (place : Place) (sent : List UInt8)
  /-- A client closes its end. -/
  | shut (place : Place)
  /-- A step of the server. -/
  | server (event : CommandEvent)
deriving DecidableEq

/-- Bytes are sent on a connection that is still open. -/
def Connection.send (connection : Connection) (sent : List UInt8) : Connection :=
  if connection.isOpen then { connection with pending := connection.pending ++ sent }
  else connection

/-- The client closes its end. -/
def Connection.shut (connection : Connection) : Connection :=
  { connection with isOpen := false }

/-- `recv` has something to return: bytes, or the end of the connection. -/
def Connection.ready (connection : Connection) : Bool :=
  !connection.pending.isEmpty || !connection.isOpen

/-- `recv` takes bytes off the front of those sent, or reports the end behind the last. -/
def CommandSocket.recv (socket : CommandSocket) : CommandResult → Option CommandSocket
  | .data [] =>
    if socket.connection.pending = [] ∧ socket.connection.isOpen = false then some socket else none
  | .data received =>
    if received <+: socket.connection.pending then
      some { socket with
        connection.pending := socket.connection.pending.drop received.length }
    else none
  | .wouldBlock =>
    if socket.nonBlocking ∧ socket.connection.ready = false then some socket else none
  | .failed => some socket

namespace CommandHost

/-- The server in front of its loop, and no clients. -/
def start (nServerSocket : Nat) : CommandHost where
  server := .start nServerSocket
  backlog := []
  sockets := fun _ => none

/-- A client acts on its connection. -/
def change (host : CommandHost) (act : Connection → Connection) : Place → CommandHost
  | .queued position => { host with backlog := host.backlog.modify position act }
  | .accepted fd =>
    { host with
      sockets := Function.update host.sockets fd ((host.sockets fd).map fun socket =>
        { socket with connection := act socket.connection }) }

/-- `recv` on a descriptor has something to return. -/
def waiting (host : CommandHost) (fd : Nat) : Bool :=
  (host.sockets fd).any fun socket => socket.connection.ready

/-- `select` may find a descriptor ready. -/
def readable (host : CommandHost) (fd : Nat) : Bool :=
  if fd = host.server.nServerSocket then !host.backlog.isEmpty else host.waiting fd

/-- What a step of the server does to the kernel's side, where the kernel returns as it says;
`inherits` tells whether accepted sockets take `O_NONBLOCK` from the listening socket. -/
def kernel (inherits : Bool) (host : CommandHost) : CommandEvent → Option CommandHost
  | .select (some ready) => if ∀ fd ∈ ready, host.readable fd then some host else none
  | .accept (.connection nClientSocket) =>
    match host.backlog with
    | [] => none
    | connection :: backlog =>
      some { host with
        backlog := backlog
        sockets := Function.update host.sockets nClientSocket (some ⟨connection, inherits⟩) }
  | .accept .wouldBlock => if host.backlog = [] then some host else none
  | .recv result =>
    (host.sockets host.server.nFdIndex).bind fun socket =>
      (socket.recv result).map fun after =>
        { host with sockets := Function.update host.sockets host.server.nFdIndex (some after) }
  | .close =>
    some { host with sockets := Function.update host.sockets host.server.nFdIndex none }
  | .cleanUp =>
    if host.server.nFdIndex ∈ host.server.tMasterFdSet then
      some { host with sockets := Function.update host.sockets host.server.nFdIndex none }
    else some host
  | _ => some host

/-- One step of a client or of the server. -/
def step (inherits : Bool) (host : CommandHost) : HostEvent → Option CommandHost
  | .connect => some { host with backlog := host.backlog ++ [⟨[], true⟩] }
  | .send place sent => some (host.change (fun connection => connection.send sent) place)
  | .shut place => some (host.change Connection.shut place)
  | .server event =>
    (host.kernel inherits event).bind fun served =>
      (host.server.step event).map fun server => { served with server := server }

/-- The server is inside `recv` on a blocking socket, and its client has neither sent anything
nor closed its end. -/
def Blocked (host : CommandHost) : Prop :=
  host.server.stage = .receiving ∧ ∃ socket, host.sockets host.server.nFdIndex = some socket ∧
    socket.nonBlocking = false ∧ socket.connection.pending = [] ∧ socket.connection.isOpen = true

/-- The server comes back to `recv` when its client has sent more or closed its end. -/
def MoreToReceive (host : CommandHost) (event : HostEvent) : Prop :=
  event = .server .execute → host.waiting host.server.nFdIndex

instance (host : CommandHost) (event : HostEvent) : Decidable (host.MoreToReceive event) :=
  inferInstanceAs (Decidable (_ → _))

variable {inherits : Bool} {host served next : CommandHost}

/-! ## What the kernel does -/

/-- `recv` leaves `O_NONBLOCK` as it is. -/
theorem recv_nonBlocking {socket after : CommandSocket} {result : CommandResult}
    (returned : socket.recv result = some after) : after.nonBlocking = socket.nonBlocking := by
  unfold CommandSocket.recv at returned
  split at returned
  · simp only [Option.ite_none_right_eq_some, Option.some.injEq] at returned
    rw [returned.2]
  · simp only [Option.ite_none_right_eq_some, Option.some.injEq] at returned
    rw [← returned.2]
  · simp only [Option.ite_none_right_eq_some, Option.some.injEq] at returned
    rw [returned.2]
  · rw [Option.some.inj returned]

/-- What the kernel does to the sockets in a step of the server, all cases of it. -/
theorem kernel_cases {event : CommandEvent} (returned : host.kernel inherits event = some served) :
    served.sockets = host.sockets ∨
      (∃ nClientSocket connection, event.accepted = some nClientSocket ∧ served.sockets =
        Function.update host.sockets nClientSocket (some ⟨connection, inherits⟩)) ∨
      (∃ socket after, host.sockets host.server.nFdIndex = some socket ∧
        after.nonBlocking = socket.nonBlocking ∧
        served.sockets = Function.update host.sockets host.server.nFdIndex (some after)) ∨
      ((event = .close ∨ event = .cleanUp) ∧
        served.sockets = Function.update host.sockets host.server.nFdIndex none) := by
  unfold kernel at returned
  split at returned
  · simp only [Option.ite_none_right_eq_some, Option.some.injEq] at returned
    exact .inl (by rw [returned.2])
  · rename_i nClientSocket
    split at returned
    · cases returned
    · rename_i connection backlog queue
      obtain rfl := Option.some.inj returned
      exact .inr (.inl ⟨nClientSocket, connection, rfl, rfl⟩)
  · simp only [Option.ite_none_right_eq_some, Option.some.injEq] at returned
    exact .inl (by rw [returned.2])
  · obtain ⟨socket, found, rest⟩ := Option.bind_eq_some_iff.mp returned
    obtain ⟨after, received, rfl⟩ := Option.map_eq_some_iff.mp rest
    exact .inr (.inr (.inl ⟨socket, after, found, recv_nonBlocking received, rfl⟩))
  · obtain rfl := Option.some.inj returned
    exact .inr (.inr (.inr ⟨.inl rfl, rfl⟩))
  · split at returned
    · obtain rfl := Option.some.inj returned
      exact .inr (.inr (.inr ⟨.inr rfl, rfl⟩))
    · obtain rfl := Option.some.inj returned
      exact .inl rfl
  · obtain rfl := Option.some.inj returned
    exact .inl rfl

/-- A step of the server changes no socket but the one it is at and the one it accepts. -/
theorem kernel_sockets {event : CommandEvent} {fd : Nat}
    (returned : host.kernel inherits event = some served) (apart : fd ≠ host.server.nFdIndex)
    (unaccepted : event.accepted ≠ some fd) : served.sockets fd = host.sockets fd := by
  rcases kernel_cases returned with same | ⟨nClientSocket, connection, accepted, changed⟩ |
    ⟨socket, after, -, -, changed⟩ | ⟨-, changed⟩
  · rw [same]
  · have other : fd ≠ nClientSocket := fun same => unaccepted (by rw [same, accepted])
    rw [changed, Function.update_of_ne other]
  · rw [changed, Function.update_of_ne apart]
  · rw [changed, Function.update_of_ne apart]

/-- Whether a socket blocks is settled by `accept`, as long as it is not closed. -/
theorem kernel_nonBlocking {event : CommandEvent} {fd : Nat}
    (returned : host.kernel inherits event = some served)
    (unclosed : event ≠ .close ∧ event ≠ .cleanUp) (unaccepted : event.accepted ≠ some fd) :
    (served.sockets fd).map CommandSocket.nonBlocking =
      (host.sockets fd).map CommandSocket.nonBlocking := by
  rcases kernel_cases returned with same | ⟨nClientSocket, connection, accepted, changed⟩ |
    ⟨socket, after, found, blocks, changed⟩ | ⟨closed, -⟩
  · rw [same]
  · have other : fd ≠ nClientSocket := fun same => unaccepted (by rw [same, accepted])
    rw [changed, Function.update_of_ne other]
  · rw [changed]
    by_cases same : fd = host.server.nFdIndex
    · rw [same, Function.update_self, found, Option.map_some, Option.map_some, blocks]
    · rw [Function.update_of_ne same]
  · rcases closed with closed | cleaned
    · exact absurd closed unclosed.1
    · exact absurd cleaned unclosed.2

/-- Whether an accepted socket blocks. -/
theorem kernel_accepted {nClientSocket : Nat}
    (returned : host.kernel inherits (.accept (.connection nClientSocket)) = some served) :
    (served.sockets nClientSocket).map CommandSocket.nonBlocking = some inherits := by
  simp only [kernel] at returned
  split at returned
  · cases returned
  · obtain rfl := Option.some.inj returned
    simp only [Function.update_self, Option.map_some]

/-- A client that acts takes nothing back: a socket with something to return keeps it. -/
theorem waiting_change {act : Connection → Connection} {place : Place} {fd : Nat}
    (grows : ∀ connection, connection.ready → (act connection).ready) (waits : host.waiting fd) :
    (host.change act place).waiting fd := by
  cases place with
  | queued position => exact waits
  | accepted other =>
    by_cases same : fd = other
    · subst same
      obtain ⟨socket, found, ready⟩ := (Option.any_eq_true _ _).mp waits
      simp only [waiting, change, Function.update_self, found, Option.map_some, Option.any_some]
      exact grows socket.connection ready
    · have untouched : (host.change act (.accepted other)).sockets fd = host.sockets fd :=
        Function.update_of_ne same _ _
      rw [waiting, untouched]
      exact waits

/-- Bytes that are sent do not take anything back. -/
theorem ready_send {connection : Connection} (sent : List UInt8) (ready : connection.ready) :
    (connection.send sent).ready := by
  unfold Connection.send
  split
  · rename_i stays
    have more : connection.pending ≠ [] := by simpa [Connection.ready, stays] using ready
    simp [Connection.ready, more]
  · exact ready

/-- A connection that is closed has its end to report. -/
theorem ready_shut (connection : Connection) : connection.shut.ready := by
  simp [Connection.ready, Connection.shut]

/-! ## Ready descriptors -/

/-- What is ready stays so until the server turns to it, and accepted sockets block as the kernel
has it. -/
structure Attended (inherits : Bool) (host : CommandHost) : Prop where
  /-- The descriptors are booked. -/
  tracked : host.server.Tracked
  /-- The descriptors to wait for are connections. -/
  connected : host.server.stage.looping → ∀ fd ∈ host.server.tMasterFdSet,
    fd ≠ host.server.nServerSocket →
    (host.sockets fd).map CommandSocket.nonBlocking = some inherits
  /-- The clients that come later in the loop have something to return. -/
  later : host.server.stage.scans → ∀ fd ∈ host.server.tWorkingFdSet, host.server.nFdIndex < fd →
    fd ≠ host.server.nServerSocket → host.waiting fd
  /-- So does the one at the head of the loop. -/
  current : host.server.stage = .scanning → host.server.nFdIndex ∈ host.server.tWorkingFdSet →
    host.server.nFdIndex ≠ host.server.nServerSocket → host.waiting host.server.nFdIndex
  /-- So does the one that is received from, where sockets block. -/
  receiving : host.server.stage = .receiving → inherits = true ∨ host.waiting host.server.nFdIndex

/-- Without clients nothing is ready. -/
theorem start_attended (nServerSocket : Nat) : (start nServerSocket).Attended inherits where
  tracked := CommandServer.start_tracked nServerSocket
  connected _ fd member apart := absurd (Finset.mem_singleton.mp member) apart
  later scans := by cases scans
  current scanning := by cases scanning
  receiving receiving := by cases receiving

/-- The client that is served is a connection. -/
theorem Attended.accepted (attended : host.Attended inherits) (serves : host.server.stage.serves) :
    (host.sockets host.server.nFdIndex).map CommandSocket.nonBlocking = some inherits := by
  have inside := CommandStage.looping_of_scans (CommandStage.scans_of_serves serves)
  obtain ⟨member, apart⟩ := attended.tracked.client serves
  exact attended.connected inside host.server.nFdIndex member apart

/-- The server is not stuck as long as what it receives from has something to return. -/
theorem Attended.unblocked (attended : host.Attended inherits) : ¬ host.Blocked := by
  rintro ⟨receiving, socket, found, blocking, nothing, stays⟩
  have serves : host.server.stage.serves := by
    rw [receiving]
    rfl
  have blocks := attended.accepted serves
  rw [found, Option.map_some, blocking] at blocks
  rcases attended.receiving receiving with inherited | waits
  · rw [inherited] at blocks
    cases blocks
  · rw [waiting, found, Option.any_some, Connection.ready, nothing, stays] at waits
    cases waits

/-- A client that acts leaves what is ready so. -/
theorem Attended.change {act : Connection → Connection} (attended : host.Attended inherits)
    (grows : ∀ connection, connection.ready → (act connection).ready) (place : Place) :
    (host.change act place).Attended inherits := by
  have same : (host.change act place).server = host.server := by cases place <;> rfl
  have blocks : ∀ fd, ((host.change act place).sockets fd).map CommandSocket.nonBlocking =
      (host.sockets fd).map CommandSocket.nonBlocking := by
    intro fd
    cases place with
    | queued position => rfl
    | accepted other =>
      by_cases same : fd = other
      · subst same
        simp only [CommandHost.change, Function.update_self, Option.map_map]
        rfl
      · simp only [CommandHost.change, Function.update_of_ne same]
  constructor
  · rw [same]
    exact attended.tracked
  · intro inside fd member apart
    rw [same] at inside member apart
    rw [blocks]
    exact attended.connected inside fd member apart
  · intro scans fd member beyond apart
    rw [same] at scans member beyond apart
    exact waiting_change grows (attended.later scans fd member beyond apart)
  · intro scanning member apart
    rw [same] at scanning member apart ⊢
    exact waiting_change grows (attended.current scanning member apart)
  · intro receiving
    rw [same] at receiving ⊢
    exact (attended.receiving receiving).imp_right (waiting_change grows)

section Server

variable {event : CommandEvent} {server : CommandServer}

/-- The clients that come later in the loop keep what they have to return. -/
theorem Attended.later_kept (attended : host.Attended inherits)
    (returned : host.kernel inherits event = some served)
    (stepped : host.server.step event = some server) (scans : host.server.stage.scans) :
    ∀ fd ∈ host.server.tWorkingFdSet, host.server.nFdIndex < fd →
      fd ≠ host.server.nServerSocket → served.waiting fd := by
  intro fd member beyond apart
  have contained := attended.tracked.ahead scans fd member (Nat.le_of_lt beyond)
  have members := attended.tracked.members (CommandStage.looping_of_scans scans)
  have untouched := kernel_sockets returned (Nat.ne_of_gt beyond)
    (CommandServer.step_unaccepted stepped ((members fd).mp contained))
  rw [waiting, untouched]
  exact attended.later scans fd member beyond apart

/-- The descriptors to wait for stay connections. -/
theorem Attended.connected_kept (attended : host.Attended inherits)
    (returned : host.kernel inherits event = some served)
    (stepped : host.server.step event = some server) (inside : host.server.stage.looping)
    (unclosed : event ≠ .close ∧ event ≠ .cleanUp) :
    ∀ fd ∈ host.server.tMasterFdSet, fd ≠ host.server.nServerSocket →
      (served.sockets fd).map CommandSocket.nonBlocking = some inherits := by
  intro fd member apart
  have still_open := (attended.tracked.members inside fd).mp member
  rw [kernel_nonBlocking returned unclosed (CommandServer.step_unaccepted stepped still_open)]
  exact attended.connected inside fd member apart

/-- A step of the server leaves what is ready so, where it comes back to `recv` only for a
client that has more. -/
theorem Attended.serve (attended : host.Attended inherits)
    (more : inherits = true ∨ host.MoreToReceive (.server event))
    (returned : host.kernel inherits event = some served)
    (stepped : host.server.step event = some server) :
    ({ served with server := server } : CommandHost).Attended inherits := by
  have tracked := CommandServer.step_tracked attended.tracked stepped
  have later := attended.later_kept returned stepped
  have connected := attended.connected_kept returned stepped
  cases CommandServer.step_move stepped with
  | signal =>
    obtain rfl := Option.some.inj returned
    exact { attended with tracked := tracked }
  | @select ready selecting awaited =>
    have inside : host.server.stage.looping := by
      rw [selecting]
      rfl
    have same := connected inside (by simp)
    simp only [kernel, Option.ite_none_right_eq_some, Option.some.injEq] at returned
    obtain ⟨all_readable, rfl⟩ := returned
    have waits : ∀ fd ∈ ready, fd ≠ host.server.nServerSocket → host.waiting fd := by
      intro fd member apart
      have readable := all_readable fd member
      rwa [CommandHost.readable, if_neg apart] at readable
    exact {
      tracked := tracked
      connected := fun _ => same
      later := fun _ fd member _ => waits fd member
      current := fun _ => waits 0
      receiving := fun receiving => by cases receiving }
  | leave inside way =>
    exact {
      tracked := tracked
      connected := fun inside => by cases inside
      later := fun scans => by cases scans
      current := fun scanning => by cases scanning
      receiving := fun receiving => by cases receiving }
  | @idle event stage inside way =>
    have calm : stage = .checking ∨ stage = .selecting := way.imp And.right And.right
    have unclosed : event ≠ .close ∧ event ≠ .cleanUp := by
      rcases way with ⟨rfl, -⟩ | ⟨rfl, -⟩ <;> simp
    exact {
      tracked := tracked
      connected := fun _ => connected inside unclosed
      later := fun scans => by rcases calm with rfl | rfl <;> cases scans
      current := fun scanning => by rcases calm with rfl | rfl <;> cases scanning
      receiving := fun receiving => by rcases calm with rfl | rfl <;> cases receiving }
  | @turn stage scanning ready socket =>
    have scans : host.server.stage.scans := by
      rw [scanning]
      rfl
    obtain rfl := Option.some.inj returned
    exact {
      tracked := tracked
      connected := fun _ => attended.connected (CommandStage.looping_of_scans scans)
      later := fun _ => attended.later scans
      current := fun head => by
        obtain rfl : stage = .scanning := head
        rcases socket with ⟨-, accepting⟩ | ⟨-, receiving⟩
        · cases accepting
        · cases receiving
      receiving := fun receiving => by
        obtain rfl : stage = .receiving := receiving
        rcases socket with ⟨-, accepting⟩ | ⟨apart, -⟩
        · cases accepting
        · exact .inr (attended.current scanning ready apart) }
  | advance scans way =>
    have unclosed : event ≠ .close ∧ event ≠ .cleanUp := by
      rcases way with rfl | rfl | rfl | rfl <;> simp
    exact {
      tracked := tracked
      connected := fun _ => connected (CommandStage.looping_of_scans scans) unclosed
      later := fun _ fd member beyond => later scans fd member (Nat.lt_of_succ_lt beyond)
      current := fun _ member => later scans _ member (Nat.lt_succ_self _)
      receiving := fun receiving => by cases receiving }
  | @accept nClientSocket accepting unopened =>
    have scans : host.server.stage.scans := by
      rw [accepting]
      rfl
    have inside := CommandStage.looping_of_scans scans
    exact {
      tracked := tracked
      connected := fun _ fd member apart => by
        rcases Finset.mem_insert.mp member with rfl | before
        · have accepted := kernel_accepted returned
          exact accepted
        · exact connected inside (by simp) fd before apart
      later := fun _ => later scans
      current := fun scanning => by cases accepting.symm.trans scanning
      receiving := fun receiving => by cases accepting.symm.trans receiving }
  | @serve event stage serves way =>
    have scans := CommandStage.scans_of_serves serves
    have unclosed : event ≠ .close ∧ event ≠ .cleanUp := by
      rcases way with ⟨-, rfl, -, -⟩ | ⟨-, rfl, -⟩ | ⟨rfl | rfl, -⟩ <;> simp
    exact {
      tracked := tracked
      connected := fun _ => connected (CommandStage.looping_of_scans scans) unclosed
      later := fun _ => later scans
      current := fun scanning => by
        obtain rfl : stage = .scanning := scanning
        rcases way with ⟨-, -, -, wrong⟩ | ⟨-, -, wrong⟩ | ⟨-, wrong⟩ <;> cases wrong
      receiving := fun receiving => by
        obtain rfl : stage = .receiving := receiving
        rcases way with ⟨-, -, -, wrong⟩ | ⟨-, rfl, -⟩ | ⟨-, wrong⟩
        · cases wrong
        · obtain rfl := Option.some.inj returned
          exact more.imp_right fun waits => waits rfl
        · cases wrong }
  | close closing =>
    have scans : host.server.stage.scans := by
      rw [closing]
      rfl
    obtain ⟨nMaxSocketFd, closed⟩ := CommandServer.closeClient_eq tracked.lowered
    rw [closed] at tracked ⊢
    exact {
      tracked := tracked
      connected := fun _ fd member apart => by
        obtain ⟨other, before⟩ := Finset.mem_erase.mp member
        rw [kernel_sockets returned other (by simp [CommandEvent.accepted])]
        exact attended.connected (CommandStage.looping_of_scans scans) fd before apart
      later := fun _ fd member beyond => later scans fd member (Nat.lt_of_succ_lt beyond)
      current := fun _ member => later scans _ member (Nat.lt_succ_self _)
      receiving := fun receiving => by cases receiving }
  | clean cleaning within =>
    have stage : ∀ other, other ≠ CommandStage.cleaning → host.server.stage ≠ other := by
      intro other differs same
      exact differs (same.symm.trans cleaning)
    have looping : host.server.stage.looping = false := by rw [cleaning]; rfl
    have scans : host.server.stage.scans = false := by rw [cleaning]; rfl
    exact {
      tracked := tracked
      connected := fun inside => by simp [looping] at inside
      later := fun scanning => by simp [scans] at scanning
      current := fun scanning => absurd scanning (stage _ (by simp))
      receiving := fun receiving => absurd receiving (stage _ (by simp)) }
  | finish cleaning behind =>
    exact {
      tracked := tracked
      connected := fun inside => by cases inside
      later := fun scans => by cases scans
      current := fun scanning => by cases scanning
      receiving := fun receiving => by cases receiving }

end Server

/-- A step leaves what is ready so, where the server comes back to `recv` only for a client
that has more, or for a socket that does not block. -/
theorem step_attended {event : HostEvent} (attended : host.Attended inherits)
    (more : inherits = true ∨ host.MoreToReceive event)
    (stepped : host.step inherits event = some next) : next.Attended inherits := by
  cases event with
  | connect =>
    obtain rfl := Option.some.inj stepped
    exact { attended with }
  | send place sent =>
    obtain rfl := Option.some.inj stepped
    exact attended.change (fun _ ready => ready_send sent ready) place
  | shut place =>
    obtain rfl := Option.some.inj stepped
    exact attended.change (fun connection _ => ready_shut connection) place
  | server event =>
    obtain ⟨served, returned, rest⟩ := Option.bind_eq_some_iff.mp stepped
    obtain ⟨server, advanced, rfl⟩ := Option.map_eq_some_iff.mp rest
    exact attended.serve more returned advanced

/-- A server that comes back to `recv` too early is stuck. -/
theorem step_blocked {event : HostEvent} (attended : host.Attended false)
    (nothing : ¬ host.MoreToReceive event) (stepped : host.step false event = some next) :
    next.Blocked := by
  obtain ⟨rfl, waits⟩ := Classical.not_imp.mp nothing
  obtain ⟨server, executed, rfl⟩ := Option.map_eq_some_iff.mp stepped
  simp only [CommandServer.step, Option.ite_none_right_eq_some, Option.some.injEq] at executed
  obtain ⟨executing, rfl⟩ := executed
  have serves : host.server.stage.serves := by
    rw [executing]
    rfl
  have blocks := attended.accepted serves
  obtain ⟨socket, found, blocking⟩ := Option.map_eq_some_iff.mp blocks
  refine ⟨rfl, socket, found, blocking, ?_⟩
  simpa [waiting, found, Connection.ready] using waits

/-- When the command server is never stuck with an idle client: where accepted sockets do
not inherit the state of the listening socket, in every run of any clients, exactly when each
time it comes back to `recv` the client has sent more or closed its end. -/
theorem never_blocked_iff (nServerSocket : Nat) (events : List HostEvent) :
    EachState (step false) (fun host => ¬ host.Blocked) (start nServerSocket) events ↔
      EachStep (step false) MoreToReceive (start nServerSocket) events :=
  eachState_iff_eachStep
    (fun (_ : CommandHost) (attended : Attended false _) => attended.unblocked)
    (fun _ _ _ attended _ more stepped => step_attended attended (.inr more) stepped)
    (fun _ _ _ attended _ nothing stepped unblocked =>
      unblocked (step_blocked attended nothing stepped))
    (start_attended nServerSocket)
    (eachStep_of_forall (fun _ _ => trivial) (start nServerSocket) events)

/-- Were the state of the listening socket inherited, the server would never be stuck. -/
theorem never_blocked_inheriting (nServerSocket : Nat) (events : List HostEvent) :
    EachState (step true) (fun host => ¬ host.Blocked) (start nServerSocket) events :=
  eachState_of_invariant (fun (_ : CommandHost) (attended : Attended true _) => attended.unblocked)
    (fun _ _ _ attended _ stepped => step_attended attended (.inl rfl) stepped)
    (start_attended nServerSocket)
    (eachStep_of_forall (fun _ _ => trivial) (start nServerSocket) events)

/-- A client that sends one command and keeps its connection open keeps the server from others. -/
theorem server_blocked :
    ¬ ∀ (nServerSocket : Nat) (events : List HostEvent),
      EachState (step false) (fun host => ¬ host.Blocked) (start nServerSocket) events := by
  intro always
  let accepting : List HostEvent := .connect :: .server (.select (some {3})) ::
    (List.replicate 4 (.server .scan) ++ [.server (.accept (.connection 5)),
      .server (.accept .wouldBlock), .server .scan, .server .check])
  let sent := ascii "volume:80,EMPTY_PARA_1:0,EMPTY_PARA_2:0,EMPTY_PARA_3:0\n"
  let receiving : List HostEvent := .send (.accepted 5) sent :: .server (.select (some {5})) ::
    (List.replicate 6 (.server .scan) ++ [.server (.recv (.data sent)), .connect,
      .server .execute])
  let socket : CommandSocket := ⟨⟨[], true⟩, false⟩
  have stuck : (run (step false) (start 3) (accepting ++ receiving)).map (fun host =>
      (host.server.stage, host.server.nFdIndex, host.sockets 5)) =
        some (.receiving, 5, some socket) := by decide
  obtain ⟨final, reached, fields⟩ := Option.map_eq_some_iff.mp stuck
  obtain ⟨stage, rest⟩ := Prod.mk.inj fields
  obtain ⟨index, found⟩ := Prod.mk.inj rest
  apply eachState_iff.mp (always 3 (accepting ++ receiving)) (accepting ++ receiving) [] final
    (List.append_nil _).symm reached
  refine ⟨stage, socket, ?_, rfl, rfl, rfl⟩
  rw [index]
  exact found

end CommandHost

end MidiDaemon
