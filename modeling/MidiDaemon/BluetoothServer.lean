import Mathlib.Data.Finset.Insert
import MidiDaemon.Library.Entries
import MidiDaemon.Library.Machine
import MidiDaemon.Reassembly
import MidiDaemon.SlotTable

/-!
# The Bluetooth server

`main` accepts connections, registers each in the slot table and starts a thread for it. The
thread copies its socket number from the variable `nSporeSocket` of `main`, sets up its
sequencer, receives frames, and at the end closes the socket and sets its slot free. The
model interleaves the steps of `main` with those of any number of threads. The kernel decides
what `accept` and `recv` return: a number returned by `accept` is not open at that moment.

Each thread carries what only the model knows: the number `accept` returned for its
connection, the slot `main` stored it in, and whether `recv` has reported the end of the
connection.
-/

namespace MidiDaemon

open Machine

/-- The next step of a client thread. -/
inductive BtStage where
  /-- The slot is stored and the thread not yet created. -/
  | registered
  /-- `nSporeSocket = *((int32_t*)pSporeSocket)`. -/
  | created
  /-- `prepareSeqInforForThread`. -/
  | preparing
  /-- The test of `__io_canceled` at the head of the loop. -/
  | looping
  /-- `recv`. -/
  | receiving
  /-- `close(nSporeSocket)`. -/
  | closing
  /-- `setSocketSlotFree`. -/
  | freeing
  /-- The slot is free; what is left concerns the sequencer alone. -/
  | released
deriving DecidableEq, Repr

/-- The thread knows a socket number and has not closed it. -/
def BtStage.serving : BtStage → Bool
  | .preparing | .looping | .receiving | .closing => true
  | _ => false

/-- The thread is on its exit path. -/
def BtStage.exiting : BtStage → Bool
  | .closing | .freeing => true
  | _ => false

/-- What `recv` returns: an error, or bytes; no byte is the result `0`. -/
inductive RecvResult where
  /-- A negative result. -/
  | failed
  /-- As many bytes as the result says. -/
  | data (received : List UInt8)
deriving DecidableEq, Repr

/-- A registered connection and its thread. -/
structure BtClient where
  /-- The number `accept` returned for the connection. -/
  accepted : Int
  /-- The slot it is stored in. -/
  slot : Nat
  /-- The next step of the thread. -/
  stage : BtStage
  /-- The thread's variable `nSporeSocket`. -/
  nSporeSocket : Int
  /-- The variables of the receive loop. -/
  reader : BtReader
  /-- `recv` has reported the end of the connection, as `0` or as an error. -/
  ended : Bool
deriving DecidableEq, Repr

/-- The steps of a client thread, with what the calls return. -/
inductive ClientEvent where
  /-- The socket number is copied from the variable of `main`. -/
  | readSocket
  /-- `prepareSeqInforForThread` succeeds or fails. -/
  | prepare (done : Bool)
  /-- `__io_canceled` is tested. -/
  | check
  /-- `recv` returns, and the iteration goes on to its end. -/
  | recv (result : RecvResult)
  /-- `close(nSporeSocket)`. -/
  | close
  /-- `setSocketSlotFree`. -/
  | setSocketSlotFree
deriving DecidableEq, Repr

/-- `BT_clientService`, one step of its own variables; `nShared` is the variable of `main`. -/
def BtClient.act (nShared : Int) (ioCanceled : Bool) (client : BtClient) :
    ClientEvent → Option BtClient
  | .readSocket =>
    if client.stage = .created then
      some { client with nSporeSocket := nShared, stage := .preparing }
    else none
  | .prepare done =>
    if client.stage = .preparing then
      if done then some { client with reader := BtReader.start, stage := .looping }
      else some { client with stage := .closing }
    else none
  | .check =>
    if client.stage = .looping then
      some { client with stage := if ioCanceled then .closing else .receiving }
    else none
  | .recv result =>
    if client.stage = .receiving then
      match result with
      | .failed => some { client with ended := true, stage := .closing }
      -- The result `0` only prints a message.
      | .data [] => some { client with ended := true, stage := .looping }
      | .data received =>
        if client.reader.Accepts received then
          some { client with reader := (client.reader.receive received).1, stage := .looping }
        else none
    else none
  | .close => if client.stage = .closing then some { client with stage := .freeing } else none
  | .setSocketSlotFree =>
    if client.stage = .freeing then some { client with stage := .released } else none

/-- The next step of the accept loop in `main`. -/
inductive MainStage where
  /-- The test of `__io_canceled` at the head of the loop. -/
  | looping
  /-- `accept`. -/
  | accepting
  /-- `getFreeClient`. -/
  | searching
  /-- `close(nSporeSocket)` without a free slot. -/
  | rejecting
  /-- `nSocketList[nFreeSocketSlot] = nSporeSocket`. -/
  | storing (nFreeSocketSlot : Nat)
  /-- `pthread_create` for a client. -/
  | creating (client : Nat)
  /-- `usleep`. -/
  | sleeping
  /-- The process has ended. -/
  | exited
deriving DecidableEq, Repr

/-- The steps of `main`, with what the calls return. -/
inductive MainEvent where
  /-- `__io_canceled` is tested. -/
  | check
  /-- `accept` returns a number, or `-1`. -/
  | accept (nSporeSocket : Int)
  /-- `getFreeClient`. -/
  | getFreeClient
  /-- The socket is closed. -/
  | close
  /-- The socket is stored. -/
  | store
  /-- `pthread_create` succeeds or fails. -/
  | create (done : Bool)
  /-- `usleep`. -/
  | sleep
deriving DecidableEq, Repr

/-- The whole server. -/
structure BtServer where
  /-- The next step of `main`. -/
  main : MainStage
  /-- The variable `nSporeSocket` of `main`. -/
  nSporeSocket : Int
  /-- The slot table. -/
  nSocketList : List Int
  /-- `__io_canceled`. -/
  ioCanceled : Bool
  /-- The registered connections, in the order of their registration. -/
  clients : List BtClient
  /-- The descriptor numbers that are open. -/
  openFds : Finset Int
deriving DecidableEq

/-- A step of the server. -/
inductive BtEvent where
  /-- `SIGINT`, from outside or from the command thread. -/
  | signal
  /-- A step of `main`. -/
  | main (event : MainEvent)
  /-- A step of the thread of a client. -/
  | client (index : Nat) (event : ClientEvent)
deriving DecidableEq, Repr

namespace BtServer

/-- `main` in front of its loop: the variable not yet set, the table empty, and some descriptors
open. -/
def start (nSporeSocket : Int) (openFds : Finset Int) : BtServer where
  main := .looping
  nSporeSocket := nSporeSocket
  nSocketList := List.replicate maxClientSocketCnt emptySocket
  ioCanceled := false
  clients := []
  openFds := openFds

/-- A step of the accept loop. -/
def mainStep (server : BtServer) : MainEvent → Option BtServer
  | .check =>
    if server.main = .looping then
      some { server with main := if server.ioCanceled then .exited else .accepting }
    else none
  | .accept nSporeSocket =>
    if server.main = .accepting then
      if nSporeSocket = -1 then
        some { server with main := .searching, nSporeSocket := nSporeSocket }
      else if 0 ≤ nSporeSocket ∧ nSporeSocket ∉ server.openFds then
        some { server with
          main := .searching
          nSporeSocket := nSporeSocket
          openFds := insert nSporeSocket server.openFds }
      else none
    else none
  | .getFreeClient =>
    if server.main = .searching then
      let nFreeSocketSlot := MidiDaemon.getFreeClient server.nSocketList maxClientSocketCnt
      some { server with
        main := if nFreeSocketSlot = -1 then .rejecting else .storing nFreeSocketSlot.toNat }
    else none
  | .close =>
    if server.main = .rejecting then
      some { server with
        main := .looping
        openFds := server.openFds.erase server.nSporeSocket }
    else none
  | .store =>
    match server.main with
    | .storing nFreeSocketSlot =>
      some { server with
        main := .creating server.clients.length
        nSocketList := server.nSocketList.set nFreeSocketSlot server.nSporeSocket
        clients := server.clients ++
          [⟨server.nSporeSocket, nFreeSocketSlot, .registered, 0, BtReader.start, false⟩] }
    | _ => none
  | .create done =>
    match server.main with
    | .creating index =>
      if done then
        some { server with
          main := .sleeping
          clients := server.clients.modify index fun client => { client with stage := .created } }
      -- `erroExitHandler` ends the process.
      else some { server with main := .exited }
    | _ => none
  | .sleep => if server.main = .sleeping then some { server with main := .looping } else none

/-- A step of the thread of a client. `close` and `setSocketSlotFree` act on what is shared, by
the number the thread knows. -/
def clientStep (server : BtServer) (index : Nat) (event : ClientEvent) : Option BtServer :=
  server.clients[index]?.bind fun client =>
    (client.act server.nSporeSocket server.ioCanceled event).map fun after =>
      let server := { server with clients := server.clients.set index after }
      match event with
      | .close => { server with openFds := server.openFds.erase client.nSporeSocket }
      | .setSocketSlotFree =>
        { server with
          nSocketList := MidiDaemon.setSocketSlotFree server.nSocketList maxClientSocketCnt
            client.nSporeSocket }
      | _ => server

/-- One step of the server; nothing runs once the process has ended. -/
def step (server : BtServer) (event : BtEvent) : Option BtServer :=
  if server.main = .exited then none
  else
    match event with
    | .signal => some { server with ioCanceled := true }
    | .main event => server.mainStep event
    | .client index event => server.clientStep index event

/-- The steps of `main` that register a connection and create its thread. -/
def registering (nSporeSocket : Int) : List BtEvent :=
  [.main .check, .main (.accept nSporeSocket), .main .getFreeClient, .main .store,
    .main (.create true)]

/-- The steps of a thread from its first one until it has closed a connection that broke. -/
def closingThread (index : Nat) : List BtEvent :=
  [.client index .readSocket, .client index (.prepare true), .client index .check,
    .client index (.recv .failed), .client index .close]

end BtServer

/-! ## Lists of clients -/

/-- A client whose entry is replaced by another's keeps its own. -/
theorem client_kept {clients : List BtClient} {index other : Nat} {client after found : BtClient}
    (here : clients[index]? = some client) (lookup : clients[other]? = some found)
    (differ : client.stage ≠ found.stage) : (clients.set index after)[other]? = some found := by
  have apart : index ≠ other := by
    intro same
    rw [same, lookup] at here
    exact differ (by rw [Option.some.inj here])
  rw [List.getElem?_set_ne apart]
  exact lookup

/-- What a view of single clients sees of them all. -/
def viewed {β : Type*} (view : BtClient → Option β) (clients : List BtClient) (index : Nat) :
    Option β :=
  clients[index]?.bind view

section Views

variable {β : Type*} {view : BtClient → Option β} {clients : List BtClient} {index : Nat}
  {client after : BtClient}

/-- Replacing a client changes what is seen of it alone. -/
theorem viewed_set (found : clients[index]? = some client) :
    viewed view (clients.set index after) =
      Function.update (viewed view clients) index (view after) := by
  obtain ⟨inside, -⟩ := List.getElem?_eq_some_iff.mp found
  funext other
  by_cases same : other = index
  · subst same
    rw [Function.update_self, viewed, List.getElem?_set_self inside, Option.bind_some]
  · rw [Function.update_of_ne same, viewed, List.getElem?_set_ne (Ne.symm same), viewed]

/-- Replacing a client by one that looks the same changes nothing. -/
theorem viewed_set_same (found : clients[index]? = some client) (same : view after = view client) :
    viewed view (clients.set index after) = viewed view clients := by
  have already : viewed view clients index = view after := by
    rw [viewed, found, Option.bind_some, same]
  rw [viewed_set found, ← already, Function.update_eq_self]

/-- Changing a client to one that looks the same changes nothing. -/
theorem viewed_modify_same {change : BtClient → BtClient} (found : clients[index]? = some client)
    (same : view (change client) = view client) :
    viewed view (clients.modify index change) = viewed view clients := by
  have replaced : clients.modify index change = clients.set index (change client) := by
    rw [List.modify_eq_set_getElem?, found]
    rfl
  rw [replaced]
  exact viewed_set_same found same

/-- A client behind the others is seen behind them. -/
theorem viewed_append :
    viewed view (clients ++ [client]) =
      Function.update (viewed view clients) clients.length (view client) := by
  funext other
  rcases Nat.lt_trichotomy other clients.length with below | same | above
  · rw [Function.update_of_ne (Nat.ne_of_lt below), viewed, List.getElem?_append_left below, viewed]
  · subst same
    rw [Function.update_self, viewed, List.getElem?_concat_length]
    rfl
  · have outside : clients.length + 1 ≤ other := above
    rw [Function.update_of_ne (Nat.ne_of_gt above), viewed, viewed,
      List.getElem?_eq_none (by simpa using outside), List.getElem?_eq_none (by omega)]

/-- There is nothing to see behind the last client. -/
theorem viewed_length : viewed view clients clients.length = none := by
  rw [viewed, List.getElem?_eq_none (Nat.le_refl _)]
  rfl

end Views

/-! ## Moves -/

/-- `main` holds a number that `accept` has just returned, and has not stored it. -/
def MainStage.holding : MainStage → Bool
  | .searching | .rejecting | .storing _ => true
  | _ => false

namespace BtServer

/-- What a step can do, all cases of it. -/
inductive Move (server : BtServer) : BtEvent → BtServer → Prop
  /-- The signal is noted. -/
  | signal : Move server .signal { server with ioCanceled := true }
  /-- `main` goes on without a socket number in hand, or ends the process. -/
  | idle {event : MainEvent} {stage : MainStage} (before : server.main.holding = false)
      (after : stage.holding = false) (uncreating : ∀ index, stage ≠ .creating index)
      (failed : ∀ index, server.main = .creating index → stage = .exited)
      (plain : event = .check ∨ event = .create false ∨ event = .sleep) :
      Move server (.main event) { server with main := stage }
  /-- `accept` fails. -/
  | refuse (waiting : server.main = .accepting) :
      Move server (.main (.accept (-1))) { server with main := .searching, nSporeSocket := -1 }
  /-- `accept` returns a connection. -/
  | accept {nSporeSocket : Int} (waiting : server.main = .accepting) (number : 0 ≤ nSporeSocket)
      (unopened : nSporeSocket ∉ server.openFds) :
      Move server (.main (.accept nSporeSocket)) { server with
        main := .searching
        nSporeSocket := nSporeSocket
        openFds := insert nSporeSocket server.openFds }
  /-- The search for a slot has a result. -/
  | search {stage : MainStage} (searching : server.main = .searching)
      (outcome : stage = .rejecting ∨ ∃ nFreeSocketSlot, stage = .storing nFreeSocketSlot ∧
        nFreeSocketSlot < maxClientSocketCnt ∧
        server.nSocketList[nFreeSocketSlot]? = some emptySocket) :
      Move server (.main .getFreeClient) { server with main := stage }
  /-- A connection without a slot is closed. -/
  | reject (rejecting : server.main = .rejecting) :
      Move server (.main .close) { server with
        main := .looping
        openFds := server.openFds.erase server.nSporeSocket }
  /-- A connection is stored. -/
  | store {nFreeSocketSlot : Nat} (storing : server.main = .storing nFreeSocketSlot) :
      Move server (.main .store) { server with
        main := .creating server.clients.length
        nSocketList := server.nSocketList.set nFreeSocketSlot server.nSporeSocket
        clients := server.clients ++
          [⟨server.nSporeSocket, nFreeSocketSlot, .registered, 0, BtReader.start, false⟩] }
  /-- A thread is created. -/
  | create {index : Nat} (creating : server.main = .creating index) :
      Move server (.main (.create true)) { server with
        main := .sleeping
        clients := server.clients.modify index fun client => { client with stage := .created } }
  /-- A thread copies its socket number. -/
  | read {index : Nat} {client : BtClient} (found : server.clients[index]? = some client)
      (created : client.stage = .created) :
      Move server (.client index .readSocket) { server with
        clients := server.clients.set index
          { client with nSporeSocket := server.nSporeSocket, stage := .preparing } }
  /-- A thread serves its connection. -/
  | serve {index : Nat} {event : ClientEvent} {client after : BtClient}
      (found : server.clients[index]? = some client)
      (acted : client.act server.nSporeSocket server.ioCanceled event = some after)
      (plain : event ≠ .setSocketSlotFree) (before : client.stage.serving)
      (onward : after.stage.serving)
      (same : after.accepted = client.accepted ∧ after.slot = client.slot ∧
        after.nSporeSocket = client.nSporeSocket) :
      Move server (.client index event) { server with clients := server.clients.set index after }
  /-- A thread closes the number it knows. -/
  | close {index : Nat} {client : BtClient} (found : server.clients[index]? = some client)
      (closing : client.stage = .closing) :
      Move server (.client index .close) { server with
        clients := server.clients.set index { client with stage := .freeing }
        openFds := server.openFds.erase client.nSporeSocket }
  /-- A thread sets free the slots that hold the number it knows. -/
  | free {index : Nat} {client : BtClient} (found : server.clients[index]? = some client)
      (freeing : client.stage = .freeing) :
      Move server (.client index .setSocketSlotFree) { server with
        clients := server.clients.set index { client with stage := .released }
        nSocketList := MidiDaemon.setSocketSlotFree server.nSocketList maxClientSocketCnt
          client.nSporeSocket }

variable {server next : BtServer}

/-- A step of `main` is one of the moves. -/
theorem mainStep_move {event : MainEvent} (stepped : server.mainStep event = some next) :
    Move server (.main event) next := by
  cases event with
  | check =>
    simp only [mainStep, Option.ite_none_right_eq_some, Option.some.injEq] at stepped
    obtain ⟨looping, rfl⟩ := stepped
    refine .idle ?_ ?_ ?_ ?_ (.inl rfl)
    · rw [looping]
      rfl
    · split <;> rfl
    · intro index
      split <;> simp
    · simp [looping]
  | accept nSporeSocket =>
    simp only [mainStep, Option.ite_none_right_eq_some] at stepped
    obtain ⟨waiting, onward⟩ := stepped
    split at onward
    · rename_i refused
      obtain rfl := Option.some.inj onward
      rw [refused]
      exact .refuse waiting
    · simp only [Option.ite_none_right_eq_some, Option.some.injEq] at onward
      obtain ⟨⟨number, unopened⟩, rfl⟩ := onward
      exact .accept waiting number unopened
  | getFreeClient =>
    simp only [mainStep, Option.ite_none_right_eq_some, Option.some.injEq] at stepped
    obtain ⟨searching, rfl⟩ := stepped
    refine .search searching ?_
    split
    · exact .inl rfl
    · rename_i found
      exact .inr ⟨_, rfl, getFreeClient_free found⟩
  | close =>
    simp only [mainStep, Option.ite_none_right_eq_some, Option.some.injEq] at stepped
    obtain ⟨rejecting, rfl⟩ := stepped
    exact .reject rejecting
  | store =>
    simp only [mainStep] at stepped
    split at stepped
    · rename_i nFreeSocketSlot storing
      obtain rfl := Option.some.inj stepped
      exact .store storing
    · cases stepped
  | create done =>
    simp only [mainStep] at stepped
    split at stepped
    · rename_i index creating
      cases done with
      | true =>
        obtain rfl := Option.some.inj stepped
        exact .create creating
      | false =>
        obtain rfl := Option.some.inj stepped
        refine .idle ?_ rfl (by simp) (fun _ _ => rfl) (.inr (.inl rfl))
        rw [creating]
        rfl
    · cases stepped
  | sleep =>
    simp only [mainStep, Option.ite_none_right_eq_some, Option.some.injEq] at stepped
    obtain ⟨sleeping, rfl⟩ := stepped
    refine .idle ?_ rfl (by simp) (by simp [sleeping]) (.inr (.inr rfl))
    rw [sleeping]
    rfl

/-- A step of a thread is one of the moves. -/
theorem clientStep_move {index : Nat} {event : ClientEvent}
    (stepped : server.clientStep index event = some next) :
    Move server (.client index event) next := by
  obtain ⟨client, found, rest⟩ := Option.bind_eq_some_iff.mp stepped
  obtain ⟨after, acted, rfl⟩ := Option.map_eq_some_iff.mp rest
  have whole := acted
  cases event with
  | readSocket =>
    simp only [BtClient.act, Option.ite_none_right_eq_some, Option.some.injEq] at acted
    obtain ⟨created, rfl⟩ := acted
    exact .read found created
  | prepare done =>
    simp only [BtClient.act, Option.ite_none_right_eq_some] at acted
    obtain ⟨preparing, onward⟩ := acted
    have before : client.stage.serving := by
      rw [preparing]
      rfl
    split at onward
    · obtain rfl := Option.some.inj onward
      exact .serve found whole (by simp) before rfl ⟨rfl, rfl, rfl⟩
    · obtain rfl := Option.some.inj onward
      exact .serve found whole (by simp) before rfl ⟨rfl, rfl, rfl⟩
  | check =>
    simp only [BtClient.act, Option.ite_none_right_eq_some, Option.some.injEq] at acted
    obtain ⟨looping, rfl⟩ := acted
    refine .serve found whole (by simp) (by rw [looping]; rfl) ?_ ⟨rfl, rfl, rfl⟩
    show BtStage.serving (if _ then _ else _) = true
    split <;> rfl
  | recv result =>
    simp only [BtClient.act, Option.ite_none_right_eq_some] at acted
    obtain ⟨receiving, onward⟩ := acted
    have before : client.stage.serving := by
      rw [receiving]
      rfl
    split at onward
    · obtain rfl := Option.some.inj onward
      exact .serve found whole (by simp) before rfl ⟨rfl, rfl, rfl⟩
    · obtain rfl := Option.some.inj onward
      exact .serve found whole (by simp) before rfl ⟨rfl, rfl, rfl⟩
    · simp only [Option.ite_none_right_eq_some, Option.some.injEq] at onward
      obtain ⟨-, rfl⟩ := onward
      exact .serve found whole (by simp) before rfl ⟨rfl, rfl, rfl⟩
  | close =>
    simp only [BtClient.act, Option.ite_none_right_eq_some, Option.some.injEq] at acted
    obtain ⟨closing, rfl⟩ := acted
    exact .close found closing
  | setSocketSlotFree =>
    simp only [BtClient.act, Option.ite_none_right_eq_some, Option.some.injEq] at acted
    obtain ⟨freeing, rfl⟩ := acted
    exact .free found freeing

/-- Every step is one of the moves. -/
theorem step_move {event : BtEvent} (stepped : step server event = some next) :
    Move server event next := by
  unfold step at stepped
  split at stepped
  · cases stepped
  · cases event with
    | signal =>
      obtain rfl := Option.some.inj stepped
      exact .signal
    | main event => exact mainStep_move stepped
    | client index event => exact clientStep_move stepped

/-! ## What holds at every moment -/

/-- What every step keeps: the table has its size, a slot that `main` is about to store into is
empty, and a connection without a thread is the one that `main` is creating the thread for. -/
structure WellFormed (server : BtServer) : Prop where
  /-- The size of the table. -/
  size : server.nSocketList.length = maxClientSocketCnt
  /-- The slot found is still empty. -/
  storing : ∀ nFreeSocketSlot, server.main = .storing nFreeSocketSlot →
    server.nSocketList[nFreeSocketSlot]? = some emptySocket
  /-- The connection that was stored has no thread yet, and its number is in the variable. -/
  creating : ∀ index, server.main = .creating index →
    ∃ client, server.clients[index]? = some client ∧ client.stage = .registered ∧
      client.accepted = server.nSporeSocket
  /-- A connection without a thread has just been stored, or the process has ended. -/
  registered : ∀ index client, server.clients[index]? = some client →
    client.stage = .registered → server.main = .creating index ∨ server.main = .exited

/-- `main` in front of its loop. -/
theorem start_wellFormed (nSporeSocket : Int) (openFds : Finset Int) :
    (start nSporeSocket openFds).WellFormed where
  size := rfl
  storing _ at_store := by cases at_store
  creating _ at_create := by cases at_create
  registered index client found := by simp [start] at found

/-- Nothing runs once the process has ended. -/
theorem step_running {event : BtEvent} (stepped : step server event = some next) :
    server.main ≠ .exited := by
  intro ended
  simp only [step, if_pos ended, reduceCtorEq] at stepped

/-- A step of a thread that has one keeps a well-formed server well formed, as far as it leaves
empty slots empty. -/
theorem WellFormed.thread {index : Nat} {client after : BtClient} {nSocketList : List Int}
    {openFds : Finset Int} (formed : server.WellFormed)
    (found : server.clients[index]? = some client) (threaded : client.stage ≠ .registered)
    (onward : after.stage ≠ .registered) (size : nSocketList.length = maxClientSocketCnt)
    (emptied : ∀ nSlot : Nat, server.nSocketList[nSlot]? = some emptySocket →
      nSocketList[nSlot]? = some emptySocket) :
    WellFormed { server with
      clients := server.clients.set index after
      nSocketList := nSocketList
      openFds := openFds } where
  size := size
  storing nFreeSocketSlot at_store := emptied _ (formed.storing nFreeSocketSlot at_store)
  creating other at_create := by
    obtain ⟨waiting, here, stage, number⟩ := formed.creating other at_create
    have differ : client.stage ≠ waiting.stage := by
      rw [stage]
      exact threaded
    have kept : (server.clients.set index after)[other]? = some waiting :=
      client_kept found here differ
    exact ⟨waiting, kept, stage, number⟩
  registered other waiting lookup stage := by
    rcases Entries.set_cases lookup with ⟨-, rfl⟩ | ⟨-, before⟩
    · exact absurd stage onward
    · exact formed.registered other waiting before stage

/-- A step of `main` that neither stores nor creates keeps a well-formed server well formed. -/
theorem WellFormed.onward {stage : MainStage} {nSporeSocket : Int} {openFds : Finset Int}
    (formed : server.WellFormed) (running : server.main ≠ .exited)
    (uncreated : ∀ index, server.main = .creating index → stage = .exited)
    (uncreating : ∀ index, stage ≠ .creating index)
    (empty : ∀ nFreeSocketSlot, stage = .storing nFreeSocketSlot →
      server.nSocketList[nFreeSocketSlot]? = some emptySocket) :
    WellFormed { server with main := stage, nSporeSocket := nSporeSocket, openFds := openFds } where
  size := formed.size
  storing := empty
  creating index at_create := absurd at_create (uncreating index)
  registered index client found waiting := by
    rcases formed.registered index client found waiting with creating | ended
    · exact .inr (uncreated index creating)
    · exact absurd ended running

/-- Every step keeps the server well formed. -/
theorem step_wellFormed {event : BtEvent} (formed : server.WellFormed)
    (stepped : step server event = some next) : next.WellFormed := by
  have running := step_running stepped
  cases step_move stepped with
  | signal => exact ⟨formed.size, formed.storing, formed.creating, formed.registered⟩
  | idle before after uncreating failed plain =>
    refine formed.onward running failed uncreating fun nFreeSocketSlot storing => ?_
    rw [storing] at after
    cases after
  | refuse waiting =>
    exact formed.onward running (by simp [waiting]) (by simp) (by simp)
  | accept waiting number unopened =>
    exact formed.onward running (by simp [waiting]) (by simp) (by simp)
  | search searching outcome =>
    rcases outcome with rfl | ⟨nFreeSocketSlot, rfl, -, empty⟩
    · exact formed.onward running (by simp [searching]) (by simp) (by simp)
    · refine formed.onward running (by simp [searching]) (by simp) fun nSlot same => ?_
      rw [← MainStage.storing.inj same]
      exact empty
  | reject rejecting =>
    exact formed.onward running (by simp [rejecting]) (by simp) (by simp)
  | @store nFreeSocketSlot storing =>
    constructor
    · rw [List.length_set]
      exact formed.size
    · intro nSlot at_store
      cases at_store
    · intro index at_create
      have last : server.clients.length = index := MainStage.creating.inj at_create
      subst last
      refine ⟨⟨server.nSporeSocket, nFreeSocketSlot, .registered, 0, BtReader.start, false⟩, ?_,
        rfl, rfl⟩
      exact List.getElem?_concat_length
    · intro index client found stage
      rcases Entries.concat_cases found with ⟨rfl, -⟩ | before
      · exact .inl rfl
      · rcases formed.registered index client before stage with creating | ended
        · rw [storing] at creating
          cases creating
        · exact absurd ended running
  | @create created creating =>
    constructor
    · exact formed.size
    · intro nSlot at_store
      cases at_store
    · intro index at_create
      cases at_create
    · intro index client found stage
      rcases Entries.modify_cases found with ⟨_, _, _, rfl⟩ | ⟨differ, before⟩
      · cases stage
      · rcases formed.registered index client before stage with same | ended
        · rw [creating] at same
          exact absurd (MainStage.creating.inj same).symm differ
        · exact absurd ended running
  | read found created =>
    exact formed.thread found (by simp [created]) (by simp) formed.size (fun _ => id)
  | serve found acted plain before onward same =>
    refine formed.thread found ?_ ?_ formed.size (fun _ => id)
    · intro stage
      rw [stage] at before
      cases before
    · intro stage
      rw [stage] at onward
      cases onward
  | close found closing =>
    exact formed.thread found (by simp [closing]) (by simp) formed.size (fun _ => id)
  | free found freeing =>
    refine formed.thread found (by simp [freeing]) (by simp) ?_ ?_
    · rw [setSocketSlotFree_length]
      exact formed.size
    · intro nSlot empty
      rw [setSocketSlotFree_all formed.size]
      split
      · rfl
      · exact empty

/-! ## The number a thread knows -/

/-- A thread copies the number that `accept` returned for its own connection. -/
def OwnNumber (server : BtServer) : BtEvent → Prop
  | .client index .readSocket =>
    ∀ client ∈ server.clients[index]?, server.nSporeSocket = client.accepted
  | _ => True

instance (server : BtServer) (event : BtEvent) : Decidable (server.OwnNumber event) := by
  unfold OwnNumber
  split <;> infer_instance

/-- Every thread that has copied a number knows that of its own connection. -/
def Owns (server : BtServer) : Prop :=
  ∀ (index : Nat) (client : BtClient), server.clients[index]? = some client →
    client.stage ≠ .registered → client.stage ≠ .created → client.nSporeSocket = client.accepted

/-- Threads that copy their own number know it ever after. -/
theorem step_owns {event : BtEvent} (owns : server.Owns) (own : OwnNumber server event)
    (stepped : step server event = some next) : next.Owns := by
  intro other thread lookup threaded started
  cases step_move stepped with
  | signal => exact owns other thread lookup threaded started
  | idle => exact owns other thread lookup threaded started
  | refuse => exact owns other thread lookup threaded started
  | accept => exact owns other thread lookup threaded started
  | search => exact owns other thread lookup threaded started
  | reject => exact owns other thread lookup threaded started
  | store =>
    rcases Entries.concat_cases lookup with ⟨-, rfl⟩ | before
    · exact absurd rfl threaded
    · exact owns other thread before threaded started
  | create =>
    rcases Entries.modify_cases lookup with ⟨_, _, _, rfl⟩ | ⟨-, before⟩
    · exact absurd rfl started
    · exact owns other thread before threaded started
  | @read index client found created =>
    rcases Entries.set_cases lookup with ⟨-, rfl⟩ | ⟨-, before⟩
    · exact own client found
    · exact owns other thread before threaded started
  | @serve index event client after found acted plain before onward same =>
    rcases Entries.set_cases lookup with ⟨-, rfl⟩ | ⟨-, earlier⟩
    · obtain ⟨number, -, known⟩ := same
      rw [number, known]
      apply owns index client found
      · intro stage
        rw [stage] at before
        cases before
      · intro stage
        rw [stage] at before
        cases before
    · exact owns other thread earlier threaded started
  | @close index client found closing =>
    rcases Entries.set_cases lookup with ⟨-, rfl⟩ | ⟨-, before⟩
    · exact owns index client found (by simp [closing]) (by simp [closing])
    · exact owns other thread before threaded started
  | @free index client found freeing =>
    rcases Entries.set_cases lookup with ⟨-, rfl⟩ | ⟨-, before⟩
    · exact owns index client found (by simp [freeing]) (by simp [freeing])
    · exact owns other thread before threaded started

end BtServer

end MidiDaemon
