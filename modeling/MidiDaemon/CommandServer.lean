import Mathlib.Data.Finset.Card
import Mathlib.Order.Bounds.Basic
import MidiDaemon.CommandStream
import MidiDaemon.Library.Ledger
import MidiDaemon.Library.Machine

/-!
# The command server

`updateMidiAttr` waits with `select` for its listening socket and its clients, accepts all who
queue, and receives from a client until nothing is left. It keeps the descriptors to wait for
in a set with its maximum, and changes both while it goes through the copy of the set that
`select` has marked. The kernel decides what the calls return: the ready descriptors are some
of those asked for, and a number returned by `accept` is not open at that moment. Numbers are
below `FD_SETSIZE`, and no other thread closes them. What is done with the bytes received is the
matter of the commands.

The model keeps a ledger of the descriptors, the listening socket first. At every `select` the
set is that of the open ones and the maximum is its maximum, and behind the clean-up loop each
has been closed once (`descriptors_kept`).
-/

namespace MidiDaemon

open Machine Ledger

/-- The next step of the command server. -/
inductive CommandStage where
  /-- `select`. -/
  | selecting
  /-- The head of the loop over the descriptors. -/
  | scanning
  /-- `accept`. -/
  | accepting
  /-- `recv`. -/
  | receiving
  /-- `executeCmdFromUnixSocket`. -/
  | executing
  /-- The path of `unCloseConn`. -/
  | closing
  /-- The test of `__io_canceled` at the end of the loop. -/
  | checking
  /-- The clean-up loop. -/
  | cleaning
  /-- The sequencer is released. -/
  | done
  /-- The loop that lowers the maximum has passed zero. -/
  | astray
deriving DecidableEq, Repr

/-- The server is inside its loop, and has closed no descriptor but those of clients. -/
def CommandStage.looping : CommandStage → Bool
  | .selecting | .scanning | .accepting | .receiving | .executing | .closing | .checking => true
  | _ => false

/-- The server is going through the descriptors. -/
def CommandStage.scans : CommandStage → Bool
  | .scanning | .accepting | .receiving | .executing | .closing => true
  | _ => false

/-- The server is busy with a client. -/
def CommandStage.serves : CommandStage → Bool
  | .receiving | .executing | .closing => true
  | _ => false

/-- Who is busy with a client is going through the descriptors. -/
theorem CommandStage.scans_of_serves {stage : CommandStage} (serves : stage.serves) :
    stage.scans := by
  cases stage <;> first | rfl | cases serves

/-- Who is going through the descriptors is inside the loop. -/
theorem CommandStage.looping_of_scans {stage : CommandStage} (scans : stage.scans) :
    stage.looping := by
  cases stage <;> first | rfl | cases scans

/-- What `accept` returns on a non-blocking socket. -/
inductive AcceptResult where
  /-- A connection. -/
  | connection (nClientSocket : Nat)
  /-- `EWOULDBLOCK`. -/
  | wouldBlock
  /-- Another error, of which the process is told by a signal. -/
  | failed
deriving DecidableEq, Repr

/-- What `recv` returns to the command server; no byte is the result `0`. -/
inductive CommandResult where
  /-- As many bytes as the result says. -/
  | data (received : List UInt8)
  /-- `EWOULDBLOCK`. -/
  | wouldBlock
  /-- Another error. -/
  | failed
deriving DecidableEq, Repr

/-- The steps of the command server, with what the calls return. -/
inductive CommandEvent where
  /-- `SIGINT`. -/
  | signal
  /-- `select` returns the ready descriptors, or fails. -/
  | select (ready : Option (Finset Nat))
  /-- The head of the loop over the descriptors, and the test of one. -/
  | scan
  /-- `accept` returns. -/
  | accept (result : AcceptResult)
  /-- `recv` returns. -/
  | recv (result : CommandResult)
  /-- `executeCmdFromUnixSocket` returns. -/
  | execute
  /-- The client is closed, and the maximum lowered. -/
  | close
  /-- `__io_canceled` is tested. -/
  | check
  /-- One iteration of the clean-up loop, or its end. -/
  | cleanUp
deriving DecidableEq

/-- The number of a connection that `accept` returns. -/
def CommandEvent.accepted : CommandEvent → Option Nat
  | .accept (.connection nClientSocket) => some nClientSocket
  | _ => none

/-- A number is that of an accepted connection only where `accept` returns it. -/
theorem CommandEvent.accepted_eq_some {event : CommandEvent} {nClientSocket : Nat} :
    event.accepted = some nClientSocket ↔ event = .accept (.connection nClientSocket) := by
  constructor
  · intro accepted
    unfold CommandEvent.accepted at accepted
    split at accepted
    · rw [Option.some.inj accepted]
    · cases accepted
  · rintro rfl
    rfl

/-- The variables of `updateMidiAttr`, and the descriptors it has had. -/
structure CommandServer where
  /-- The next step. -/
  stage : CommandStage
  /-- The listening socket. -/
  nServerSocket : Nat
  /-- The descriptors to wait for. -/
  tMasterFdSet : Finset Nat
  /-- The descriptors found ready. -/
  tWorkingFdSet : Finset Nat
  /-- The largest descriptor to wait for. -/
  nMaxSocketFd : Nat
  /-- The descriptor the loops are at. -/
  nFdIndex : Nat
  /-- How many ready descriptors are left. -/
  nReadyFd : Nat
  /-- `__io_canceled`. -/
  ioCanceled : Bool
  /-- Every descriptor opened so far, and how often it has been closed. -/
  descriptors : List (Entry Nat)
deriving DecidableEq

/-- `while (FD_ISSET(nMaxSocketFd, &tMasterFdSet) == 0) nMaxSocketFd -= 1;`, without a result
where it passes zero. -/
def lowerMax (tMasterFdSet : Finset Nat) : Nat → Option Nat
  | 0 => if 0 ∈ tMasterFdSet then some 0 else none
  | nMaxSocketFd + 1 =>
    if nMaxSocketFd + 1 ∈ tMasterFdSet then some (nMaxSocketFd + 1)
    else lowerMax tMasterFdSet nMaxSocketFd

/-- The loop that lowers the maximum stops at the largest member below, if there is one. -/
theorem lowerMax_greatest {tMasterFdSet : Finset Nat} {nMaxSocketFd member : Nat}
    (inside : member ∈ tMasterFdSet) (below : member ≤ nMaxSocketFd) :
    ∃ lowered, lowerMax tMasterFdSet nMaxSocketFd = some lowered ∧
      IsGreatest {fd | fd ∈ tMasterFdSet ∧ fd ≤ nMaxSocketFd} lowered := by
  induction nMaxSocketFd with
  | zero =>
    have zero : member = 0 := Nat.le_zero.mp below
    rw [zero] at inside
    exact ⟨0, if_pos inside, ⟨inside, Nat.le_refl 0⟩, fun fd found => found.2⟩
  | succ nMaxSocketFd ih =>
    by_cases found : nMaxSocketFd + 1 ∈ tMasterFdSet
    · exact ⟨nMaxSocketFd + 1, if_pos found, ⟨found, Nat.le_refl _⟩, fun fd within => within.2⟩
    · have under : ∀ fd ∈ tMasterFdSet, fd ≤ nMaxSocketFd + 1 → fd ≤ nMaxSocketFd := by
        intro fd contained within
        have apart : fd ≠ nMaxSocketFd + 1 := fun same => found (same ▸ contained)
        omega
      obtain ⟨lowered, stops, ⟨held, least⟩, greatest⟩ := ih (under member inside below)
      refine ⟨lowered, (if_neg found).trans stops, ⟨held, by omega⟩, fun fd within => ?_⟩
      exact greatest ⟨within.1, under fd within.1 within.2⟩

namespace CommandServer

/-- The server in front of its loop. -/
def start (nServerSocket : Nat) : CommandServer where
  stage := .selecting
  nServerSocket := nServerSocket
  tMasterFdSet := {nServerSocket}
  tWorkingFdSet := ∅
  nMaxSocketFd := nServerSocket
  nFdIndex := 0
  nReadyFd := 0
  ioCanceled := false
  descriptors := opening nServerSocket []

/-- On to the next descriptor. -/
def advance (server : CommandServer) : CommandServer :=
  { server with stage := .scanning, nFdIndex := server.nFdIndex + 1 }

/-- An accepted connection joins the descriptors to wait for. -/
def addClient (server : CommandServer) (nClientSocket : Nat) : CommandServer :=
  { server with
    tMasterFdSet := insert nClientSocket server.tMasterFdSet
    nMaxSocketFd :=
      if server.nMaxSocketFd < nClientSocket then nClientSocket else server.nMaxSocketFd
    descriptors := opening nClientSocket server.descriptors }

/-- The path of `unCloseConn`. -/
def closeClient (server : CommandServer) : CommandServer :=
  let tMasterFdSet := server.tMasterFdSet.erase server.nFdIndex
  let closed := { server with
    tMasterFdSet := tMasterFdSet
    descriptors := Ledger.closing server.nFdIndex server.descriptors }
  if server.nFdIndex = server.nMaxSocketFd then
    match lowerMax tMasterFdSet server.nMaxSocketFd with
    | some nMaxSocketFd => { closed with nMaxSocketFd := nMaxSocketFd }.advance
    | none => { closed with stage := .astray }
  else closed.advance

/-- One step of the server. -/
def step (server : CommandServer) : CommandEvent → Option CommandServer
  | .signal => some { server with ioCanceled := true }
  | .select none =>
    if server.stage = .selecting then some { server with stage := .cleaning, nFdIndex := 0 }
    else none
  | .select (some ready) =>
    -- `select` looks at the members of the set up to the maximum.
    if server.stage = .selecting ∧ ready.Nonempty ∧ ready ⊆ server.tMasterFdSet ∧
        ∀ fd ∈ ready, fd ≤ server.nMaxSocketFd then
      some { server with
        stage := .scanning
        tWorkingFdSet := ready
        nReadyFd := ready.card
        nFdIndex := 0 }
    else none
  | .scan =>
    if server.stage = .scanning then
      if server.nFdIndex ≤ server.nMaxSocketFd ∧ 0 < server.nReadyFd then
        if server.nFdIndex ∈ server.tWorkingFdSet then
          some { server with
            stage := if server.nFdIndex = server.nServerSocket then .accepting else .receiving
            nReadyFd := server.nReadyFd - 1 }
        else some server.advance
      else some { server with stage := .checking }
    else none
  | .accept result =>
    if server.stage = .accepting then
      match result with
      | .connection nClientSocket =>
        if StillOpen server.descriptors nClientSocket then none
        else some (server.addClient nClientSocket)
      | .wouldBlock | .failed => some server.advance
    else none
  | .recv result =>
    if server.stage = .receiving then
      match result with
      | .failed | .data [] => some { server with stage := .closing }
      | .wouldBlock => some server.advance
      | .data received =>
        if Receivable received then some { server with stage := .executing } else none
    else none
  | .execute =>
    if server.stage = .executing then some { server with stage := .receiving } else none
  | .close => if server.stage = .closing then some server.closeClient else none
  | .check =>
    if server.stage = .checking then
      if server.ioCanceled then some { server with stage := .cleaning, nFdIndex := 0 }
      else some { server with stage := .selecting }
    else none
  | .cleanUp =>
    if server.stage = .cleaning then
      if server.nFdIndex ≤ server.nMaxSocketFd then
        some { server with
          nFdIndex := server.nFdIndex + 1
          descriptors :=
            if server.nFdIndex ∈ server.tMasterFdSet then
              Ledger.closing server.nFdIndex server.descriptors
            else server.descriptors }
      else some { server with stage := .done }
    else none

/-! ## Moves -/

/-- What a step can do, all cases of it. -/
inductive Move (server : CommandServer) : CommandEvent → CommandServer → Prop
  /-- The signal is noted. -/
  | signal : Move server .signal { server with ioCanceled := true }
  /-- `select` returns ready descriptors. -/
  | select {ready : Finset Nat} (selecting : server.stage = .selecting)
      (awaited : ready ⊆ server.tMasterFdSet) :
      Move server (.select (some ready)) { server with
        stage := .scanning
        tWorkingFdSet := ready
        nReadyFd := ready.card
        nFdIndex := 0 }
  /-- The server leaves its loop. -/
  | leave {event : CommandEvent} (inside : server.stage.looping)
      (way : event = .select none ∨ event = .check) :
      Move server event { server with stage := .cleaning, nFdIndex := 0 }
  /-- The server goes on without a change of its sets. -/
  | idle {event : CommandEvent} {stage : CommandStage} (inside : server.stage.looping)
      (way : event = .scan ∧ stage = .checking ∨ event = .check ∧ stage = .selecting) :
      Move server event { server with stage := stage }
  /-- The server turns to a ready descriptor. -/
  | turn {stage : CommandStage} (scanning : server.stage = .scanning)
      (ready : server.nFdIndex ∈ server.tWorkingFdSet)
      (socket : server.nFdIndex = server.nServerSocket ∧ stage = .accepting ∨
        server.nFdIndex ≠ server.nServerSocket ∧ stage = .receiving) :
      Move server .scan { server with stage := stage, nReadyFd := server.nReadyFd - 1 }
  /-- The server is through with a descriptor. -/
  | advance {event : CommandEvent} (scans : server.stage.scans)
      (way : event = .scan ∨ event = .accept .wouldBlock ∨ event = .accept .failed ∨
        event = .recv .wouldBlock) :
      Move server event server.advance
  /-- `accept` returns a connection. -/
  | accept {nClientSocket : Nat} (accepting : server.stage = .accepting)
      (unopened : ¬ StillOpen server.descriptors nClientSocket) :
      Move server (.accept (.connection nClientSocket)) (server.addClient nClientSocket)
  /-- The server goes on with the client it is busy with. -/
  | serve {event : CommandEvent} {stage : CommandStage} (serves : server.stage.serves)
      (way : (∃ received, event = .recv (.data received) ∧ received ≠ [] ∧ stage = .executing) ∨
        (server.stage = .executing ∧ event = .execute ∧ stage = .receiving) ∨
        ((event = .recv .failed ∨ event = .recv (.data [])) ∧ stage = .closing)) :
      Move server event { server with stage := stage }
  /-- A client is closed. -/
  | close (closing : server.stage = .closing) : Move server .close server.closeClient
  /-- A descriptor is cleaned up. -/
  | clean (cleaning : server.stage = .cleaning) (within : server.nFdIndex ≤ server.nMaxSocketFd) :
      Move server .cleanUp { server with
        nFdIndex := server.nFdIndex + 1
        descriptors :=
          if server.nFdIndex ∈ server.tMasterFdSet then
            Ledger.closing server.nFdIndex server.descriptors
          else server.descriptors }
  /-- The clean-up loop has ended. -/
  | finish (cleaning : server.stage = .cleaning) (behind : server.nMaxSocketFd < server.nFdIndex) :
      Move server .cleanUp { server with stage := .done }

variable {server next : CommandServer}

/-- A step is one of the moves. -/
theorem step_move {event : CommandEvent} (stepped : server.step event = some next) :
    Move server event next := by
  cases event with
  | signal =>
    obtain rfl := Option.some.inj stepped
    exact .signal
  | select outcome =>
    cases outcome with
    | none =>
      simp only [step, Option.ite_none_right_eq_some, Option.some.injEq] at stepped
      obtain ⟨selecting, rfl⟩ := stepped
      exact .leave (by rw [selecting]; rfl) (.inl rfl)
    | some ready =>
      simp only [step, Option.ite_none_right_eq_some, Option.some.injEq] at stepped
      obtain ⟨⟨selecting, -, awaited, -⟩, rfl⟩ := stepped
      exact .select selecting awaited
  | scan =>
    simp only [step, Option.ite_none_right_eq_some] at stepped
    obtain ⟨scanning, onward⟩ := stepped
    have scans : server.stage.scans := by
      rw [scanning]
      rfl
    split at onward
    · split at onward
      · rename_i ready
        obtain rfl := Option.some.inj onward
        refine .turn scanning ready ?_
        split
        · rename_i listening
          exact .inl ⟨listening, rfl⟩
        · rename_i client
          exact .inr ⟨client, rfl⟩
      · obtain rfl := Option.some.inj onward
        exact .advance scans (.inl rfl)
    · obtain rfl := Option.some.inj onward
      exact .idle (CommandStage.looping_of_scans scans) (.inl ⟨rfl, rfl⟩)
  | accept result =>
    simp only [step, Option.ite_none_right_eq_some] at stepped
    obtain ⟨accepting, onward⟩ := stepped
    have scans : server.stage.scans := by
      rw [accepting]
      rfl
    cases result with
    | connection nClientSocket =>
      simp only [Option.ite_none_left_eq_some, Option.some.injEq] at onward
      obtain ⟨unopened, rfl⟩ := onward
      exact .accept accepting unopened
    | wouldBlock =>
      obtain rfl := Option.some.inj onward
      exact .advance scans (.inr (.inl rfl))
    | failed =>
      obtain rfl := Option.some.inj onward
      exact .advance scans (.inr (.inr (.inl rfl)))
  | recv result =>
    simp only [step, Option.ite_none_right_eq_some] at stepped
    obtain ⟨receiving, onward⟩ := stepped
    have serves : server.stage.serves := by
      rw [receiving]
      rfl
    split at onward
    · obtain rfl := Option.some.inj onward
      exact .serve serves (.inr (.inr ⟨.inl rfl, rfl⟩))
    · obtain rfl := Option.some.inj onward
      exact .serve serves (.inr (.inr ⟨.inr rfl, rfl⟩))
    · obtain rfl := Option.some.inj onward
      exact .advance (CommandStage.scans_of_serves serves) (.inr (.inr (.inr rfl)))
    · rename_i received nonempty
      simp only [Option.ite_none_right_eq_some, Option.some.injEq] at onward
      obtain ⟨-, rfl⟩ := onward
      exact .serve serves (.inl ⟨received, rfl, nonempty, rfl⟩)
  | execute =>
    simp only [step, Option.ite_none_right_eq_some, Option.some.injEq] at stepped
    obtain ⟨executing, rfl⟩ := stepped
    exact .serve (by rw [executing]; rfl) (.inr (.inl ⟨executing, rfl, rfl⟩))
  | close =>
    simp only [step, Option.ite_none_right_eq_some, Option.some.injEq] at stepped
    obtain ⟨closing, rfl⟩ := stepped
    exact .close closing
  | check =>
    simp only [step, Option.ite_none_right_eq_some] at stepped
    obtain ⟨checking, onward⟩ := stepped
    have inside : server.stage.looping := by
      rw [checking]
      rfl
    split at onward
    · obtain rfl := Option.some.inj onward
      exact .leave inside (.inr rfl)
    · obtain rfl := Option.some.inj onward
      exact .idle inside (.inr ⟨rfl, rfl⟩)
  | cleanUp =>
    simp only [step, Option.ite_none_right_eq_some] at stepped
    obtain ⟨cleaning, onward⟩ := stepped
    split at onward
    · rename_i within
      obtain rfl := Option.some.inj onward
      exact .clean cleaning within
    · rename_i beyond
      obtain rfl := Option.some.inj onward
      exact .finish cleaning (Nat.lt_of_not_le beyond)

/-! ## The set and its maximum -/

/-- The bookkeeping of descriptors. -/
structure Tracked (server : CommandServer) : Prop where
  /-- No descriptor is closed twice. -/
  tidy : Tidy server.descriptors
  /-- The listening socket is open inside the loop. -/
  oldest : server.stage.looping → server.descriptors.getLast? = some ⟨server.nServerSocket, 0⟩
  /-- Inside the loop the set is that of the open descriptors. -/
  members : server.stage.looping → ∀ fd, fd ∈ server.tMasterFdSet ↔ StillOpen server.descriptors fd
  /-- The clean-up loop has closed the members below its index. -/
  remaining : server.stage = .cleaning → ∀ fd, StillOpen server.descriptors fd ↔
    fd ∈ server.tMasterFdSet ∧ server.nFdIndex ≤ fd
  /-- The listening socket stays in the set. -/
  listening : server.nServerSocket ∈ server.tMasterFdSet
  /-- The maximum is that of the set. -/
  greatest : IsGreatest (server.tMasterFdSet : Set Nat) server.nMaxSocketFd
  /-- Ready descriptors from the index on are still in the set. -/
  ahead : server.stage.scans → ∀ fd ∈ server.tWorkingFdSet, server.nFdIndex ≤ fd →
    fd ∈ server.tMasterFdSet
  /-- The server is busy with a client that is in the set. -/
  client : server.stage.serves →
    server.nFdIndex ∈ server.tMasterFdSet ∧ server.nFdIndex ≠ server.nServerSocket
  /-- At the end each descriptor has been closed once. -/
  finished : server.stage = .done → ∀ entry ∈ server.descriptors, entry.closes = 1
  /-- The maximum is never lowered past zero. -/
  lowered : server.stage ≠ .astray

/-- In front of the loop there is the listening socket alone. -/
theorem start_tracked (nServerSocket : Nat) : (start nServerSocket).Tracked where
  tidy := ⟨Nat.zero_le 1, fun _ member => absurd member List.not_mem_nil, trivial⟩
  oldest _ := rfl
  members _ fd := by simp [start, StillOpen, opening, eq_comm]
  remaining cleaning := by cases cleaning
  listening := Finset.mem_singleton_self _
  greatest := by
    refine ⟨Finset.mem_coe.mpr (Finset.mem_singleton_self _), fun fd member => ?_⟩
    exact Nat.le_of_eq (Finset.mem_singleton.mp (Finset.mem_coe.mp member))
  ahead scans := by cases scans
  client serves := by cases serves
  finished done := by cases done
  lowered := by simp [start]

/-- Going on to the next descriptor. -/
theorem Tracked.advance (tracked : server.Tracked) (scans : server.stage.scans) :
    server.advance.Tracked where
  tidy := tracked.tidy
  oldest _ := tracked.oldest (CommandStage.looping_of_scans scans)
  members _ := tracked.members (CommandStage.looping_of_scans scans)
  remaining cleaning := by cases cleaning
  listening := tracked.listening
  greatest := tracked.greatest
  ahead _ fd member later := tracked.ahead scans fd member (Nat.le_of_succ_le later)
  client serves := by cases serves
  finished done := by cases done
  lowered := by simp [CommandServer.advance]

/-- A connection joins. -/
theorem Tracked.addClient {nClientSocket : Nat} (tracked : server.Tracked)
    (accepting : server.stage = .accepting)
    (unopened : ¬ StillOpen server.descriptors nClientSocket) :
    (server.addClient nClientSocket).Tracked where
  tidy := tracked.tidy.opening unopened
  oldest inside := by
    obtain ⟨front, split⟩ := List.getLast?_eq_some_iff.mp (tracked.oldest inside)
    rw [CommandServer.addClient, opening, split, ← List.cons_append]
    exact List.getLast?_concat
  members inside fd := by
    rw [CommandServer.addClient, Finset.mem_insert, stillOpen_opening, tracked.members inside]
  remaining cleaning := by cases accepting.symm.trans cleaning
  listening := Finset.mem_insert_of_mem tracked.listening
  greatest := by
    obtain ⟨held, bound⟩ := tracked.greatest
    simp only [CommandServer.addClient]
    split
    · rename_i larger
      refine ⟨Finset.mem_coe.mpr (Finset.mem_insert_self _ _), fun fd member => ?_⟩
      rcases Finset.mem_insert.mp (Finset.mem_coe.mp member) with same | before
      · exact Nat.le_of_eq same
      · exact Nat.le_trans (bound (Finset.mem_coe.mpr before)) (Nat.le_of_lt larger)
    · rename_i within
      refine ⟨Finset.mem_coe.mpr (Finset.mem_insert_of_mem held), fun fd member => ?_⟩
      rcases Finset.mem_insert.mp (Finset.mem_coe.mp member) with same | before
      · rw [same]
        exact Nat.le_of_not_lt within
      · exact bound (Finset.mem_coe.mpr before)
  ahead scans fd member later := Finset.mem_insert_of_mem (tracked.ahead scans fd member later)
  client serves := by
    have stage : (server.addClient nClientSocket).stage = .accepting := accepting
    rw [stage] at serves
    cases serves
  finished done := by cases accepting.symm.trans done
  lowered := tracked.lowered

/-- A client is closed. The maximum is lowered to that of the descriptors left, of which the
listening socket is one. -/
theorem Tracked.closeClient (tracked : server.Tracked) (closing : server.stage = .closing) :
    server.closeClient.Tracked := by
  have serves : server.stage.serves := by
    rw [closing]
    rfl
  have scans := CommandStage.scans_of_serves serves
  have inside := CommandStage.looping_of_scans scans
  obtain ⟨contained, apart⟩ := tracked.client serves
  obtain ⟨held, bound⟩ := tracked.greatest
  let tMasterFdSet := server.tMasterFdSet.erase server.nFdIndex
  have listening : server.nServerSocket ∈ tMasterFdSet :=
    Finset.mem_erase.mpr ⟨apart.symm, tracked.listening⟩
  obtain ⟨tidy, still_open⟩ :=
    tracked.tidy.closing ((tracked.members inside server.nFdIndex).mp contained)
  -- What is kept whatever the new maximum is.
  have kept : ∀ nMaxSocketFd, IsGreatest (tMasterFdSet : Set Nat) nMaxSocketFd →
      ({ server with
        tMasterFdSet := tMasterFdSet
        descriptors := Ledger.closing server.nFdIndex server.descriptors
        nMaxSocketFd := nMaxSocketFd }.advance : CommandServer).Tracked := by
    intro nMaxSocketFd greatest
    exact {
      tidy := tidy
      oldest := fun _ => getLast?_closing (tracked.oldest inside) apart.symm
      members := fun _ fd => by
        show fd ∈ tMasterFdSet ↔ _
        rw [Finset.mem_erase, tracked.members inside, and_comm]
        exact (still_open fd).symm
      remaining := fun cleaning => by cases cleaning
      listening := listening
      greatest := greatest
      ahead := fun _ fd member later => by
        have beyond : server.nFdIndex < fd := later
        apply Finset.mem_erase.mpr
        exact ⟨Nat.ne_of_gt beyond, tracked.ahead scans fd member (Nat.le_of_lt beyond)⟩
      client := fun serves => by cases serves
      finished := fun done => by cases done
      lowered := by simp [CommandServer.advance] }
  simp only [CommandServer.closeClient]
  split
  · rename_i largest
    obtain ⟨lowered, stops, ⟨among, below⟩, most⟩ :=
      lowerMax_greatest listening (bound (Finset.mem_coe.mpr tracked.listening))
    rw [stops]
    refine kept lowered ⟨Finset.mem_coe.mpr among, fun fd member => most ⟨member, ?_⟩⟩
    exact bound (Finset.mem_coe.mpr (Finset.mem_of_mem_erase (Finset.mem_coe.mp member)))
  · rename_i smaller
    refine kept server.nMaxSocketFd ⟨?_, fun fd member => ?_⟩
    · exact Finset.mem_coe.mpr (Finset.mem_erase.mpr ⟨Ne.symm smaller, held⟩)
    · exact bound (Finset.mem_coe.mpr (Finset.mem_of_mem_erase (Finset.mem_coe.mp member)))

/-- The path of `unCloseConn`, unless the maximum passes zero, leads on to the next descriptor. -/
theorem closeClient_eq (lowered : server.closeClient.stage ≠ .astray) :
    ∃ nMaxSocketFd, server.closeClient = { server with
      tMasterFdSet := server.tMasterFdSet.erase server.nFdIndex
      descriptors := Ledger.closing server.nFdIndex server.descriptors
      nMaxSocketFd := nMaxSocketFd }.advance := by
  simp only [CommandServer.closeClient] at lowered ⊢
  split
  · rename_i largest
    rw [if_pos largest] at lowered
    split
    · exact ⟨_, rfl⟩
    · rename_i passes
      rw [passes] at lowered
      exact absurd rfl lowered
  · exact ⟨server.nMaxSocketFd, rfl⟩

/-- Every step keeps the bookkeeping of descriptors. -/
theorem step_tracked {event : CommandEvent} (tracked : server.Tracked)
    (stepped : server.step event = some next) : next.Tracked := by
  cases step_move stepped with
  | signal => exact { tracked with }
  | select selecting awaited =>
    have inside : server.stage.looping := by
      rw [selecting]
      rfl
    exact { tracked with
      oldest := fun _ => tracked.oldest inside
      members := fun _ => tracked.members inside
      remaining := fun cleaning => by cases cleaning
      ahead := fun _ fd member _ => awaited member
      client := fun serves => by cases serves
      finished := fun done => by cases done
      lowered := by simp }
  | leave inside =>
    exact { tracked with
      oldest := fun inside => by cases inside
      members := fun inside => by cases inside
      remaining := fun _ fd => by simp [tracked.members inside]
      ahead := fun scans => by cases scans
      client := fun serves => by cases serves
      finished := fun done => by cases done
      lowered := by simp }
  | @idle event stage inside way =>
    have calm : stage = .checking ∨ stage = .selecting := way.imp And.right And.right
    exact { tracked with
      oldest := fun _ => tracked.oldest inside
      members := fun _ => tracked.members inside
      remaining := fun cleaning => by rcases calm with rfl | rfl <;> cases cleaning
      ahead := fun scans => by rcases calm with rfl | rfl <;> cases scans
      client := fun serves => by rcases calm with rfl | rfl <;> cases serves
      finished := fun done => by rcases calm with rfl | rfl <;> cases done
      lowered := by rcases calm with rfl | rfl <;> simp }
  | @turn stage scanning ready socket =>
    have scans : server.stage.scans := by
      rw [scanning]
      rfl
    have inside := CommandStage.looping_of_scans scans
    have contained := tracked.ahead scans server.nFdIndex ready (Nat.le_refl _)
    rcases socket with ⟨-, rfl⟩ | ⟨apart, rfl⟩
    · exact { tracked with
        oldest := fun _ => tracked.oldest inside
        members := fun _ => tracked.members inside
        remaining := fun cleaning => by cases cleaning
        ahead := fun _ => tracked.ahead scans
        client := fun serves => by cases serves
        finished := fun done => by cases done
        lowered := by simp }
    · exact { tracked with
        oldest := fun _ => tracked.oldest inside
        members := fun _ => tracked.members inside
        remaining := fun cleaning => by cases cleaning
        ahead := fun _ => tracked.ahead scans
        client := fun _ => ⟨contained, apart⟩
        finished := fun done => by cases done
        lowered := by simp }
  | advance scans => exact tracked.advance scans
  | accept accepting unopened => exact tracked.addClient accepting unopened
  | @serve event stage serves way =>
    have scans := CommandStage.scans_of_serves serves
    have inside := CommandStage.looping_of_scans scans
    have busy : stage.serves := by
      rcases way with ⟨-, -, -, rfl⟩ | ⟨-, -, rfl⟩ | ⟨-, rfl⟩ <;> rfl
    have onward := CommandStage.scans_of_serves busy
    exact { tracked with
      oldest := fun _ => tracked.oldest inside
      members := fun _ => tracked.members inside
      remaining := fun cleaning => by
        obtain rfl : stage = .cleaning := cleaning
        cases busy
      ahead := fun _ => tracked.ahead scans
      client := fun _ => tracked.client serves
      finished := fun done => by
        obtain rfl : stage = .done := done
        cases busy
      lowered := by
        rintro rfl
        cases busy }
  | close closing => exact tracked.closeClient closing
  | clean cleaning within =>
    have looping : server.stage.looping = false := by rw [cleaning]; rfl
    have scans : server.stage.scans = false := by rw [cleaning]; rfl
    have serves : server.stage.serves = false := by rw [cleaning]; rfl
    have remaining := tracked.remaining cleaning
    by_cases member : server.nFdIndex ∈ server.tMasterFdSet
    · obtain ⟨tidy, still_open⟩ :=
        tracked.tidy.closing ((remaining server.nFdIndex).mpr ⟨member, Nat.le_refl _⟩)
      simp only [if_pos member]
      exact { tracked with
        tidy := tidy
        oldest := fun inside => by simp [looping] at inside
        members := fun inside => by simp [looping] at inside
        remaining := fun _ fd => by
          show _ ↔ fd ∈ server.tMasterFdSet ∧ server.nFdIndex + 1 ≤ fd
          rw [still_open, remaining, and_assoc]
          exact and_congr_right fun _ => by omega
        ahead := fun scanning => by simp [scans] at scanning
        client := fun serving => by simp [serves] at serving
        finished := fun done => by cases cleaning.symm.trans done }
    · simp only [if_neg member]
      exact { tracked with
        remaining := fun _ fd => by
          show _ ↔ fd ∈ server.tMasterFdSet ∧ server.nFdIndex + 1 ≤ fd
          rw [remaining]
          refine and_congr_right fun contained => ?_
          have apart : fd ≠ server.nFdIndex := fun same => member (same ▸ contained)
          omega
        ahead := fun scanning => by simp [scans] at scanning
        client := fun serving => by simp [serves] at serving }
  | finish cleaning behind =>
    have remaining := tracked.remaining cleaning
    have none_open : ∀ fd, ¬ StillOpen server.descriptors fd := by
      intro fd still_open
      obtain ⟨contained, later⟩ := (remaining fd).mp still_open
      have bound := tracked.greatest.2 (Finset.mem_coe.mpr contained)
      omega
    exact { tracked with
      oldest := fun inside => by cases inside
      members := fun inside => by cases inside
      remaining := fun cleaning => by cases cleaning
      ahead := fun scans => by cases scans
      client := fun serves => by cases serves
      finished := fun _ => tracked.tidy.closed_once none_open
      lowered := by simp }

/-- The descriptors are booked as `select` and the end of the thread need it. -/
structure Bookkept (server : CommandServer) : Prop where
  /-- At `select` the set is that of the descriptors opened and not yet closed. -/
  awaited : server.stage = .selecting →
    ∀ fd, fd ∈ server.tMasterFdSet ↔ StillOpen server.descriptors fd
  /-- At `select` the listening socket, the first of the descriptors, is open. -/
  listening : server.stage = .selecting →
    server.descriptors.getLast? = some ⟨server.nServerSocket, 0⟩
  /-- The maximum is that of the set. -/
  greatest : IsGreatest (server.tMasterFdSet : Set Nat) server.nMaxSocketFd
  /-- The loop that lowers the maximum has always stopped at a member. -/
  lowered : server.stage ≠ .astray
  /-- Behind the clean-up loop every descriptor has been closed exactly once. -/
  finished : server.stage = .done → ∀ entry ∈ server.descriptors, entry.closes = 1

/-- A step opens the connection it accepts, and nothing else. -/
theorem step_numbers {event : CommandEvent} (stepped : server.step event = some next) :
    next.descriptors.map Entry.number =
      event.accepted.toList ++ server.descriptors.map Entry.number := by
  cases step_move stepped with
  | signal | select | turn | accept | finish => rfl
  | leave inside way => rcases way with rfl | rfl <;> rfl
  | idle inside way => rcases way with ⟨rfl, -⟩ | ⟨rfl, -⟩ <;> rfl
  | advance scans way => rcases way with rfl | rfl | rfl | rfl <;> rfl
  | serve serves way =>
    rcases way with ⟨-, rfl, -, -⟩ | ⟨-, rfl, -⟩ | ⟨rfl | rfl, -⟩ <;> rfl
  | close closing =>
    have closed : server.closeClient.descriptors =
        Ledger.closing server.nFdIndex server.descriptors := by
      simp only [closeClient]
      repeat' split
      all_goals rfl
    rw [closed]
    exact map_number_closing
  | clean =>
    dsimp only
    split
    · exact map_number_closing
    · rfl

/-- The number of an open descriptor is not given to a connection. -/
theorem step_unaccepted {event : CommandEvent} {fd : Nat} (stepped : server.step event = some next)
    (still_open : StillOpen server.descriptors fd) : event.accepted ≠ some fd := by
  intro accepted
  rw [CommandEvent.accepted_eq_some.mp accepted] at stepped
  simp only [step, if_pos still_open] at stepped
  split at stepped <;> cases stepped

/-- The ledger of a run has the connections it accepted, in front of what was there before. -/
theorem run_numbers {final : CommandServer} {events : List CommandEvent}
    (reached : run step server events = some final) :
    final.descriptors.map Entry.number =
      (events.filterMap CommandEvent.accepted).reverse ++ server.descriptors.map Entry.number := by
  induction events generalizing server with
  | nil =>
    obtain rfl := Option.some.inj reached
    rfl
  | cons event events ih =>
    obtain ⟨next, stepped, onward⟩ := Option.bind_eq_some_iff.mp reached
    rw [ih onward, step_numbers stepped]
    cases accepted : event.accepted with
    | none => rw [List.filterMap_cons_none accepted, Option.toList_none, List.nil_append]
    | some nClientSocket =>
      rw [List.filterMap_cons_some accepted, List.reverse_cons, List.append_assoc,
        Option.toList_some]

/-- The bookkeeping of descriptors: in every run, with any ready descriptors, connections,
errors and numbers used again, the set and its maximum are right at every `select`, the maximum
is always lowered to a member, and at the end every descriptor has been closed exactly once. The
descriptors are the listening socket and the connections accepted. -/
theorem descriptors_kept (nServerSocket : Nat) (events : List CommandEvent) :
    EachState step Bookkept (start nServerSocket) events ∧
      ∀ final, run step (start nServerSocket) events = some final →
        final.descriptors.map Entry.number =
          (events.filterMap CommandEvent.accepted).reverse ++ [nServerSocket] := by
  refine ⟨?_, fun final reached => run_numbers reached⟩
  apply eachState_of_invariant (fun (server : CommandServer) (tracked : Tracked server) => ?_)
    (fun _ _ _ tracked _ stepped => step_tracked tracked stepped) (start_tracked nServerSocket)
    (eachStep_of_forall (fun _ _ => trivial) (start nServerSocket) events)
  have inside : server.stage = .selecting → server.stage.looping := by
    intro selecting
    rw [selecting]
    rfl
  exact ⟨fun selecting => tracked.members (inside selecting),
    fun selecting => tracked.oldest (inside selecting), tracked.greatest, tracked.lowered,
    tracked.finished⟩

end CommandServer

end MidiDaemon
