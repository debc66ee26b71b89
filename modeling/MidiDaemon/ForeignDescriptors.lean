import MidiDaemon.SocketHandOff

/-!
# Descriptors of the rest of the process

The Bluetooth server shares one table of descriptors with the rest of the daemon: the command
server, the serial thread and the sequencer handles. These open and close descriptors at any moment,
and the kernel gives out the lowest numbers again and again, so that a number which a Bluetooth
thread has closed may be that of a command client a moment later.

A thread that copies the number of its own connection closes it once, while it is open, and so never
what the rest of the process has opened, nor does it receive from there (`foreign_kept`). A thread
that was handed the number of another does close it a second time, when it may be anybody's
(`foreign_closed`). What was open in front of the accept loop is safe from it: its number is never
given out to a connection (`run_spares`).
-/

namespace MidiDaemon

open Machine Ownership

/-- The Bluetooth server inside its process. -/
structure BtProcess where
  /-- The server; its open descriptors are those of the whole process. -/
  server : BtServer
  /-- The descriptors that the rest of the process has opened and not closed. -/
  foreign : Finset Int
deriving DecidableEq

/-- A step of the process. -/
inductive BtProcessEvent where
  /-- A step of the server. -/
  | server (event : BtEvent)
  /-- Another thread opens a descriptor. -/
  | openFd (fd : Int)
  /-- Another thread closes a descriptor of its own. -/
  | closeFd (fd : Int)
deriving DecidableEq, Repr

namespace BtProcess

/-- In front of the accept loop everything that is open belongs to the rest of the process. -/
def start (nSporeSocket : Int) (openFds : Finset Int) : BtProcess where
  server := BtServer.start nSporeSocket openFds
  foreign := openFds.filter (0 ≤ ·)

/-- One step; the kernel gives out numbers that are not open. -/
def step (process : BtProcess) : BtProcessEvent → Option BtProcess
  | .server event =>
    (BtServer.step process.server event).map fun server => { process with server := server }
  | .openFd fd =>
    if 0 ≤ fd ∧ fd ∉ process.server.openFds then
      some ⟨{ process.server with openFds := insert fd process.server.openFds },
        insert fd process.foreign⟩
    else none
  | .closeFd fd =>
    if fd ∈ process.foreign then
      some ⟨{ process.server with openFds := process.server.openFds.erase fd },
        process.foreign.erase fd⟩
    else none

/-- A Bluetooth thread copies the number of its own connection. -/
def OwnCopies (process : BtProcess) : BtProcessEvent → Prop
  | .server event => process.server.OwnNumber event
  | .openFd _ | .closeFd _ => True

instance (process : BtProcess) (event : BtProcessEvent) : Decidable (process.OwnCopies event) := by
  unfold OwnCopies
  split <;> infer_instance

/-- What the rest of the process has opened is open until it closes it, and no Bluetooth thread
receives from it or is about to close it. -/
def Separate (process : BtProcess) : Prop :=
  process.foreign ⊆ process.server.openFds ∧
    ∀ (index : Nat) (client : BtClient), process.server.clients[index]? = some client →
      client.stage.serving → client.nSporeSocket ∉ process.foreign

end BtProcess

namespace BtServer

/-- A descriptor is open, and neither `main` nor a client of the server owns it. -/
structure Unowned (number : Int) (server : BtServer) : Prop where
  /-- It is open. -/
  opened : number ∈ server.openFds
  /-- It is not the number in hand. -/
  hand : server.main.holding = true → server.nSporeSocket ≠ number
  /-- It is not that of a connection that is not closed. -/
  clients : ∀ (index : Nat) (client : BtClient), server.clients[index]? = some client →
    client.stage.held = true → client.accepted ≠ number

variable {server next : BtServer} {number : Int}

/-- A step of a thread leaves a descriptor unowned that it does not close. -/
theorem Unowned.thread (unowned : server.Unowned number) {index : Nat} {client after : BtClient}
    {openFds : Finset Int} {nSocketList : List Int} (found : server.clients[index]? = some client)
    (opened : number ∈ openFds) (held : after.stage.held = true → client.stage.held = true)
    (same : after.accepted = client.accepted) :
    Unowned number { server with
      clients := server.clients.set index after
      openFds := openFds
      nSocketList := nSocketList } where
  opened := opened
  hand := unowned.hand
  clients place thread lookup holds := by
    rcases Entries.set_cases lookup with ⟨-, rfl⟩ | ⟨-, before⟩
    · rw [same]
      exact unowned.clients index client found (held holds)
    · exact unowned.clients place thread before holds

/-- A step of the server leaves what it does not own as it is, when threads know their own
numbers. -/
theorem step_unowned {event : BtEvent} (nonneg : 0 ≤ number) (unowned : server.Unowned number)
    (formed : server.WellFormed) (owns : server.Owns) (stepped : step server event = some next) :
    next.Unowned number := by
  cases step_move stepped with
  | signal => exact ⟨unowned.opened, unowned.hand, unowned.clients⟩
  | idle before after uncreating failed plain =>
    refine ⟨unowned.opened, fun holding => ?_, unowned.clients⟩
    rw [after] at holding
    cases holding
  | refuse waiting =>
    refine ⟨unowned.opened, fun _ same => ?_, unowned.clients⟩
    change -1 = number at same
    omega
  | @accept nSporeSocket waiting positive unopened =>
    refine ⟨Finset.mem_insert_of_mem unowned.opened, fun _ same => ?_, unowned.clients⟩
    change nSporeSocket = number at same
    rw [same] at unopened
    exact unopened unowned.opened
  | search searching outcome =>
    exact ⟨unowned.opened, fun _ => unowned.hand (by rw [searching]; rfl), unowned.clients⟩
  | reject rejecting =>
    have other := unowned.hand (by rw [rejecting]; rfl)
    refine ⟨Finset.mem_erase.mpr ⟨other.symm, unowned.opened⟩, fun holding => ?_, unowned.clients⟩
    cases holding
  | store storing =>
    refine ⟨unowned.opened, fun holding => (by cases holding), ?_⟩
    intro index client found holds
    rcases Entries.concat_cases found with ⟨-, rfl⟩ | before
    · exact unowned.hand (by rw [storing]; rfl)
    · exact unowned.clients index client before holds
  | @create created creating =>
    refine ⟨unowned.opened, fun holding => (by cases holding), ?_⟩
    intro index client found holds
    rcases Entries.modify_cases found with ⟨-, thread, here, rfl⟩ | ⟨-, before⟩
    · obtain ⟨waiting, there, registered, -⟩ := formed.creating created creating
      obtain rfl := Option.some.inj (here.symm.trans there)
      exact unowned.clients created thread here (by rw [registered]; rfl)
    · exact unowned.clients index client before holds
  | read found created =>
    exact unowned.thread found unowned.opened (fun _ => by rw [created]; rfl) rfl
  | serve found acted plain before onward same =>
    exact unowned.thread found unowned.opened (fun _ => (BtStage.serving_held before).2.2) same.1
  | @close index client found closing =>
    have own := owns index client found (by simp [closing]) (by simp [closing])
    have other := unowned.clients index client found (by rw [closing]; rfl)
    rw [← own] at other
    exact unowned.thread found (Finset.mem_erase.mpr ⟨other.symm, unowned.opened⟩)
      (fun holds => by cases holds) rfl
  | free found freeing =>
    exact unowned.thread found unowned.opened (fun holds => by cases holds) rfl

/-- Nobody owns it. -/
theorem Unowned.owner (unowned : server.Unowned number) (key : Option Nat) :
    server.owner key ≠ some number := by
  cases key with
  | none =>
    intro owned
    have in_hand : server.hand = some number := owned
    unfold BtServer.hand at in_hand
    split at in_hand
    · rename_i both
      exact unowned.hand both.1 (Option.some.inj in_hand)
    · cases in_hand
  | some index =>
    intro owned
    obtain ⟨client, found, holds⟩ := Option.bind_eq_some_iff.mp owned
    unfold BtClient.holding at holds
    split at holds
    · rename_i both
      exact unowned.clients index client found both.1 (Option.some.inj holds)
    · cases holds

/-- What nobody owns is unowned while it is open. -/
theorem unowned_of_owner (nonneg : 0 ≤ number) (opened : number ∈ server.openFds)
    (nobody : ∀ key, server.owner key ≠ some number) : server.Unowned number where
  opened := opened
  hand holding same := by
    have held : server.owner none = some server.nSporeSocket :=
      hand_some holding (by rw [same]; exact nonneg)
    rw [same] at held
    exact nobody none held
  clients index client found holds same := by
    have holding := client.holding_held holds (by rw [same]; exact nonneg)
    refine nobody (some index) ?_
    rw [← same]
    simpa [owner, owners, viewed, found] using holding

end BtServer

namespace BtProcess

open BtServer

variable {process next : BtProcess}

/-- What every step keeps, as long as threads copy their own numbers. -/
structure Guarded (process : BtProcess) : Prop where
  /-- What every step of the server keeps. -/
  formed : process.server.WellFormed
  /-- Threads know their own numbers. -/
  owns : process.server.Owns
  /-- Descriptors have one owner each. -/
  exclusive : Exclusive process.server.owner process.server.openFds
  /-- The rest of the process has descriptors that the server does not own. -/
  foreign : ∀ number ∈ process.foreign, 0 ≤ number ∧ process.server.Unowned number

/-- In front of the accept loop the server owns nothing. -/
theorem start_guarded (nSporeSocket : Int) (openFds : Finset Int) :
    (start nSporeSocket openFds).Guarded := by
  have begun := start_handsOff nSporeSocket openFds
  refine ⟨begun.formed, begun.owns, begun.exclusive, fun number member => ?_⟩
  obtain ⟨opened, nonneg⟩ := Finset.mem_filter.mp member
  refine ⟨nonneg, ⟨opened, fun holding => ?_, fun index client found => ?_⟩⟩
  · cases holding
  · simp [start, BtServer.start] at found

/-- Every step keeps the descriptors apart, if a thread that copies a number copies its own. -/
theorem step_guarded {event : BtProcessEvent} (guarded : process.Guarded)
    (own : process.OwnCopies event) (stepped : process.step event = some next) : next.Guarded := by
  cases event with
  | server event =>
    obtain ⟨server, moved, rfl⟩ := Option.map_eq_some_iff.mp stepped
    refine ⟨step_wellFormed guarded.formed moved, step_owns guarded.owns own moved,
      step_exclusive guarded.exclusive guarded.formed guarded.owns moved, fun number member => ?_⟩
    obtain ⟨nonneg, unowned⟩ := guarded.foreign number member
    exact ⟨nonneg, step_unowned nonneg unowned guarded.formed guarded.owns moved⟩
  | openFd fd =>
    simp only [step, Option.ite_none_right_eq_some, Option.some.injEq] at stepped
    obtain ⟨⟨nonneg, unopened⟩, rfl⟩ := stepped
    have formed := guarded.formed
    have wider : Exclusive process.server.owner (insert fd process.server.openFds) :=
      ⟨fun key number held => Finset.mem_insert_of_mem (guarded.exclusive.held key number held),
        guarded.exclusive.apart⟩
    refine ⟨⟨formed.size, formed.storing, formed.creating, formed.registered⟩, guarded.owns, wider,
      fun number member => ?_⟩
    rcases Finset.mem_insert.mp member with rfl | before
    · exact ⟨nonneg, unowned_of_owner nonneg (Finset.mem_insert_self _ _) fun key held =>
        unopened (guarded.exclusive.held key _ held)⟩
    · obtain ⟨positive, unowned⟩ := guarded.foreign number before
      exact ⟨positive, Finset.mem_insert_of_mem unowned.opened, unowned.hand, unowned.clients⟩
  | closeFd fd =>
    simp only [step, Option.ite_none_right_eq_some, Option.some.injEq] at stepped
    obtain ⟨mine, rfl⟩ := stepped
    have formed := guarded.formed
    have unheld := (guarded.foreign fd mine).2.owner
    refine ⟨⟨formed.size, formed.storing, formed.creating, formed.registered⟩, guarded.owns,
      guarded.exclusive.close_unheld unheld, fun number member => ?_⟩
    obtain ⟨other, before⟩ := Finset.mem_erase.mp member
    obtain ⟨positive, unowned⟩ := guarded.foreign number before
    exact ⟨positive, Finset.mem_erase.mpr ⟨other, unowned.opened⟩, unowned.hand, unowned.clients⟩

/-- What is kept says that the rest of the process has its descriptors for itself. -/
theorem Guarded.separate (guarded : process.Guarded) : process.Separate := by
  refine ⟨fun number member => (guarded.foreign number member).2.opened, ?_⟩
  intro index client found serving member
  obtain ⟨threaded, started, held⟩ := BtStage.serving_held serving
  have own := guarded.owns index client found threaded started
  exact (guarded.foreign _ member).2.clients index client found held own.symm

/-- The rest of the process has its descriptors for itself. In every run of the accept loop and the
client threads, with the rest of the process opening and closing descriptors at any moment: when
each thread copies the number of its own connection, no descriptor of the rest is closed by the
Bluetooth server, and none is received from. -/
theorem foreign_kept (nSporeSocket : Int) (openFds : Finset Int) (events : List BtProcessEvent)
    (own : EachStep step OwnCopies (start nSporeSocket openFds) events) :
    EachState step Separate (start nSporeSocket openFds) events :=
  eachState_of_invariant (fun _ guarded => Guarded.separate guarded)
    (fun _ _ _ guarded met stepped => step_guarded guarded met stepped)
    (start_guarded nSporeSocket openFds) own

/-- A second connection is accepted behind the copy for the first. -/
def copiedBefore : List BtEvent :=
  registering 7 ++ [.client 0 .readSocket, .main .sleep, .main .check, .main (.accept 8)]

/-- It is accepted in front of the copy. -/
def copiedAfter : List BtEvent :=
  registering 7 ++ [.main .sleep, .main .check, .main (.accept 8), .client 0 .readSocket]

/-- Behind that the second connection breaks, another thread of the process gets its number, and the
first connection breaks. -/
def reusing (accepted : List BtEvent) : List BtProcessEvent :=
  List.map BtProcessEvent.server
      (accepted ++ [.main .getFreeClient, .main .store, .main (.create true)] ++ closingThread 1) ++
    [.openFd 8] ++ List.map BtProcessEvent.server (closingThread 0).tail

/-- The rule when the first thread copies its own number. -/
theorem foreign_kept_reused :
    ∃ final, run step (start 0 {3}) (reusing copiedBefore) = some final ∧
      final.foreign = {3, 8} ∧ final.Separate := by
  have ends : (run step (start 0 {3}) (reusing copiedBefore)).map foreign = some {3, 8} := by decide
  obtain ⟨final, reached, others⟩ := Option.map_eq_some_iff.mp ends
  have own : EachStep step OwnCopies (start 0 {3}) (reusing copiedBefore) := by decide
  have separate := eachState_iff.mp (foreign_kept 0 {3} (reusing copiedBefore) own)
  exact ⟨final, reached, others, separate _ [] final (List.append_nil _).symm reached⟩

/-- When it copies the number of the second connection, it closes what is no longer a connection. -/
theorem foreign_closed :
    ∃ final, run step (start 0 {3}) (reusing copiedAfter) = some final ∧
      8 ∈ final.foreign ∧ 8 ∉ final.server.openFds := by
  have ends : (run step (start 0 {3}) (reusing copiedAfter)).map
      (fun final => decide (8 ∈ final.foreign ∧ 8 ∉ final.server.openFds)) = some true := by decide
  obtain ⟨final, reached, closed⟩ := Option.map_eq_some_iff.mp ends
  have apart := of_decide_eq_true closed
  exact ⟨final, reached, apart.1, apart.2⟩

end BtProcess

/-! ## Descriptors from in front of the loop -/

namespace BtServer

/-- A descriptor is open, and neither `main` nor a thread is about to close its number. -/
structure Spares (number : Int) (server : BtServer) : Prop where
  /-- It is open. -/
  opened : number ∈ server.openFds
  /-- `main` has got another number from `accept`, or none yet. -/
  main : server.nSporeSocket ≠ number ∨ server.clients = [] ∧ server.main.holding = false
  /-- A thread that knows a number knows another. -/
  clients : ∀ (index : Nat) (client : BtClient), server.clients[index]? = some client →
    client.stage.serving → client.nSporeSocket ≠ number

variable {server next : BtServer} {number : Int}

/-- In front of the loop every open descriptor is spared. -/
theorem start_spares (nSporeSocket : Int) {openFds : Finset Int} (opened : number ∈ openFds) :
    (start nSporeSocket openFds).Spares number where
  opened := opened
  main := .inr ⟨rfl, rfl⟩
  clients index client found := by simp [start] at found

/-- With a number in hand, or a client, `main` has got another number. -/
theorem Spares.other (spares : server.Spares number)
    (busy : server.main.holding = true ∨ server.clients ≠ []) : server.nSporeSocket ≠ number := by
  rcases spares.main with other | ⟨nobody, idle⟩
  · exact other
  · rcases busy with holding | somebody
    · rw [idle] at holding
      cases holding
    · exact absurd nobody somebody

/-- A step of a thread that does not come to know the number spares it. -/
theorem Spares.thread (spares : server.Spares number) {index : Nat} {client after : BtClient}
    {openFds : Finset Int} {nSocketList : List Int} (found : server.clients[index]? = some client)
    (opened : number ∈ openFds) (other : after.stage.serving → after.nSporeSocket ≠ number) :
    Spares number { server with
      clients := server.clients.set index after
      openFds := openFds
      nSocketList := nSocketList } where
  opened := opened
  main := .inl (spares.other (.inr fun nobody => by simp [nobody] at found))
  clients place thread lookup serving := by
    rcases Entries.set_cases lookup with ⟨-, rfl⟩ | ⟨-, before⟩
    · exact other serving
    · exact spares.clients place thread before serving

/-- No step closes what was open in front of the loop, whatever number a thread has copied. -/
theorem step_spares {event : BtEvent} (nonneg : 0 ≤ number) (spares : server.Spares number)
    (stepped : step server event = some next) : next.Spares number := by
  cases step_move stepped with
  | signal => exact ⟨spares.opened, spares.main, spares.clients⟩
  | idle before after uncreating failed plain =>
    exact ⟨spares.opened, spares.main.imp_right fun ⟨nobody, _⟩ => ⟨nobody, after⟩, spares.clients⟩
  | refuse waiting =>
    refine ⟨spares.opened, .inl ?_, spares.clients⟩
    intro same
    change -1 = number at same
    omega
  | @accept nSporeSocket waiting positive unopened =>
    refine ⟨Finset.mem_insert_of_mem spares.opened, .inl ?_, spares.clients⟩
    intro same
    change nSporeSocket = number at same
    rw [same] at unopened
    exact unopened spares.opened
  | search searching outcome =>
    exact ⟨spares.opened, .inl (spares.other (.inl (by rw [searching]; rfl))), spares.clients⟩
  | reject rejecting =>
    have other := spares.other (.inl (by rw [rejecting]; rfl))
    exact ⟨Finset.mem_erase.mpr ⟨other.symm, spares.opened⟩, .inl other, spares.clients⟩
  | store storing =>
    refine ⟨spares.opened, .inl (spares.other (.inl (by rw [storing]; rfl))), ?_⟩
    intro index client found serving
    rcases Entries.concat_cases found with ⟨-, rfl⟩ | before
    · cases serving
    · exact spares.clients index client before serving
  | create creating =>
    refine ⟨spares.opened, ?_, ?_⟩
    · exact spares.main.imp_right fun ⟨nobody, _⟩ => ⟨by simp [nobody], rfl⟩
    · intro index client found serving
      rcases Entries.modify_cases found with ⟨-, thread, -, rfl⟩ | ⟨-, before⟩
      · cases serving
      · exact spares.clients index client before serving
  | read found created =>
    have other := spares.other (.inr fun nobody => by simp [nobody] at found)
    exact spares.thread found spares.opened fun _ => other
  | serve found acted plain before onward same =>
    refine spares.thread found spares.opened fun _ => ?_
    rw [same.2.2]
    exact spares.clients _ _ found before
  | @close index client found closing =>
    have other := spares.clients index client found (by rw [closing]; rfl)
    exact spares.thread found (Finset.mem_erase.mpr ⟨other.symm, spares.opened⟩) fun serving => by
      cases serving
  | free found freeing => exact spares.thread found spares.opened fun serving => by cases serving

/-- What was open in front of the loop stays open through every run of it. -/
theorem run_spares {nSporeSocket : Int} {openFds : Finset Int} {events : List BtEvent}
    (reached : run step (start nSporeSocket openFds) events = some server)
    (opened : number ∈ openFds) (nonneg : 0 ≤ number) : number ∈ server.openFds := by
  have spares : server.Spares number :=
    run_invariant (fun _ _ _ spares _ stepped => step_spares nonneg spares stepped)
      (start_spares nSporeSocket opened) (eachStep_of_forall (fun _ _ => trivial) _ events) reached
  exact spares.opened

end BtServer

end MidiDaemon
