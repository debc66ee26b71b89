import MidiDaemon.BluetoothServer
import MidiDaemon.Library.Ownership

/-!
# Does each thread serve its own connection?

A thread copies its socket number from the variable `nSporeSocket` of `main`, which the next
`accept` overwrites, and nothing makes `main` wait for the copy. When `accept` does return only
after every thread has copied its number, each thread serves the connection it was created for
(`hand_off_correct`): `main` and the threads then own the open descriptors, one owner each, and
`main` hands each number over with the slot it stores it in.
-/

namespace MidiDaemon

open Machine Ownership

/-- The connection of the client has not been closed. -/
def BtStage.held : BtStage → Bool
  | .freeing | .released => false
  | _ => true

/-- A thread that serves a connection has been created and has not closed it. -/
theorem BtStage.serving_held {stage : BtStage} (serving : stage.serving) :
    stage ≠ .registered ∧ stage ≠ .created ∧ stage.held := by
  cases stage with
  | registered | created | freeing | released => cases serving
  | preparing | looping | receiving | closing => decide

/-- The number that a client holds: that of its connection, until it is closed. -/
def BtClient.holding (client : BtClient) : Option Int :=
  if client.stage.held ∧ 0 ≤ client.accepted then some client.accepted else none

/-- A connection that is not closed is held. -/
theorem BtClient.holding_held {client : BtClient} (held : client.stage.held)
    (number : 0 ≤ client.accepted) : client.holding = some client.accepted :=
  if_pos ⟨held, number⟩

/-- A connection that is closed is not held, and a failed `accept` gave none. -/
theorem BtClient.holding_none {client : BtClient}
    (unheld : client.stage.held = false ∨ client.accepted < 0) : client.holding = none := by
  refine if_neg fun both => ?_
  rcases unheld with closed | failed
  · rw [closed] at both
    exact Bool.false_ne_true both.1
  · omega

/-- The owners are one that is in hand and those of a list. -/
def owners (hand : Option Int) (held : Nat → Option Int) : Option Nat → Option Int
  | none => hand
  | some index => held index

/-- What is in hand changes for its owner alone. -/
theorem owners_hand (hand after : Option Int) (held : Nat → Option Int) :
    owners after held = Function.update (owners hand held) none after := by
  funext key
  cases key with
  | none => rw [Function.update_self, owners]
  | some index => rw [Function.update_of_ne (by simp), owners, owners]

/-- What one of the list holds changes for that one alone. -/
theorem owners_held (hand : Option Int) (held : Nat → Option Int) (index : Nat)
    (after : Option Int) :
    owners hand (Function.update held index after) =
      Function.update (owners hand held) (some index) after := by
  funext key
  cases key with
  | none => rw [Function.update_of_ne (by simp), owners, owners]
  | some other =>
    by_cases same : other = index
    · rw [same, Function.update_self, owners, Function.update_self]
    · rw [Function.update_of_ne (by simpa using same), owners, owners, Function.update_of_ne same]

namespace BtServer

/-- The number that `main` has in hand between `accept` and storing or closing it. -/
def hand (server : BtServer) : Option Int :=
  if server.main.holding ∧ 0 ≤ server.nSporeSocket then some server.nSporeSocket else none

/-- The owners of open descriptors: `main` and the clients. -/
def owner (server : BtServer) : Option Nat → Option Int :=
  owners server.hand (viewed BtClient.holding server.clients)

variable {server next : BtServer}

/-- Without a number in hand there is none. -/
theorem hand_none (empty : server.main.holding = false ∨ server.nSporeSocket < 0) :
    server.hand = none := by
  refine if_neg fun both => ?_
  rcases empty with elsewhere | failed
  · rw [elsewhere] at both
    exact Bool.false_ne_true both.1
  · omega

/-- The number in hand is that of the variable. -/
theorem hand_some (holding : server.main.holding) (number : 0 ≤ server.nSporeSocket) :
    server.hand = some server.nSporeSocket := if_pos ⟨holding, number⟩

/-- Descriptors are not negative. -/
theorem owner_nonneg {key : Option Nat} {nSporeSocket : Int}
    (owned : server.owner key = some nSporeSocket) : 0 ≤ nSporeSocket := by
  cases key with
  | none =>
    have in_hand : server.hand = some nSporeSocket := owned
    unfold hand at in_hand
    split at in_hand
    · rename_i both
      rw [← Option.some.inj in_hand]
      exact both.2
    · cases in_hand
  | some index =>
    obtain ⟨client, -, holds⟩ := Option.bind_eq_some_iff.mp owned
    unfold BtClient.holding at holds
    split at holds
    · rename_i both
      rw [← Option.some.inj holds]
      exact both.2
    · cases holds

/-- Every step keeps the ownership of descriptors exclusive, as far as threads close their
own numbers. -/
theorem step_exclusive {event : BtEvent} (exclusive : Exclusive server.owner server.openFds)
    (formed : server.WellFormed) (owns : server.Owns) (stepped : step server event = some next) :
    Exclusive next.owner next.openFds := by
  cases step_move stepped with
  | signal => exact exclusive
  | @idle _ stage before after uncreating failed plain =>
    have unchanged : BtServer.owner { server with main := stage } = server.owner := by
      have later : BtServer.hand { server with main := stage } = none := hand_none (.inl after)
      simp only [owner, later, hand_none (.inl before)]
    rw [unchanged]
    exact exclusive
  | refuse waiting =>
    have unchanged : BtServer.owner { server with main := .searching, nSporeSocket := -1 } =
        server.owner := by
      have later : BtServer.hand { server with main := .searching, nSporeSocket := -1 } = none :=
        hand_none (.inr (show (-1 : Int) < 0 by decide))
      have earlier : server.hand = none := hand_none (.inl (by rw [waiting]; rfl))
      simp only [owner, later, earlier]
    rw [unchanged]
    exact exclusive
  | @accept nSporeSocket waiting number unopened =>
    have taken : BtServer.owner { server with
        main := .searching
        nSporeSocket := nSporeSocket
        openFds := insert nSporeSocket server.openFds } =
          Function.update server.owner none (some nSporeSocket) := by
      rw [owner, owner, ← owners_hand, hand_some rfl number]
    rw [taken]
    exact exclusive.acquire unopened
  | @search stage searching outcome =>
    have holding : stage.holding = server.main.holding := by
      rw [searching]
      rcases outcome with rfl | ⟨_, rfl, -⟩ <;> rfl
    have unchanged : BtServer.owner { server with main := stage } = server.owner := by
      simp only [owner, hand, holding]
    rw [unchanged]
    exact exclusive
  | reject rejecting =>
    have dropped : BtServer.owner { server with
        main := .looping
        openFds := server.openFds.erase server.nSporeSocket } =
          Function.update server.owner none none := by
      rw [owner, owner, ← owners_hand, hand_none (.inl rfl)]
    rw [dropped]
    by_cases number : 0 ≤ server.nSporeSocket
    · have in_hand : server.owner none = some server.nSporeSocket :=
        hand_some (by rw [rejecting]; rfl) number
      exact exclusive.release in_hand
    · refine (exclusive.drop none).close_unheld fun key held => ?_
      by_cases same : key = none
      · rw [same, Function.update_self] at held
        cases held
      · rw [Function.update_of_ne same] at held
        exact number (owner_nonneg held)
  | @store nFreeSocketSlot storing =>
    have handed : BtServer.owner { server with
        main := .creating server.clients.length
        nSocketList := server.nSocketList.set nFreeSocketSlot server.nSporeSocket
        clients := server.clients ++
          [⟨server.nSporeSocket, nFreeSocketSlot, .registered, 0, BtReader.start, false⟩] } =
        Function.update (Function.update server.owner none none) (some server.clients.length)
          server.hand := by
      have new : BtClient.holding
          ⟨server.nSporeSocket, nFreeSocketSlot, .registered, 0, BtReader.start, false⟩ =
            server.hand := by
        simp [BtClient.holding, hand, storing, BtStage.held, MainStage.holding]
      rw [owner, viewed_append, new, owners_held, owner, ← owners_hand, hand_none (.inl rfl)]
    rw [handed]
    cases in_hand : server.hand with
    | none => exact (exclusive.drop none).drop _
    | some nSporeSocket =>
      have owned : server.owner none = some nSporeSocket := in_hand
      exact exclusive.hand_over owned _
  | @create index creating =>
    obtain ⟨client, found, waiting, -⟩ := formed.creating index creating
    have unchanged : BtServer.owner { server with
        main := .sleeping
        clients := server.clients.modify index fun client => { client with stage := .created } } =
          server.owner := by
      have later : BtServer.hand { server with
          main := .sleeping
          clients := server.clients.modify index fun client => { client with stage := .created } } =
            none := hand_none (.inl rfl)
      have earlier : server.hand = none := hand_none (.inl (by rw [creating]; rfl))
      have same : BtClient.holding { client with stage := .created } = client.holding := by
        simp [BtClient.holding, waiting, BtStage.held]
      have alike : viewed BtClient.holding (server.clients.modify index
          fun client => { client with stage := .created }) =
            viewed BtClient.holding server.clients := viewed_modify_same found same
      simp only [owner, later, earlier, alike]
    rw [unchanged]
    exact exclusive
  | @read index client found created =>
    have same : BtClient.holding
        { client with nSporeSocket := server.nSporeSocket, stage := .preparing } =
          client.holding := by
      simp [BtClient.holding, created, BtStage.held]
    have unchanged := exclusive
    rw [owner, ← viewed_set_same found same] at unchanged
    exact unchanged
  | @serve index event client after found acted plain before onward same =>
    have held := (BtStage.serving_held before).2.2
    have still_held := (BtStage.serving_held onward).2.2
    have alike : after.holding = client.holding := by
      simp only [BtClient.holding, held, still_held, same.1]
    have unchanged := exclusive
    rw [owner, ← viewed_set_same found alike] at unchanged
    exact unchanged
  | @close index client found closing =>
    have number := owns index client found (by simp [closing]) (by simp [closing])
    have empty : BtClient.holding { client with stage := .freeing } = none :=
      BtClient.holding_none (.inl rfl)
    have closed : BtServer.owner { server with
        clients := server.clients.set index { client with stage := .freeing }
        openFds := server.openFds.erase client.nSporeSocket } =
          Function.update server.owner (some index) none := by
      rw [owner, owner, viewed_set found, empty, owners_held]
      rfl
    rw [closed]
    by_cases opened : 0 ≤ client.accepted
    · have held : server.owner (some index) = some client.nSporeSocket := by
        rw [number]
        have holds := client.holding_held (by rw [closing]; rfl) opened
        simpa [owner, owners, viewed, found] using holds
      exact exclusive.release held
    · refine (exclusive.drop (some index)).close_unheld fun key held => ?_
      by_cases same : key = some index
      · rw [same, Function.update_self] at held
        cases held
      · rw [Function.update_of_ne same, number] at held
        exact opened (owner_nonneg held)
  | @free index client found freeing =>
    have same : BtClient.holding { client with stage := .released } = client.holding := by
      simp [BtClient.holding, freeing, BtStage.held]
    have unchanged := exclusive
    rw [owner, ← viewed_set_same found same] at unchanged
    exact unchanged

/-- `accept` returns only when every thread that was created has copied its socket number. -/
def AcceptsAfterCopies (server : BtServer) : BtEvent → Prop
  | .main (.accept _) => ∀ client ∈ server.clients, client.stage ≠ .created
  | _ => True

instance (server : BtServer) (event : BtEvent) : Decidable (server.AcceptsAfterCopies event) := by
  unfold AcceptsAfterCopies
  split <;> infer_instance

/-- Each thread serves its own connection: a thread that has copied a number knows that of its
connection, no two threads serve the same one, and every registered connection has a thread,
or `main` is creating it, or the process has ended. -/
structure HandedOff (server : BtServer) : Prop where
  /-- A thread knows the number of its connection. -/
  own : server.Owns
  /-- Two threads that serve connections serve different ones. -/
  apart : ∀ (index other : Nat) (client thread : BtClient), server.clients[index]? = some client →
    server.clients[other]? = some thread → client.stage.serving → thread.stage.serving →
    0 ≤ client.nSporeSocket → client.nSporeSocket = thread.nSporeSocket → index = other
  /-- No registered connection is left without a thread. -/
  threaded : ∀ (index : Nat) (client : BtClient), server.clients[index]? = some client →
    client.stage = .registered → server.main = .creating index ∨ server.main = .exited

/-- What a run keeps as long as `accept` returns after the copies. -/
structure HandsOff (server : BtServer) : Prop where
  /-- What every step keeps. -/
  formed : server.WellFormed
  /-- Threads know their own numbers. -/
  owns : server.Owns
  /-- The variable still holds the number of a thread that has not copied it. -/
  pending : ∀ (index : Nat) (client : BtClient), server.clients[index]? = some client →
    client.stage = .created → client.accepted = server.nSporeSocket
  /-- Descriptors have one owner each. -/
  exclusive : Exclusive server.owner server.openFds

/-- `main` in front of its loop owns nothing and has nothing to hand over. -/
theorem start_handsOff (nSporeSocket : Int) (openFds : Finset Int) :
    (start nSporeSocket openFds).HandsOff where
  formed := start_wellFormed nSporeSocket openFds
  owns index client found := by simp [start] at found
  pending index client found := by simp [start] at found
  exclusive := by
    have nobody : (start nSporeSocket openFds).owner = fun _ => none := by
      funext key
      cases key with
      | none =>
        have in_front : (start nSporeSocket openFds).main.holding = false := rfl
        exact hand_none (.inl in_front)
      | some index => simp [owner, owners, viewed, start]
    rw [nobody]
    exact Exclusive.nobody openFds

/-- A thread that is about to copy finds its own number. -/
theorem HandsOff.ownNumber {event : BtEvent} (hands_off : server.HandsOff)
    (stepped : step server event = some next) : OwnNumber server event := by
  unfold OwnNumber
  split
  · rename_i index
    intro client found
    cases step_move stepped with
    | @read _ thread here created =>
      have same : client = thread := Option.some.inj (found.symm.trans here)
      rw [same]
      exact (hands_off.pending index thread here created).symm
    | serve here acted plain before onward same =>
      simp only [BtClient.act] at acted
      split at acted
      · rename_i created
        rw [created] at before
        cases before
      · cases acted
  · trivial

/-- A step after the copies keeps the hand-off correct. -/
theorem step_handsOff {event : BtEvent} (hands_off : server.HandsOff)
    (copied : AcceptsAfterCopies server event) (stepped : step server event = some next) :
    next.HandsOff := by
  refine ⟨step_wellFormed hands_off.formed stepped,
    step_owns hands_off.owns (hands_off.ownNumber stepped) stepped, ?_,
    step_exclusive hands_off.exclusive hands_off.formed hands_off.owns stepped⟩
  intro other thread lookup created
  have pending := hands_off.pending
  cases step_move stepped with
  | signal => exact pending other thread lookup created
  | idle => exact pending other thread lookup created
  | refuse =>
    exact absurd created (copied thread (List.mem_of_getElem? lookup))
  | accept =>
    exact absurd created (copied thread (List.mem_of_getElem? lookup))
  | search => exact pending other thread lookup created
  | reject => exact pending other thread lookup created
  | store =>
    rcases Entries.concat_cases lookup with ⟨-, rfl⟩ | before
    · cases created
    · exact pending other thread before created
  | @create index creating =>
    rcases Entries.modify_cases lookup with ⟨_, client, found, rfl⟩ | ⟨-, before⟩
    · obtain ⟨waiting, here, -, number⟩ := hands_off.formed.creating index creating
      have same : client = waiting := Option.some.inj (found.symm.trans here)
      rw [same]
      exact number
    · exact pending other thread before created
  | read found before =>
    rcases Entries.set_cases lookup with ⟨-, rfl⟩ | ⟨-, earlier⟩
    · cases created
    · exact pending other thread earlier created
  | serve found acted plain before onward same =>
    rcases Entries.set_cases lookup with ⟨-, rfl⟩ | ⟨-, earlier⟩
    · rw [created] at onward
      cases onward
    · exact pending other thread earlier created
  | close found closing =>
    rcases Entries.set_cases lookup with ⟨-, rfl⟩ | ⟨-, earlier⟩
    · cases created
    · exact pending other thread earlier created
  | free found freeing =>
    rcases Entries.set_cases lookup with ⟨-, rfl⟩ | ⟨-, earlier⟩
    · cases created
    · exact pending other thread earlier created

/-- A thread that serves a connection holds its number. -/
theorem HandsOff.serves {index : Nat} {client : BtClient} (hands_off : server.HandsOff)
    (found : server.clients[index]? = some client) (serving : client.stage.serving)
    (number : 0 ≤ client.nSporeSocket) : server.owner (some index) = some client.nSporeSocket := by
  obtain ⟨threaded, started, held⟩ := BtStage.serving_held serving
  have own := hands_off.owns index client found threaded started
  have holds := client.holding_held held (own ▸ number)
  rw [own]
  simpa [owner, owners, viewed, found] using holds

/-- What the run keeps is that each thread serves its own connection. -/
theorem HandsOff.handedOff (hands_off : server.HandsOff) : server.HandedOff where
  own := hands_off.owns
  apart index other client thread found lookup serving also number same := by
    have one := hands_off.serves found serving number
    have two := hands_off.serves lookup also (same ▸ number)
    rw [← same] at two
    exact Option.some.inj (hands_off.exclusive.apart (some index) (some other) _ one two)
  threaded := hands_off.formed.registered

/-- Each thread serves its own connection when `accept` waits for the copies. In every run
in which `accept` returns only after every created thread has copied its number, each thread
serves at every moment the connection it was created for, and nobody else does. -/
theorem hand_off_correct (nSporeSocket : Int) (openFds : Finset Int) (events : List BtEvent)
    (copied : EachStep step AcceptsAfterCopies (start nSporeSocket openFds) events) :
    EachState step HandedOff (start nSporeSocket openFds) events := by
  exact eachState_of_invariant (fun _ holds => HandsOff.handedOff holds)
    (fun _ _ _ holds met stepped => step_handsOff holds met stepped)
    (start_handsOff nSporeSocket openFds) copied

/-- The rule at two connections, the second of which is accepted after the copy for the first. -/
theorem hand_off_turns :
    EachState step HandedOff (start 0 {3})
      (registering 7 ++ [.client 0 .readSocket, .main .sleep] ++ registering 8 ++
        [.client 1 .readSocket]) :=
  hand_off_correct 0 {3} _ (by decide)

/-- A thread that is delayed beyond the next `accept` copies the number of the next connection. -/
theorem hand_off_fails :
    ¬ ∀ (nSporeSocket : Int) (openFds : Finset Int) (events : List BtEvent),
      EachState step HandedOff (start nSporeSocket openFds) events := by
  intro always
  let delayed : List BtEvent := registering 7 ++
    [.main .sleep, .main .check, .main (.accept 8), .client 0 .readSocket]
  have copied : (run step (start 0 ∅) delayed).map (fun server => server.clients[0]?.map
      fun client => (client.stage, client.accepted, client.nSporeSocket)) =
        some (some (.preparing, 7, 8)) := by decide
  obtain ⟨final, reached, lookup⟩ := Option.map_eq_some_iff.mp copied
  obtain ⟨client, found, fields⟩ := Option.map_eq_some_iff.mp lookup
  obtain ⟨stage, rest⟩ := Prod.mk.inj fields
  obtain ⟨accepted, known⟩ := Prod.mk.inj rest
  have handed := eachState_iff.mp (always 0 ∅ delayed) delayed [] final
    (List.append_nil _).symm reached
  have own := handed.own 0 client found (by simp [stage]) (by simp [stage])
  rw [known, accepted] at own
  exact absurd own (by decide)

end BtServer

end MidiDaemon
