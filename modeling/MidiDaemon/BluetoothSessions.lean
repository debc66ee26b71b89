import MidiDaemon.BluetoothDecoding
import MidiDaemon.SharedScratch
import MidiDaemon.SocketHandOff

/-!
# From the Bluetooth clients to their events

The accept loop, the threads one atomic step at a time, the scratch array they share and what is in
flight on the connections, put together. The kernel's side is a number for each connection that
`accept` has returned, the connection behind each open descriptor, and the bytes that were sent on
it and not received. What was sent before `accept` returned is in flight behind it.

Two races are in the way of a client: a thread that copies its socket number late serves the
connection of another, and a thread that moves bytes through `cTemp` meets those of another there.
In a run without them each registered connection has a thread of its own, and what is heard on it
are the frames of what was sent on it, in order, and all of them once everything is received
(`heard_as_sent`).
-/

namespace MidiDaemon

open Machine Framing

/-- The Bluetooth server, its threads and its connections. -/
structure BtSession where
  /-- `main`, the slot table, and where each thread is. -/
  server : BtServer
  /-- The threads in their receive loops, and `cTemp`. -/
  threads : (Nat → ClientThread) × List UInt8
  /-- The connections behind open descriptors. -/
  sockets : Int → Option Nat
  /-- How many connections `accept` has returned. -/
  connected : Nat
  /-- The connection that `accept` has returned last, if it did not fail. -/
  hand : Option Nat
  /-- The connection each thread was created for. -/
  connections : List (Option Nat)
  /-- What has been sent on each connection. -/
  sent : Nat → List UInt8
  /-- What of it has not been received. -/
  flight : Nat → List UInt8
  /-- What `recv` has returned to each thread. -/
  results : Nat → List (List UInt8)

/-- A step of the server or of a client. -/
inductive BtSessionEvent where
  /-- The client behind this descriptor sends bytes. -/
  | send (nSocket : Int) (bytes : List UInt8)
  /-- A step of the server up to `recv`. -/
  | server (event : BtEvent)
  /-- An atomic step of a thread behind `recv`. -/
  | atom (index : Nat)
deriving DecidableEq

namespace BtServer

/-- The variables of a thread are those its atomic steps have left. -/
def withReader (server : BtServer) (index : Nat) (reader : BtReader) : BtServer :=
  { server with
    clients := server.clients.modify index fun client => { client with reader := reader } }

end BtServer

namespace BtSession

/-- `main` in front of its loop, and no connections. -/
def start (nSporeSocket : Int) (openFds : Finset Int) : BtSession where
  server := .start nSporeSocket openFds
  threads := startAll
  sockets := fun _ => none
  connected := 0
  hand := none
  connections := []
  sent := fun _ => []
  flight := fun _ => []
  results := fun _ => []

/-- What a step of `main` does to the connections. -/
def noteMain (session : BtSession) : MainEvent → BtSession
  | .accept nSporeSocket =>
    if nSporeSocket = -1 then { session with hand := none }
    else
      { session with
        sockets := Function.update session.sockets nSporeSocket (some session.connected)
        connected := session.connected + 1
        hand := some session.connected }
  | .close =>
    { session with sockets := Function.update session.sockets session.server.nSporeSocket none }
  | .store => { session with connections := session.connections ++ [session.hand] }
  | _ => session

/-- `recv` on a descriptor returns the first bytes in flight, or the end of the connection behind
the last. -/
def receive (session : BtSession) (index : Nat) (nSporeSocket : Int) (received : List UInt8) :
    Option BtSession :=
  (session.sockets nSporeSocket).bind fun connection =>
    let flight := session.flight connection
    if received = [] then if flight = [] then some session else none
    else if received <+: flight then
      (Interference.step ClientThread.act session.threads (index, some received)).map fun threads =>
        { session with
          threads := threads
          flight := Function.update session.flight connection (flight.drop received.length)
          results := Function.update session.results index (session.results index ++ [received]) }
    else none

/-- What a step of a thread does to the connections. -/
def noteClient (session : BtSession) (index : Nat) (nSporeSocket : Int) :
    ClientEvent → Option BtSession
  | .recv (.data received) => session.receive index nSporeSocket received
  | .close => some { session with sockets := Function.update session.sockets nSporeSocket none }
  | _ => some session

/-- One step. -/
def step (session : BtSession) : BtSessionEvent → Option BtSession
  | .send nSocket bytes =>
    (session.sockets nSocket).map fun connection =>
      { session with
        sent := Function.update session.sent connection (session.sent connection ++ bytes)
        flight := Function.update session.flight connection (session.flight connection ++ bytes) }
  | .atom index =>
    if session.server.main = .exited then none
    else
      (Interference.step ClientThread.act session.threads (index, none)).map fun threads =>
        { session with threads := threads }
  | .server .signal =>
    (session.server.step .signal).map fun server => { session with server := server }
  | .server (.main event) =>
    (session.server.step (.main event)).map fun server =>
      { session.noteMain event with server := server }
  | .server (.client index event) =>
    let thread := session.threads.1 index
    -- A thread goes on when the iteration behind its last `recv` is over.
    if thread.stage = .receiving then
      session.server.clients[index]?.bind fun client =>
        (session.noteClient index client.nSporeSocket event).bind fun after =>
          ((session.server.withReader index thread.reader).step (.client index event)).map
            fun server => { after with server := server }
    else none

/-- Neither race: `accept` returns when every thread has copied its socket number, and no step
changes bytes in `cTemp` that another thread has yet to copy back. -/
def Orderly (session : BtSession) : BtSessionEvent → Prop
  | .server event => session.server.AcceptsAfterCopies event
  | .atom index => ∀ other < session.server.clients.length, other ≠ index →
    ∀ result ∈ (session.threads.1 index).act session.threads.2 none,
      (session.threads.1 other).Sees result.2 session.threads.2
  | .send _ _ => True

instance (session : BtSession) (event : BtSessionEvent) : Decidable (session.Orderly event) := by
  unfold Orderly
  split <;> infer_instance

end BtSession

/-! ## Threads and what they have received -/

namespace ClientThread

variable {thread : ClientThread} {cTemp other : List UInt8} {results : List (List UInt8)}

/-- What a thread is on the way to depends on what it sees of the common array alone. -/
theorem Underway.sees {fresh : BtReader} {before : List (List UInt8)}
    (underway : Underway fresh before thread cTemp) (sees : thread.Sees other cTemp) :
    Underway fresh before thread other := by
  cases stage : thread.stage with
  | clearingBuff nEndSymbolPos =>
    simp only [Sees, liveLength, stage] at sees
    simp only [Underway, stage] at underway ⊢
    rw [sees]
    exact underway
  | copyingBack nEndSymbolPos =>
    simp only [Sees, liveLength, stage] at sees
    simp only [Underway, stage] at underway ⊢
    rw [sees]
    exact underway
  | _ =>
    simp only [Underway, stage] at underway ⊢
    exact underway

/-- So does what it has made of the results of `recv`. -/
theorem Follows.sees (follows : Follows results (thread, cTemp)) (sees : thread.Sees other cTemp) :
    Follows results (thread, other) := by
  obtain ⟨accepted, began | ⟨earlier, received, split, underway⟩⟩ := follows
  · exact ⟨accepted, .inl began⟩
  · exact ⟨accepted, .inr ⟨earlier, received, split, underway.sees sees⟩⟩

/-- In the middle of an iteration its frame is passed on, or it is not yet. -/
theorem Underway.frames {fresh : BtReader} {before : List (List UInt8)}
    (underway : Underway fresh before thread cTemp) :
    thread.frames <+: before ++ (outcome fresh).2.toList := by
  have kept (passed : thread.frames = before) :
      thread.frames <+: before ++ (outcome fresh).2.toList := by
    rw [passed]
    exact List.prefix_append _ _
  cases stage : thread.stage with
  | receiving =>
    simp only [Underway, stage] at underway
    rw [underway.2]
  | clearingFrame =>
    simp only [Underway, stage] at underway
    have whole : (outcome fresh).2 = some thread.reader.cBuff := by
      simp only [outcome, underway.1, Int.sub_self, if_true]
    rw [underway.2, whole]
    exact List.prefix_rfl
  | playing =>
    simp only [Underway, stage] at underway
    exact kept underway.2
  | _ =>
    simp only [Underway, stage] at underway
    exact kept underway.2.1

/-- Nothing else is passed on than the frames of what was received, in order. -/
theorem Follows.frames {state : ClientThread × List UInt8} (follows : Follows results state) :
    state.1.frames <+: (BtReader.start.receiveAll results).2 := by
  obtain ⟨-, ⟨rfl, began⟩ | ⟨earlier, received, rfl, underway⟩⟩ := follows
  · rw [began]
    exact List.nil_prefix
  · rw [BtReader.receiveAll_append]
    simpa [BtReader.receiveAll, receive_eq] using underway.frames

end ClientThread

/-! ## Connections and their threads -/

namespace BtServer

variable {server next : BtServer} {index : Nat} {client : BtClient}

/-- A connection that is not closed is owned by its client. -/
theorem owner_held (found : server.clients[index]? = some client) (held : client.stage.held)
    (number : 0 ≤ client.accepted) : server.owner (some index) = some client.accepted := by
  have holds := client.holding_held held number
  simpa [owner, owners, viewed, found] using holds

/-- A client with other variables of its receive loop is the same otherwise. -/
theorem withReader_lookup {reader : BtReader} {other : Nat} {found : BtClient}
    (lookup : (server.withReader index reader).clients[other]? = some found) :
    ∃ client, server.clients[other]? = some client ∧ found.accepted = client.accepted ∧
      found.stage = client.stage ∧ found.nSporeSocket = client.nSporeSocket := by
  rcases Entries.modify_cases lookup with ⟨rfl, client, before, rfl⟩ | ⟨-, before⟩
  · exact ⟨client, before, rfl, rfl, rfl⟩
  · exact ⟨found, before, rfl, rfl, rfl⟩

/-- Every client is there with them. -/
theorem lookup_withReader {reader : BtReader} {other : Nat}
    (found : server.clients[other]? = some client) :
    ∃ after, (server.withReader index reader).clients[other]? = some after ∧
      after.accepted = client.accepted ∧ after.stage = client.stage ∧
      after.nSporeSocket = client.nSporeSocket := by
  by_cases same : other = index
  · subst same
    refine ⟨{ client with reader := reader }, ?_, rfl, rfl, rfl⟩
    rw [withReader, List.getElem?_modify_eq, found]
    rfl
  · refine ⟨client, ?_, rfl, rfl, rfl⟩
    rw [withReader, List.getElem?_modify_ne _ _ (Ne.symm same)]
    exact found

/-- The variables of the receive loop do not matter to the hand-off. -/
theorem HandsOff.withReader (hands_off : server.HandsOff) (index : Nat) (reader : BtReader) :
    (server.withReader index reader).HandsOff where
  formed := by
    refine ⟨hands_off.formed.size, hands_off.formed.storing, ?_, ?_⟩
    · intro other creating
      obtain ⟨client, found, stage, number⟩ := hands_off.formed.creating other creating
      obtain ⟨after, lookup, accepted, later, -⟩ := lookup_withReader found
      exact ⟨after, lookup, later.trans stage, accepted.trans number⟩
    · intro other after lookup stage
      obtain ⟨client, found, -, later, -⟩ := withReader_lookup lookup
      exact hands_off.formed.registered other client found (later.symm.trans stage)
  owns other after lookup threaded started := by
    obtain ⟨client, found, accepted, stage, number⟩ := withReader_lookup lookup
    rw [stage] at threaded started
    rw [number, accepted]
    exact hands_off.owns other client found threaded started
  pending other after lookup created := by
    obtain ⟨client, found, accepted, stage, -⟩ := withReader_lookup lookup
    rw [accepted]
    exact hands_off.pending other client found (stage.symm.trans created)
  exclusive := by
    have same : (server.withReader index reader).owner = server.owner := by
      funext key
      cases key with
      | none => rfl
      | some other =>
        show viewed BtClient.holding (server.clients.modify index _) other =
          viewed BtClient.holding server.clients other
        rw [viewed, viewed, List.getElem?_modify]
        cases server.clients[other]? with
        | none => rfl
        | some client =>
          by_cases here : index = other
          · simp [here, BtClient.holding]
          · simp [here]
    rw [same]
    exact hands_off.exclusive

end BtServer

/-- Which thread has which connection: each connection that is not closed is behind its descriptor,
in the hand of `main` or with the one client it was registered for. -/
structure Linked (server : BtServer) (sockets : Int → Option Nat) (connected : Nat)
    (hand : Option Nat) (connections : List (Option Nat)) : Prop where
  /-- Each thread serves its own connection. -/
  handsOff : server.HandsOff
  /-- Each client was registered for a connection, or for a failure. -/
  size : connections.length = server.clients.length
  /-- Descriptors are not negative, and the connections behind them have been returned. -/
  numbered : ∀ nSocket connection, sockets nSocket = some connection →
    0 ≤ nSocket ∧ connection < connected
  /-- A connection that was registered has been returned. -/
  registered : ∀ connection, some connection ∈ connections → connection < connected
  /-- It was registered for one client. -/
  distinct : ∀ index other connection : Nat, connections[index]? = some (some connection) →
    connections[other]? = some (some connection) → index = other
  /-- Until it is closed it is behind the number of this client. -/
  held : ∀ (index : Nat) (client : BtClient), server.clients[index]? = some client →
    client.stage.held → 0 ≤ client.accepted → ∃ connection : Nat,
      connections[index]? = some (some connection) ∧ sockets client.accepted = some connection
  /-- A failure is no connection. -/
  failed : ∀ (index : Nat) (client : BtClient), server.clients[index]? = some client →
    client.accepted < 0 → connections[index]? = some none
  /-- The connection in hand is behind the number in hand, and not registered. -/
  inHand : server.main.holding → 0 ≤ server.nSporeSocket → ∃ connection, hand = some connection ∧
    sockets server.nSporeSocket = some connection ∧ connection < connected ∧
      some connection ∉ connections
  /-- A failure in hand is no connection. -/
  failedHand : server.main.holding → server.nSporeSocket < 0 → hand = none

namespace Linked

variable {server next : BtServer} {sockets : Int → Option Nat} {connected : Nat}
  {hand : Option Nat} {connections : List (Option Nat)}

/-- The number that a client holds is not the one in hand. -/
theorem apart_hand (linked : Linked server sockets connected hand connections) {index : Nat}
    {client : BtClient} (found : server.clients[index]? = some client) (held : client.stage.held)
    (number : 0 ≤ client.accepted) (holding : server.main.holding) :
    client.accepted ≠ server.nSporeSocket := by
  intro same
  have mine := BtServer.owner_held found held number
  have mains : server.owner none = some client.accepted := by
    rw [same] at number ⊢
    exact BtServer.hand_some holding number
  cases linked.handsOff.exclusive.apart _ _ _ mine mains

/-- A connection in hand has not been registered. -/
theorem hand_fresh (linked : Linked server sockets connected hand connections) {connection : Nat}
    (holding : server.main.holding) (in_hand : hand = some connection) :
    connection < connected ∧ some connection ∉ connections := by
  by_cases positive : 0 ≤ server.nSporeSocket
  · obtain ⟨one, same, -, fresh⟩ := linked.inHand holding positive
    rw [Option.some.inj (in_hand.symm.trans same)]
    exact fresh
  · rw [linked.failedHand holding (by omega)] at in_hand
    cases in_hand

/-- What is behind a descriptor when another is closed was there before. -/
theorem dropped {nSocket number : Int} {connection : Nat}
    (behind : Function.update sockets number none nSocket = some connection) :
    nSocket ≠ number ∧ sockets nSocket = some connection := by
  by_cases same : nSocket = number
  · rw [same, Function.update_self] at behind
    cases behind
  · rw [Function.update_of_ne same] at behind
    exact ⟨same, behind⟩

/-- A descriptor that is closed is not one that another client or `main` holds. -/
theorem stay {after : Int → Option Nat} (linked : Linked server sockets connected hand connections)
    (hands_off : next.HandsOff) (size : next.clients.length = server.clients.length)
    (closed : ∀ nSocket connection, after nSocket = some connection →
      sockets nSocket = some connection)
    (kept : ∀ (index : Nat) (found : BtClient), next.clients[index]? = some found →
      ∃ client, server.clients[index]? = some client ∧ found.accepted = client.accepted ∧
        (found.stage.held → client.stage.held ∧
          (0 ≤ client.accepted → after client.accepted = sockets client.accepted)))
    (in_hand : next.main.holding → server.main.holding ∧ next.nSporeSocket = server.nSporeSocket ∧
      (0 ≤ server.nSporeSocket → after server.nSporeSocket = sockets server.nSporeSocket)) :
    Linked next after connected hand connections where
  handsOff := hands_off
  size := by rw [size, linked.size]
  numbered nSocket connection behind := linked.numbered nSocket connection (closed _ _ behind)
  registered := linked.registered
  distinct := linked.distinct
  held index found lookup held number := by
    obtain ⟨client, before, same, keeps⟩ := kept index found lookup
    have ⟨held_before, behind⟩ := keeps held
    rw [same] at number ⊢
    rw [behind number]
    exact linked.held index client before held_before number
  failed index found lookup number := by
    obtain ⟨client, before, same, -⟩ := kept index found lookup
    exact linked.failed index client before (same ▸ number)
  inHand holding number := by
    have ⟨before, same, behind⟩ := in_hand holding
    rw [same] at number ⊢
    rw [behind number]
    exact linked.inHand before number
  failedHand holding number := by
    have ⟨before, same, _⟩ := in_hand holding
    exact linked.failedHand before (same ▸ number)

/-- What is not changed stays. -/
theorem same_clients (linked : Linked server sockets connected hand connections)
    (hands_off : next.HandsOff) (same : next.clients = server.clients)
    (in_hand : next.main.holding → server.main.holding ∧ next.nSporeSocket = server.nSporeSocket) :
    Linked next sockets connected hand connections := by
  apply linked.stay hands_off (by rw [same]) (fun _ _ behind => behind)
  · intro index found lookup
    exact ⟨found, by rw [← same]; exact lookup, rfl, fun held => ⟨held, fun _ => rfl⟩⟩
  · intro holding
    exact ⟨(in_hand holding).1, (in_hand holding).2, fun _ => rfl⟩

/-- `accept` puts a new connection in the hand of `main`. -/
theorem accept {nSporeSocket : Int} (linked : Linked server sockets connected hand connections)
    (hands_off : next.HandsOff) (same : next.clients = server.clients)
    (number : next.nSporeSocket = nSporeSocket) (positive : 0 ≤ nSporeSocket)
    (unopened : nSporeSocket ∉ server.openFds) :
    Linked next (Function.update sockets nSporeSocket (some connected)) (connected + 1)
      (some connected) connections where
  handsOff := hands_off
  size := by rw [same, linked.size]
  numbered nSocket connection behind := by
    by_cases new : nSocket = nSporeSocket
    · rw [new, Function.update_self] at behind
      rw [new, ← Option.some.inj behind]
      exact ⟨positive, Nat.lt_succ_self _⟩
    · rw [Function.update_of_ne new] at behind
      have ⟨old, below⟩ := linked.numbered nSocket connection behind
      exact ⟨old, Nat.lt_succ_of_lt below⟩
  registered connection member := Nat.lt_succ_of_lt (linked.registered connection member)
  distinct := linked.distinct
  held index client found held old := by
    rw [same] at found
    have owned := BtServer.owner_held found held old
    have differ : client.accepted ≠ nSporeSocket := by
      intro one
      rw [one] at owned
      exact unopened (linked.handsOff.exclusive.held _ _ owned)
    rw [Function.update_of_ne differ]
    exact linked.held index client found held old
  failed index client found negative := linked.failed index client (same ▸ found) negative
  inHand _ _ := by
    refine ⟨connected, rfl, ?_, Nat.lt_succ_self _, fun member => ?_⟩
    · rw [number, Function.update_self]
    · exact Nat.lt_irrefl _ (linked.registered connected member)
  failedHand _ negative := by
    rw [number] at negative
    omega

/-- A step of `main` registers the connection in its hand. -/
theorem store {client : BtClient} (linked : Linked server sockets connected hand connections)
    (hands_off : next.HandsOff) (new : next.clients = server.clients ++ [client])
    (number : client.accepted = server.nSporeSocket) (holding : server.main.holding)
    (stored : next.main.holding = false) :
    Linked next sockets connected hand (connections ++ [hand]) where
  handsOff := hands_off
  size := by rw [new, List.length_append, List.length_append, linked.size]; rfl
  numbered := linked.numbered
  registered connection member := by
    rcases List.mem_append.mp member with before | last
    · exact linked.registered connection before
    · exact (linked.hand_fresh holding (List.mem_singleton.mp last).symm).1
  distinct index other connection found also := by
    have unregistered : ∀ position : Nat, connections[position]? = some (some connection) →
        hand ≠ some connection := fun position place in_hand =>
      (linked.hand_fresh holding in_hand).2 (List.mem_of_getElem? place)
    rcases Entries.concat_cases found with ⟨here, in_hand⟩ | early
    · rcases Entries.concat_cases also with ⟨there, _⟩ | earlier
      · rw [here, there]
      · exact absurd in_hand.symm (unregistered other earlier)
    · rcases Entries.concat_cases also with ⟨_, in_hand⟩ | earlier
      · exact absurd in_hand.symm (unregistered index early)
      · exact linked.distinct index other connection early earlier
  held index found lookup held positive := by
    rw [new] at lookup
    rcases Entries.concat_cases lookup with ⟨last, rfl⟩ | before
    · rw [number] at positive ⊢
      obtain ⟨connection, in_hand, behind, -⟩ := linked.inHand holding positive
      refine ⟨connection, ?_, behind⟩
      rw [last, ← linked.size, List.getElem?_concat_length, in_hand]
    · obtain ⟨connection, place, behind⟩ := linked.held index found before held positive
      have inside := (List.getElem?_eq_some_iff.mp place).1
      exact ⟨connection, by rw [List.getElem?_append_left inside]; exact place, behind⟩
  failed index found lookup negative := by
    rw [new] at lookup
    rcases Entries.concat_cases lookup with ⟨last, rfl⟩ | before
    · rw [number] at negative
      rw [last, ← linked.size, List.getElem?_concat_length, linked.failedHand holding negative]
    · have place := linked.failed index found before negative
      have inside := (List.getElem?_eq_some_iff.mp place).1
      rw [List.getElem?_append_left inside]
      exact place
  inHand still := by simp [stored] at still
  failedHand still := by simp [stored] at still

/-- A step of `main` keeps connections and threads linked. -/
theorem main {session after : BtSession} {event : MainEvent}
    (linked : Linked session.server session.sockets session.connected session.hand
      session.connections)
    (copied : session.server.AcceptsAfterCopies (.main event))
    (stepped : session.server.step (.main event) = some next)
    (noted : session.noteMain event = after) :
    Linked next after.sockets after.connected after.hand after.connections := by
  have hands_off := BtServer.step_handsOff linked.handsOff copied stepped
  subst noted
  cases BtServer.step_move stepped with
  | idle before after uncreating failed plain =>
    have same : session.noteMain event = session := by
      rcases plain with rfl | rfl | rfl <;> rfl
    rw [same]
    apply linked.same_clients hands_off rfl
    intro holding
    rw [after] at holding
    cases holding
  | refuse waiting =>
    refine ⟨hands_off, linked.size, linked.numbered, linked.registered, linked.distinct,
      linked.held, linked.failed, ?_, fun _ _ => rfl⟩
    intro _ positive
    exact absurd positive (show ¬ (0 : Int) ≤ -1 by decide)
  | @accept nSporeSocket waiting number unopened =>
    have real : nSporeSocket ≠ -1 := by omega
    simp only [BtSession.noteMain, if_neg real]
    exact linked.accept hands_off rfl rfl number unopened
  | search searching outcome =>
    apply linked.same_clients hands_off rfl
    intro _
    exact ⟨by rw [searching]; rfl, rfl⟩
  | reject rejecting =>
    have holding : session.server.main.holding := by
      rw [rejecting]
      rfl
    apply linked.stay hands_off rfl
    · intro nSocket connection behind
      exact (dropped behind).2
    · intro index found lookup
      refine ⟨found, lookup, rfl, fun held => ⟨held, fun number => ?_⟩⟩
      exact Function.update_of_ne (linked.apart_hand lookup held number holding) ..
    · intro still
      cases still
  | store storing =>
    exact linked.store hands_off rfl rfl (by rw [storing]; rfl) rfl
  | @create created creating =>
    apply linked.stay hands_off (List.length_modify ..) (fun _ _ behind => behind)
    · intro index found lookup
      rcases Entries.modify_cases lookup with ⟨rfl, client, before, rfl⟩ | ⟨-, before⟩
      · obtain ⟨waiting, here, stage, -⟩ := linked.handsOff.formed.creating index creating
        have same : client = waiting := Option.some.inj (before.symm.trans here)
        refine ⟨client, before, rfl, fun _ => ⟨?_, fun _ => rfl⟩⟩
        rw [same, stage]
        rfl
      · exact ⟨found, before, rfl, fun held => ⟨held, fun _ => rfl⟩⟩
    · intro holding
      cases holding

/-- They are linked whatever the variables of the receive loop are. -/
theorem withReader (linked : Linked server sockets connected hand connections) (index : Nat)
    (reader : BtReader) :
    Linked (server.withReader index reader) sockets connected hand connections := by
  apply linked.stay (linked.handsOff.withReader index reader) (List.length_modify ..)
    (fun _ _ behind => behind)
  · intro other after lookup
    obtain ⟨client, found, accepted, stage, -⟩ := BtServer.withReader_lookup lookup
    exact ⟨client, found, accepted, fun held => ⟨by rw [← stage]; exact held, fun _ => rfl⟩⟩
  · exact fun holding => ⟨holding, rfl, fun _ => rfl⟩

/-- A thread that acts otherwise than by closing changes no connection. -/
theorem set_client {index : Nat} {client changed : BtClient}
    (linked : Linked server sockets connected hand connections) (hands_off : next.HandsOff)
    (found : server.clients[index]? = some client)
    (clients : next.clients = server.clients.set index changed)
    (main : next.main = server.main ∧ next.nSporeSocket = server.nSporeSocket)
    (accepted : changed.accepted = client.accepted)
    (held : changed.stage.held → client.stage.held) :
    Linked next sockets connected hand connections := by
  apply linked.stay hands_off (by rw [clients, List.length_set]) (fun _ _ behind => behind)
  · intro other after lookup
    rw [clients] at lookup
    rcases Entries.set_cases lookup with ⟨rfl, rfl⟩ | ⟨-, before⟩
    · exact ⟨client, found, accepted, fun still => ⟨held still, fun _ => rfl⟩⟩
    · exact ⟨after, before, rfl, fun still => ⟨still, fun _ => rfl⟩⟩
  · intro holding
    rw [main.1] at holding
    exact ⟨holding, main.2, fun _ => rfl⟩

/-- A thread closes its own connection and no other. -/
theorem close_client {index : Nat} {client : BtClient}
    (linked : Linked server sockets connected hand connections) (hands_off : next.HandsOff)
    (found : server.clients[index]? = some client) (closing : client.stage = .closing)
    (clients : next.clients = server.clients.set index { client with stage := .freeing })
    (main : next.main = server.main ∧ next.nSporeSocket = server.nSporeSocket) :
    Linked next (Function.update sockets client.nSporeSocket none) connected hand connections := by
  have own := linked.handsOff.owns index client found (by simp [closing]) (by simp [closing])
  have held : client.stage.held := by
    rw [closing]
    rfl
  apply linked.stay hands_off (by rw [clients, List.length_set])
    (fun _ _ behind => (dropped behind).2)
  · intro other after lookup
    rw [clients] at lookup
    rcases Entries.set_cases lookup with ⟨rfl, rfl⟩ | ⟨differ, before⟩
    · exact ⟨client, found, rfl, fun still => by cases still⟩
    · refine ⟨after, before, rfl, fun still => ⟨still, fun positive => ?_⟩⟩
      have apart : after.accepted ≠ client.nSporeSocket := by
        intro same
        have mine := BtServer.owner_held before still positive
        rw [same, own] at mine positive
        have others := BtServer.owner_held found held positive
        have one := linked.handsOff.exclusive.apart _ _ _ mine others
        exact differ (Option.some.inj one)
      exact Function.update_of_ne apart ..
  · intro holding
    rw [main.1] at holding
    refine ⟨holding, main.2, fun positive => ?_⟩
    have apart : server.nSporeSocket ≠ client.nSporeSocket := by
      intro same
      rw [same, own] at positive
      exact linked.apart_hand found held positive holding (own.symm.trans same.symm)
    exact Function.update_of_ne apart ..

/-- A step of a thread keeps connections and threads linked. -/
theorem client {index : Nat} {event : ClientEvent} {thread : BtClient}
    (linked : Linked server sockets connected hand connections)
    (found : server.clients[index]? = some thread)
    (stepped : server.step (.client index event) = some next) :
    Linked next
      (if event = .close then Function.update sockets thread.nSporeSocket none else sockets)
      connected hand connections := by
  have admitted : server.AcceptsAfterCopies (.client index event) := trivial
  have hands_off := BtServer.step_handsOff linked.handsOff admitted stepped
  cases BtServer.step_move stepped with
  | read here created =>
    rw [if_neg (by simp)]
    exact linked.set_client hands_off here rfl ⟨rfl, rfl⟩ rfl (fun _ => by rw [created]; rfl)
  | serve here acted plain before onward same =>
    have open_still : event ≠ .close := by
      rintro rfl
      simp only [BtClient.act, Option.ite_none_right_eq_some, Option.some.injEq] at acted
      rw [← acted.2] at onward
      cases onward
    rw [if_neg open_still]
    exact linked.set_client hands_off here rfl ⟨rfl, rfl⟩ same.1
      (fun _ => (BtStage.serving_held before).2.2)
  | close here closing =>
    rw [if_pos rfl, Option.some.inj (found.symm.trans here)]
    exact linked.close_client hands_off here closing rfl ⟨rfl, rfl⟩
  | free here freeing =>
    rw [if_neg (by simp)]
    exact linked.set_client hands_off here rfl ⟨rfl, rfl⟩ rfl (fun still => by cases still)

end Linked

/-! ## What is sent is received and heard -/

namespace BtSession

variable {session next : BtSession}

/-- What a step of `main` leaves as it is, and the registration of the connection in hand. -/
theorem noteMain_cases (session : BtSession) (event : MainEvent) :
    (session.noteMain event).threads = session.threads ∧
    (session.noteMain event).sent = session.sent ∧
    (session.noteMain event).flight = session.flight ∧
    (session.noteMain event).results = session.results ∧
    ((session.noteMain event).connections = session.connections ∨
      event = .store ∧
        (session.noteMain event).connections = session.connections ++ [session.hand]) := by
  cases event with
  | accept nSporeSocket =>
    by_cases failed : nSporeSocket = -1
    · simp [noteMain, failed]
    · simp [noteMain, failed]
  | store => exact ⟨rfl, rfl, rfl, rfl, .inr ⟨rfl, rfl⟩⟩
  | _ => exact ⟨rfl, rfl, rfl, rfl, .inl rfl⟩

/-- What a step of a thread changes: bytes are received, or a descriptor is closed. -/
theorem noteClient_cases {index : Nat} {nSporeSocket : Int} {event : ClientEvent}
    {after : BtSession} (noted : session.noteClient index nSporeSocket event = some after) :
    (after.connected = session.connected ∧ after.hand = session.hand ∧
      after.connections = session.connections ∧ after.sent = session.sent ∧
      after.sockets = if event = .close then Function.update session.sockets nSporeSocket none
        else session.sockets) ∧
    ((after.threads = session.threads ∧ after.flight = session.flight ∧
        after.results = session.results) ∨
      ∃ received connection rest, event = .recv (.data received) ∧
        session.sockets nSporeSocket = some connection ∧
        session.flight connection = received ++ rest ∧
        Interference.step ClientThread.act session.threads (index, some received) =
          some after.threads ∧
        after.flight = Function.update session.flight connection rest ∧
        after.results = Function.update session.results index
          (session.results index ++ [received])) := by
  cases event with
  | recv result =>
    cases result with
    | failed =>
      obtain rfl := Option.some.inj noted
      exact ⟨⟨rfl, rfl, rfl, rfl, rfl⟩, .inl ⟨rfl, rfl, rfl⟩⟩
    | data received =>
      obtain ⟨connection, behind, onward⟩ := Option.bind_eq_some_iff.mp noted
      simp only at onward
      split at onward
      · simp only [Option.ite_none_right_eq_some, Option.some.injEq] at onward
        rw [← onward.2]
        exact ⟨⟨rfl, rfl, rfl, rfl, rfl⟩, .inl ⟨rfl, rfl, rfl⟩⟩
      · simp only [Option.ite_none_right_eq_some] at onward
        obtain ⟨⟨rest, split⟩, onward⟩ := onward
        obtain ⟨threads, moved, rfl⟩ := Option.map_eq_some_iff.mp onward
        refine ⟨⟨rfl, rfl, rfl, rfl, rfl⟩,
          .inr ⟨received, connection, rest, rfl, behind, split.symm, moved, ?_, rfl⟩⟩
        rw [← split, List.drop_left]
  | close =>
    obtain rfl := Option.some.inj noted
    exact ⟨⟨rfl, rfl, rfl, rfl, rfl⟩, .inl ⟨rfl, rfl, rfl⟩⟩
  | _ =>
    obtain rfl := Option.some.inj noted
    exact ⟨⟨rfl, rfl, rfl, rfl, rfl⟩, .inl ⟨rfl, rfl, rfl⟩⟩

/-- What holds in a run without the races. -/
structure Carries (session : BtSession) : Prop where
  /-- Each thread has its connection. -/
  linked : Linked session.server session.sockets session.connected session.hand session.connections
  /-- What is sent on a registered connection is received by its thread or in flight. -/
  balanced : ∀ index connection : Nat, session.connections[index]? = some (some connection) →
    session.sent connection = (session.results index).flatten ++ session.flight connection
  /-- What is sent on another is in flight. -/
  waiting : ∀ connection, some connection ∉ session.connections →
    session.sent connection = session.flight connection
  /-- Threads are inside their arrays. -/
  placed : ∀ index, (session.threads.1 index).Placed
  /-- Each thread has come as far as what it has received brings it. -/
  follows : ∀ index,
    ClientThread.Follows (session.results index) (session.threads.1 index, session.threads.2)
  /-- A thread that is not yet created has received nothing. -/
  unstarted : ∀ index, session.server.clients.length ≤ index →
    session.threads.1 index = ClientThread.start ∧ session.results index = []

/-- In front of the loop there is nothing to carry. -/
theorem start_carries (nSporeSocket : Int) (openFds : Finset Int) :
    (start nSporeSocket openFds).Carries where
  linked := by
    refine ⟨BtServer.start_handsOff nSporeSocket openFds, rfl, ?_, ?_, ?_, ?_, ?_, ?_, ?_⟩
    all_goals simp [start, BtServer.start, MainStage.holding]
  balanced index connection found := by simp [start] at found
  waiting _ _ := rfl
  placed _ := ClientThread.start_placed
  follows _ := ⟨trivial, .inl ⟨rfl, rfl⟩⟩
  unstarted _ _ := ⟨rfl, rfl⟩

/-- Only a thread that moves bytes back depends on `cTemp`, and `recv` does not write there. -/
theorem act_received {thread : ClientThread} {cTemp received : List UInt8}
    {result : ClientThread × List UInt8}
    (acted : thread.act cTemp (some received) = some result) : result.2 = cTemp := by
  simp only [ClientThread.act, Option.ite_none_right_eq_some, Option.some.injEq] at acted
  rw [← acted.2]

/-- A client sends. -/
theorem Carries.send (carries : session.Carries) (connection : Nat) (bytes : List UInt8) :
    Carries { session with
      sent := Function.update session.sent connection (session.sent connection ++ bytes)
      flight := Function.update session.flight connection
        (session.flight connection ++ bytes) } where
  linked := carries.linked
  balanced index other found := by
    have before := carries.balanced index other found
    show Function.update session.sent connection _ other =
      (session.results index).flatten ++ Function.update session.flight connection _ other
    by_cases same : other = connection
    · rw [same] at before ⊢
      rw [Function.update_self, Function.update_self, before, List.append_assoc]
    · rw [Function.update_of_ne same, Function.update_of_ne same]
      exact before
  waiting other unregistered := by
    have before := carries.waiting other unregistered
    show Function.update session.sent connection _ other =
      Function.update session.flight connection _ other
    by_cases same : other = connection
    · rw [same] at before ⊢
      rw [Function.update_self, Function.update_self, before]
    · rw [Function.update_of_ne same, Function.update_of_ne same]
      exact before
  placed := carries.placed
  follows := carries.follows
  unstarted := carries.unstarted

/-- A thread takes an atomic step behind `recv`. -/
theorem Carries.atom (carries : session.Carries) {index : Nat}
    {threads : (Nat → ClientThread) × List UInt8} (orderly : session.Orderly (.atom index))
    (moved : Interference.step ClientThread.act session.threads (index, none) = some threads) :
    Carries { session with threads := threads } := by
  obtain ⟨result, acted, own, others, store⟩ := Interference.step_cases moved
  have created : index < session.server.clients.length := by
    by_contra outside
    rw [(carries.unstarted index (by omega)).1] at acted
    cases acted
  refine ⟨carries.linked, carries.balanced, carries.waiting, fun other => ?_, fun other => ?_,
    fun other outside => ?_⟩
  · by_cases mine : other = index
    · rw [mine, own]
      exact ClientThread.act_placed _ _ none result (carries.placed index) acted
    · rw [others other mine]
      exact carries.placed other
  · by_cases mine : other = index
    · have onward := ClientThread.act_follows (carries.placed index) (carries.follows index) acted
      rw [Option.toList_none, List.append_nil] at onward
      rw [mine, own, store]
      exact onward
    · rw [others other mine, store]
      by_cases known : other < session.server.clients.length
      · exact (carries.follows other).sees (orderly other known mine result acted)
      · obtain ⟨fresh, nothing⟩ := carries.unstarted other (by omega)
        rw [fresh, nothing]
        exact ⟨trivial, .inl ⟨rfl, rfl⟩⟩
  · have mine : other ≠ index := by
      have outside : session.server.clients.length ≤ other := outside
      omega
    rw [others other mine]
    exact carries.unstarted other outside

/-- `main` takes a step. -/
theorem Carries.main (carries : session.Carries) {event : MainEvent} {server : BtServer}
    (orderly : session.server.AcceptsAfterCopies (.main event))
    (stepped : session.server.step (.main event) = some server) :
    Carries { session.noteMain event with server := server } := by
  have linked := carries.linked.main orderly stepped rfl
  obtain ⟨threads, sent, flight, results, registered⟩ := session.noteMain_cases event
  have grown : session.server.clients.length ≤ server.clients.length := by
    have before := carries.linked.size
    have after := linked.size
    rcases registered with same | ⟨-, same⟩
    · rw [same] at after
      omega
    · rw [same, List.length_append] at after
      omega
  refine ⟨linked, fun index connection found => ?_, fun connection unregistered => ?_,
    fun index => ?_, fun index => ?_, fun index outside => ?_⟩
  · show (session.noteMain event).sent connection =
      ((session.noteMain event).results index).flatten ++ (session.noteMain event).flight connection
    rw [sent, flight, results]
    rcases registered with same | ⟨rfl, same⟩
    · exact carries.balanced index connection (same ▸ found)
    · have found : (session.noteMain .store).connections[index]? = some (some connection) := found
      rw [same] at found
      rcases Entries.concat_cases found with ⟨last, in_hand⟩ | before
      · -- Nothing has been received on the connection in hand.
        have fresh := (carries.unstarted index (by rw [last, carries.linked.size])).2
        rw [fresh, List.flatten_nil, List.nil_append]
        apply carries.waiting
        have holding : session.server.main.holding := by
          cases BtServer.step_move stepped with
          | store storing =>
            rw [storing]
            rfl
          | idle before after uncreating failed plain => simp at plain
        exact (carries.linked.hand_fresh holding in_hand.symm).2
      · exact carries.balanced index connection before
  · show (session.noteMain event).sent connection = (session.noteMain event).flight connection
    rw [sent, flight]
    apply carries.waiting
    intro member
    apply unregistered
    show some connection ∈ (session.noteMain event).connections
    rcases registered with same | ⟨-, same⟩
    · rw [same]
      exact member
    · rw [same]
      exact List.mem_append_left _ member
  · show ((session.noteMain event).threads.1 index).Placed
    rw [threads]
    exact carries.placed index
  · show ClientThread.Follows ((session.noteMain event).results index)
      ((session.noteMain event).threads.1 index, (session.noteMain event).threads.2)
    rw [threads, results]
    exact carries.follows index
  · show (session.noteMain event).threads.1 index = _ ∧ (session.noteMain event).results index = []
    rw [threads, results]
    exact carries.unstarted index (Nat.le_trans grown outside)

/-- A thread takes a step up to `recv`. -/
theorem Carries.client (carries : session.Carries) {index : Nat} {event : ClientEvent}
    {client : BtClient} {after : BtSession} {server : BtServer}
    (found : session.server.clients[index]? = some client)
    (noted : session.noteClient index client.nSporeSocket event = some after)
    (stepped : (session.server.withReader index (session.threads.1 index).reader).step
      (.client index event) = some server) :
    Carries { after with server := server } := by
  obtain ⟨twin, lookup, accepted, stage, number⟩ := BtServer.lookup_withReader found
  have linked := (carries.linked.withReader index _).client lookup stepped
  obtain ⟨⟨connected, hand, connections, sent, sockets⟩, changed⟩ := noteClient_cases noted
  rw [number, ← sockets, ← connected, ← hand, ← connections] at linked
  have grown : server.clients.length = session.server.clients.length := by
    have before := carries.linked.size
    have later := linked.size
    rw [connections] at later
    omega
  have inside := (List.getElem?_eq_some_iff.mp found).1
  rcases changed with ⟨threads, flight, results⟩ |
    ⟨received, connection, rest, rfl, behind, split, moved, flight, results⟩
  · refine ⟨linked, ?_, ?_, ?_, ?_, ?_⟩
    · intro other connection registered
      show after.sent connection = (after.results other).flatten ++ after.flight connection
      rw [sent, results, flight]
      exact carries.balanced other connection (connections ▸ registered)
    · intro connection unregistered
      show after.sent connection = after.flight connection
      rw [sent, flight]
      exact carries.waiting connection (connections ▸ unregistered)
    · intro other
      show (after.threads.1 other).Placed
      rw [threads]
      exact carries.placed other
    · intro other
      show ClientThread.Follows (after.results other) (after.threads.1 other, after.threads.2)
      rw [threads, results]
      exact carries.follows other
    · intro other outside
      show after.threads.1 other = _ ∧ after.results other = []
      rw [threads, results]
      exact carries.unstarted other (grown ▸ outside)
  · -- The connection behind the descriptor is the one the thread was created for.
    have mine : session.connections[index]? = some (some connection) := by
      have serving : twin.stage.serving := by
        cases BtServer.step_move stepped with
        | serve here acted plain before onward same =>
          rw [Option.some.inj (lookup.symm.trans here)]
          exact before
      obtain ⟨threaded, started, held⟩ := BtStage.serving_held serving
      rw [stage] at threaded started held
      have own := carries.linked.handsOff.owns index client found threaded started
      rw [own] at behind
      obtain ⟨one, place, same⟩ := carries.linked.held index client found held
        (carries.linked.numbered _ _ behind).1
      rw [place, Option.some.inj (behind.symm.trans same)]
    obtain ⟨result, acted, own, others, store⟩ := Interference.step_cases moved
    have array : after.threads.2 = session.threads.2 := store.trans (act_received acted)
    refine ⟨linked, ?_, ?_, ?_, ?_, ?_⟩
    · intro other another registered
      have registered : session.connections[other]? = some (some another) :=
        connections ▸ registered
      have before := carries.balanced other another registered
      show after.sent another = (after.results other).flatten ++ after.flight another
      rw [sent, results, flight]
      by_cases same : another = connection
      · have here : other = index := by
          rw [same] at registered
          exact carries.linked.distinct other index connection registered mine
        rw [same, here] at before
        rw [same, here, Function.update_self, Function.update_self, before, split,
          List.flatten_append, List.flatten_singleton, List.append_assoc]
      · have elsewhere : other ≠ index := by
          intro here
          rw [here, mine] at registered
          exact same (Option.some.inj (Option.some.inj registered)).symm
        rw [Function.update_of_ne same, Function.update_of_ne elsewhere]
        exact before
    · intro another unregistered
      have unregistered : some another ∉ session.connections := connections ▸ unregistered
      have differ : another ≠ connection := by
        intro same
        rw [same] at unregistered
        exact unregistered (List.mem_of_getElem? mine)
      show after.sent another = after.flight another
      rw [sent, flight, Function.update_of_ne differ]
      exact carries.waiting another unregistered
    · intro other
      show (after.threads.1 other).Placed
      by_cases here : other = index
      · rw [here, own]
        exact ClientThread.act_placed _ _ _ result (carries.placed index) acted
      · rw [others other here]
        exact carries.placed other
    · intro other
      show ClientThread.Follows (after.results other) (after.threads.1 other, after.threads.2)
      rw [results]
      by_cases here : other = index
      · rw [here, Function.update_self, own, store]
        exact ClientThread.act_follows (carries.placed index) (carries.follows index) acted
      · rw [Function.update_of_ne here, others other here, array]
        exact carries.follows other
    · intro other outside
      have elsewhere : other ≠ index := by
        have outside : server.clients.length ≤ other := outside
        omega
      show after.threads.1 other = _ ∧ after.results other = []
      rw [results, others other elsewhere, Function.update_of_ne elsewhere]
      exact carries.unstarted other (grown ▸ outside)

/-- Every orderly step keeps what is sent received or in flight. -/
theorem step_carries {event : BtSessionEvent} (carries : session.Carries)
    (orderly : session.Orderly event) (stepped : step session event = some next) :
    next.Carries := by
  cases event with
  | send nSocket bytes =>
    obtain ⟨connection, -, rfl⟩ := Option.map_eq_some_iff.mp stepped
    exact carries.send connection bytes
  | atom index =>
    simp only [step, Option.ite_none_left_eq_some] at stepped
    obtain ⟨threads, moved, rfl⟩ := Option.map_eq_some_iff.mp stepped.2
    exact carries.atom orderly moved
  | server event =>
    cases event with
    | signal =>
      obtain ⟨server, signalled, rfl⟩ := Option.map_eq_some_iff.mp stepped
      have admitted : session.server.AcceptsAfterCopies .signal := trivial
      have hands_off := BtServer.step_handsOff carries.linked.handsOff admitted signalled
      cases BtServer.step_move signalled with
      | signal =>
        have linked := carries.linked.same_clients hands_off rfl (fun holding => ⟨holding, rfl⟩)
        exact ⟨linked, carries.balanced, carries.waiting, carries.placed, carries.follows,
          carries.unstarted⟩
    | main event =>
      obtain ⟨server, taken, rfl⟩ := Option.map_eq_some_iff.mp stepped
      exact carries.main orderly taken
    | client index event =>
      simp only [step, Option.ite_none_right_eq_some] at stepped
      obtain ⟨client, found, onward⟩ := Option.bind_eq_some_iff.mp stepped.2
      obtain ⟨after, noted, last⟩ := Option.bind_eq_some_iff.mp onward
      obtain ⟨server, taken, rfl⟩ := Option.map_eq_some_iff.mp last
      exact carries.client found noted taken

/-- The first frames play the first events. -/
theorem playFrames_begins {frames all : List (List UInt8)} (residue : Nat → StackResidue)
    (begins : frames <+: all) : playFrames residue frames <+: playFrames residue all := by
  obtain ⟨rest, rfl⟩ := begins
  rw [playFrames, playFrames, List.mapIdx_append]
  exact List.prefix_append _ _

/-- What is heard is what was sent: in every run without the two races, each registered connection
has one thread; the frames it has passed on are the first of those sent on the connection, and all
of them when nothing is in flight and the thread waits in `recv`; so events that were sent as lines
are heard in order, none of them twice, and then all. -/
theorem heard_as_sent (nSporeSocket : Int) (openFds : Finset Int) (events : List BtSessionEvent)
    {final : BtSession} (orderly : EachStep step Orderly (start nSporeSocket openFds) events)
    (reached : run step (start nSporeSocket openFds) events = some final) {index connection : Nat}
    (registered : final.connections[index]? = some (some connection)) :
    (∀ other, final.connections[other]? = some (some connection) → other = index) ∧
    (final.threads.1 index).frames <+: framesOf (final.sent connection) ∧
    (final.flight connection = [] → (final.threads.1 index).stage = .receiving →
      (final.threads.1 index).frames = framesOf (final.sent connection)) ∧
    ∀ notes : List ((Nat → Bool) × NoteEvent),
      final.sent connection =
        notes.flatMap (fun note => noteLine note.1 note.2 ++ [noteFrameEndSymbol]) →
      ∀ residue, playFrames residue (final.threads.1 index).frames <+: notes.map Prod.snd ∧
        (final.flight connection = [] → (final.threads.1 index).stage = .receiving →
          playFrames residue (final.threads.1 index).frames = notes.map Prod.snd) := by
  have carries : final.Carries :=
    run_invariant (fun _ _ _ holds met stepped => step_carries holds met stepped)
      (start_carries nSporeSocket openFds) orderly reached
  have follows := carries.follows index
  have balanced := carries.balanced index connection registered
  have received : (final.results index).flatten <+: final.sent connection := by
    rw [balanced]
    exact List.prefix_append _ _
  have passed := follows.frames
  rw [BtReader.receiveAll_frames follows.1] at passed
  have heard : (final.threads.1 index).frames <+: framesOf (final.sent connection) :=
    passed.trans ((lines_begins received).filterMap _)
  have all : final.flight connection = [] → (final.threads.1 index).stage = .receiving →
      (final.threads.1 index).frames = framesOf (final.sent connection) := by
    intro nothing idle
    have same := congrArg Prod.snd (follows.receiving idle)
    rw [nothing, List.append_nil] at balanced
    rw [BtReader.receiveAll_frames follows.1, ← balanced] at same
    exact same
  refine ⟨fun other found => carries.linked.distinct other index connection found registered, heard,
    all, fun notes sent residue => ?_⟩
  have encoded : framesOf (final.sent connection) =
      notes.map fun note => noteLine note.1 note.2 ++ [noteFrameEndSymbol] := by
    rw [framesOf, sent, frames_noteLines]
  rw [encoded] at heard all
  constructor
  · rw [← playFrames_noteLines residue notes]
    exact playFrames_begins residue heard
  · intro nothing idle
    rw [all nothing idle, playFrames_noteLines]

/-- `main` accepts a client, and its thread comes to `recv`. -/
def joining (index : Nat) (nSporeSocket : Int) : List BtSessionEvent :=
  (BtServer.registering nSporeSocket).map .server ++
    [.server (.main .sleep), .server (.client index .readSocket),
      .server (.client index (.prepare true))]

/-- A thread receives bytes and goes through some atomic steps. -/
def receiving (index : Nat) (received : List UInt8) (steps : Nat) : List BtSessionEvent :=
  [.server (.client index .check), .server (.client index (.recv (.data received)))] ++
    List.replicate steps (.atom index)

/-- Two clients: one thread moves bytes through `cTemp` while the other is in the middle of its
frame. -/
def twoClients : List BtSessionEvent :=
  joining 0 7 ++ joining 1 8 ++
    [.send 7 (ascii "0601AE2C\n"), .send 8 (ascii "\n0701"), .send 8 (ascii "ae00\n")] ++
    receiving 0 (ascii "0601AE2C\n") 3 ++ receiving 1 (ascii "\n0701ae00") 3 ++
    List.replicate 8 (.atom 0) ++ List.replicate 2 (.atom 1) ++ receiving 1 (ascii "\n") 11

/-- Both are heard. -/
theorem heard_as_sent_two :
    ∃ final, run step (start 0 ∅) twoClients = some final ∧
      (∀ residue, playFrames residue (final.threads.1 0).frames = [⟨0x06, 0x01, 0xAE, 0x2C⟩]) ∧
      (final.threads.1 1).frames = [ascii "0701ae00\n"] := by
  have orderly : EachStep step Orderly (start 0 ∅) twoClients := by decide +kernel
  have carried : (run step (start 0 ∅) twoClients).map (fun final =>
      (final.connections, final.flight 0, final.flight 1, final.sent 0, final.sent 1)) =
        some ([some 0, some 1], [], [], ascii "0601AE2C\n", ascii "\n0701ae00\n") := by
      decide +kernel
  have waiting : (run step (start 0 ∅) twoClients).map (fun final =>
      ((final.threads.1 0).stage, (final.threads.1 1).stage)) = some (.receiving, .receiving) := by
    decide +kernel
  obtain ⟨final, reached, fields⟩ := Option.map_eq_some_iff.mp carried
  rw [reached, Option.map_some, Option.some.injEq, Prod.mk.injEq] at waiting
  simp only [Prod.mk.injEq] at fields
  obtain ⟨registered, empty, nothing, sent, mixed⟩ := fields
  have first : final.connections[0]? = some (some 0) := by rw [registered]; rfl
  have second : final.connections[1]? = some (some 1) := by rw [registered]; rfl
  refine ⟨final, reached, fun residue => ?_, ?_⟩
  · have ⟨_, _, _, notes⟩ := heard_as_sent 0 ∅ twoClients orderly reached first
    have heard := notes [(fun _ => true, ⟨0x06, 0x01, 0xAE, 0x2C⟩)] (by rw [sent]; decide) residue
    exact heard.2 empty waiting.1
  · have ⟨_, _, all, _⟩ := heard_as_sent 0 ∅ twoClients orderly reached second
    rw [all nothing waiting.2, mixed]
    decide

end BtSession

end MidiDaemon
