import MidiDaemon.SlotRegistration

/-!
# Does a disconnected client give its resources back?

A thread leaves its loop when `recv` fails, and then closes its socket and sets its slot free.
When `recv` returns `0`, the end of a connection that its peer has closed, the loop only prints
a message and asks again. So the slots and threads of connections that end with an error come
back, and those of connections that end with `0` do not (`resources_returned_iff`). A request
is never empty, so `0` has no other meaning.
-/

namespace MidiDaemon

open Machine

/-- A client whose end has been reported is on its way out, and one that reads has the
variables of the receive loop in order. -/
structure BtClient.Sound (client : BtClient) : Prop where
  /-- The thread is on its exit path or behind it. -/
  leaves : client.ended → client.stage.exiting ∨ client.stage = .released
  /-- The array and the count of missing bytes belong together. -/
  reads : client.stage = .looping ∨ client.stage = .receiving →
    ∃ pending, client.reader.Holds pending

/-- A thread that is not on its way out has not been told the end of its connection. -/
theorem BtClient.Sound.unended {client : BtClient} (sound : client.Sound)
    (inside : client.stage.exiting = false) (unreleased : client.stage ≠ .released) :
    client.ended = false := by
  by_contra ended
  rcases sound.leaves (by simpa using ended) with exiting | released
  · rw [inside] at exiting
    exact Bool.false_ne_true exiting
  · exact unreleased released

/-- A step other than a result `0` keeps a client sound. -/
theorem BtClient.act_sound {client after : BtClient} {nShared : Int} {ioCanceled : Bool}
    {event : ClientEvent} (sound : client.Sound)
    (acted : client.act nShared ioCanceled event = some after)
    (answered : event ≠ .recv (.data [])) : after.Sound := by
  cases event with
  | readSocket =>
    simp only [act, Option.ite_none_right_eq_some, Option.some.injEq] at acted
    obtain ⟨created, rfl⟩ := acted
    have unended := sound.unended (by rw [created]; rfl) (by simp [created])
    exact ⟨by simp [unended], by simp⟩
  | prepare done =>
    simp only [act, Option.ite_none_right_eq_some] at acted
    obtain ⟨preparing, onward⟩ := acted
    have unended := sound.unended (by rw [preparing]; rfl) (by simp [preparing])
    split at onward
    · obtain rfl := Option.some.inj onward
      exact ⟨by simp [unended], fun _ => ⟨[], BtReader.start_holds⟩⟩
    · obtain rfl := Option.some.inj onward
      exact ⟨by simp [unended], by simp⟩
  | check =>
    simp only [act, Option.ite_none_right_eq_some, Option.some.injEq] at acted
    obtain ⟨looping, rfl⟩ := acted
    have unended := sound.unended (by rw [looping]; rfl) (by simp [looping])
    exact ⟨by simp [unended], fun _ => sound.reads (.inl looping)⟩
  | recv result =>
    simp only [act, Option.ite_none_right_eq_some] at acted
    obtain ⟨receiving, onward⟩ := acted
    have unended := sound.unended (by rw [receiving]; rfl) (by simp [receiving])
    split at onward
    · obtain rfl := Option.some.inj onward
      exact ⟨fun _ => .inl rfl, by simp⟩
    · exact absurd rfl answered
    · simp only [Option.ite_none_right_eq_some, Option.some.injEq] at onward
      obtain ⟨accepted, rfl⟩ := onward
      obtain ⟨pending, holds⟩ := sound.reads (.inr receiving)
      have kept := (BtReader.receive_holds holds accepted).1
      exact ⟨by simp [unended], fun _ => ⟨_, kept⟩⟩
  | close =>
    simp only [act, Option.ite_none_right_eq_some, Option.some.injEq] at acted
    obtain ⟨-, rfl⟩ := acted
    exact ⟨fun _ => .inl rfl, by simp⟩
  | setSocketSlotFree =>
    simp only [act, Option.ite_none_right_eq_some, Option.some.injEq] at acted
    obtain ⟨-, rfl⟩ := acted
    exact ⟨fun _ => .inr rfl, by simp⟩

namespace BtServer

/-- `recv` never returns `0`. -/
def NeverZero (_ : BtServer) (event : BtEvent) : Prop :=
  ∀ index, event ≠ .client index (.recv (.data []))

instance (server : BtServer) (event : BtEvent) : Decidable (server.NeverZero event) :=
  match event with
  | .client _ (.recv (.data [])) => isFalse fun never => never _ rfl
  | .signal | .main _ | .client _ .readSocket | .client _ (.prepare _) | .client _ .check
  | .client _ (.recv .failed) | .client _ (.recv (.data (_ :: _))) | .client _ .close
  | .client _ .setSocketSlotFree => isTrue (by simp [NeverZero])

/-- No thread is on its exit path. -/
def Settled (server : BtServer) : Prop :=
  ∀ client ∈ server.clients, client.stage.exiting = false

/-- Disconnected clients give their resources back. -/
structure GivesBack (server : BtServer) : Prop where
  /-- The end of a connection sends its thread to the exit path, and no further `recv`. -/
  leaves : ∀ client ∈ server.clients, client.ended → client.stage.exiting ∨ client.stage = .released
  /-- A request is never empty, and never larger than the array. -/
  request : ∀ client ∈ server.clients, client.stage = .receiving →
    1 ≤ client.reader.nNeedToReadByte ∧ client.reader.nNeedToReadByte ≤ noteFrameLength
  /-- An occupied slot belongs to a connection whose end has not been reported. -/
  occupied : server.Settled → ∀ (nSlot : Nat) (nSporeSocket : Int),
    server.nSocketList[nSlot]? = some nSporeSocket → nSporeSocket ≠ emptySocket →
    ∃ client ∈ server.clients, client.accepted = nSporeSocket ∧ client.slot = nSlot ∧
      client.stage ≠ .released ∧ client.ended = false
  /-- With fewer connections than slots there is a slot for one more. -/
  room : server.Settled → ∀ connected : Finset Nat,
    (∀ (index : Nat) (client : BtClient), server.clients[index]? = some client →
      client.stage ≠ .released → client.ended = false → index ∈ connected) →
    connected.card < maxClientSocketCnt →
    MidiDaemon.getFreeClient server.nSocketList maxClientSocketCnt ≠ -1

variable {server next : BtServer}

/-- What a run keeps as long as `recv` never returns `0`. -/
structure Returns (server : BtServer) : Prop where
  /-- What every step keeps. -/
  formed : server.WellFormed
  /-- Threads know their own numbers. -/
  owns : server.Owns
  /-- Every occupied slot is that of a registration. -/
  slots : SlotsOwned (registrations server.clients) server.nSocketList
  /-- Every client is sound. -/
  sound : ∀ client ∈ server.clients, client.Sound

/-- `main` in front of its loop has nothing to give back. -/
theorem start_returns (nSporeSocket : Int) (openFds : Finset Int) :
    (start nSporeSocket openFds).Returns where
  formed := start_wellFormed nSporeSocket openFds
  owns index client found := by simp [start] at found
  slots := (start_registers nSporeSocket openFds).slots.owned
  sound client member := by simp [start] at member

/-- Disconnected clients give their resources back as long as the invariant holds. -/
theorem Returns.givesBack (returns : server.Returns) : server.GivesBack where
  leaves client member := (returns.sound client member).leaves
  request client member receiving := by
    obtain ⟨pending, holds⟩ := (returns.sound client member).reads (.inr receiving)
    exact holds.request
  occupied settled nSlot nSporeSocket held occupied := by
    obtain ⟨index, entry⟩ := returns.slots nSlot nSporeSocket held occupied
    obtain ⟨client, found, live, same⟩ := registrations_eq_some.mp entry
    obtain ⟨number, slot⟩ := Prod.mk.inj same
    have member := List.mem_of_getElem? found
    have unended := (returns.sound client member).unended (settled client member) live
    exact ⟨client, member, number.symm, slot.symm, live, unended⟩
  room settled connected counted fewer := by
    rw [← returns.formed.size] at fewer ⊢
    refine returns.slots.room (fun index entered => ?_) fewer
    obtain ⟨entry, same⟩ := Option.isSome_iff_exists.mp entered
    obtain ⟨client, found, live, -⟩ := registrations_eq_some.mp same
    have member := List.mem_of_getElem? found
    have unended := (returns.sound client member).unended (settled client member) live
    exact counted index client found live unended

/-- A step other than a result `0` keeps every client sound. -/
theorem step_sound {event : BtEvent} (formed : server.WellFormed)
    (sound : ∀ client ∈ server.clients, client.Sound)
    (answered : NeverZero server event) (stepped : step server event = some next) :
    ∀ client ∈ next.clients, client.Sound := by
  intro thread member
  obtain ⟨other, lookup⟩ := List.mem_iff_getElem?.mp member
  have before : ∀ {index : Nat} {client : BtClient}, server.clients[index]? = some client →
      client.Sound := fun found => sound _ (List.mem_of_getElem? found)
  cases step_move stepped with
  | signal => exact before lookup
  | idle => exact before lookup
  | refuse => exact before lookup
  | accept => exact before lookup
  | search => exact before lookup
  | reject => exact before lookup
  | store =>
    rcases Entries.concat_cases lookup with ⟨-, rfl⟩ | earlier
    · exact ⟨by simp, by simp⟩
    · exact before earlier
  | @create index creating =>
    rcases Entries.modify_cases lookup with ⟨_, client, found, rfl⟩ | ⟨-, earlier⟩
    · obtain ⟨waiting, here, stage, -⟩ := formed.creating index creating
      have same : client = waiting := Option.some.inj (found.symm.trans here)
      have unended := (before found).unended (by rw [same, stage]; rfl) (by simp [same, stage])
      exact ⟨by simp [unended], by simp⟩
    · exact before earlier
  | read found created =>
    rcases Entries.set_cases lookup with ⟨-, rfl⟩ | ⟨-, earlier⟩
    · have unended := (before found).unended (by rw [created]; rfl) (by simp [created])
      exact ⟨by simp [unended], by simp⟩
    · exact before earlier
  | @serve index event client after found acted plain serving onward same =>
    rcases Entries.set_cases lookup with ⟨-, rfl⟩ | ⟨-, earlier⟩
    · refine BtClient.act_sound (before found) acted fun zero => ?_
      exact answered index (by rw [zero])
    · exact before earlier
  | close found closing =>
    rcases Entries.set_cases lookup with ⟨-, rfl⟩ | ⟨-, earlier⟩
    · exact ⟨fun _ => .inl rfl, by simp⟩
    · exact before earlier
  | free found freeing =>
    rcases Entries.set_cases lookup with ⟨-, rfl⟩ | ⟨-, earlier⟩
    · exact ⟨fun _ => .inr rfl, by simp⟩
    · exact before earlier

/-- Whatever a thread sets free, every occupied slot stays that of a registration. -/
theorem step_slotsOwned {event : BtEvent} (formed : server.WellFormed) (owns : server.Owns)
    (slots : SlotsOwned (registrations server.clients) server.nSocketList)
    (stepped : step server event = some next) :
    SlotsOwned (registrations next.clients) next.nSocketList := by
  rcases step_registrations formed stepped with
    ⟨same, table, -⟩ | ⟨rfl, nSlot, empty, stored, table⟩ |
      ⟨index, client, rfl, found, freeing, ended, table⟩
  · rw [same, table]
    exact slots
  · obtain ⟨inside, -⟩ := List.getElem?_eq_some_iff.mp empty
    rw [stored, table]
    exact slots.store viewed_length inside
  · rw [ended, table, ← formed.size]
    exact slots.free (owns.freeing found freeing)

/-- A step other than a result `0` keeps the resources coming back. -/
theorem step_returns {event : BtEvent} (returns : server.Returns) (own : OwnNumber server event)
    (answered : NeverZero server event) (stepped : step server event = some next) :
    next.Returns where
  formed := step_wellFormed returns.formed stepped
  owns := step_owns returns.owns own stepped
  slots := step_slotsOwned returns.formed returns.owns returns.slots stepped
  sound := step_sound returns.formed returns.sound answered stepped

/-- A result `0` leaves the thread in its loop. -/
theorem step_zero {event : BtEvent} (zero : ¬ NeverZero server event)
    (stepped : step server event = some next) : ¬ next.GivesBack := by
  obtain ⟨index, rfl⟩ : ∃ index, event = .client index (.recv (.data [])) := by
    by_contra none_zero
    exact zero fun index same => none_zero ⟨index, same⟩
  intro gives_back
  simp only [step, clientStep, Option.ite_none_left_eq_some] at stepped
  obtain ⟨client, found, rest⟩ := Option.bind_eq_some_iff.mp stepped.2
  obtain ⟨after, acted, rfl⟩ := Option.map_eq_some_iff.mp rest
  simp only [BtClient.act, Option.ite_none_right_eq_some, Option.some.injEq] at acted
  obtain ⟨-, rfl⟩ := acted
  obtain ⟨inside, -⟩ := List.getElem?_eq_some_iff.mp found
  have told := gives_back.leaves { client with ended := true, stage := .looping }
    (List.mem_of_getElem? (List.getElem?_set_self inside)) rfl
  rcases told with exiting | released
  · cases exiting
  · cases released

/-- When disconnected clients give their resources back: in every run in which each thread
copies the number of its own connection, it is exactly the results `0` of `recv` that keep
threads and slots from coming back. -/
theorem resources_returned_iff (nSporeSocket : Int) (openFds : Finset Int) (events : List BtEvent)
    (own : EachStep step OwnNumber (start nSporeSocket openFds) events) :
    EachState step GivesBack (start nSporeSocket openFds) events ↔
      EachStep step NeverZero (start nSporeSocket openFds) events :=
  eachState_iff_eachStep
    (fun (_ : BtServer) (returns : Returns _) => returns.givesBack)
    (fun _ _ _ returns own answered stepped => step_returns returns own answered stepped)
    (fun _ _ _ _ _ zero stepped => step_zero zero stepped)
    (start_returns nSporeSocket openFds) own

/-- The rule at a connection that breaks. -/
theorem resources_returned_broken :
    EachState step GivesBack (start 0 ∅)
      (registering 7 ++ closingThread 0 ++ [.client 0 .setSocketSlotFree]) :=
  (resources_returned_iff 0 ∅ _ (by decide)).mpr (by decide)

/-- A connection that its peer closes is asked for more, and never gives its slot back. -/
theorem resources_lost :
    ¬ ∀ (nSporeSocket : Int) (openFds : Finset Int) (events : List BtEvent),
      EachStep step OwnNumber (start nSporeSocket openFds) events →
      EachState step GivesBack (start nSporeSocket openFds) events := by
  intro always
  let disconnect : List BtEvent := registering 7 ++ [.client 0 .readSocket,
    .client 0 (.prepare true), .client 0 .check, .client 0 (.recv (.data [])), .client 0 .check]
  have asking : (run step (start 0 ∅) disconnect).map (fun server => server.clients.map
      fun client => (client.ended, client.stage)) = some [(true, .receiving)] := by decide
  obtain ⟨final, reached, clients⟩ := Option.map_eq_some_iff.mp asking
  have gives_back := eachState_iff.mp (always 0 ∅ disconnect (by decide)) disconnect [] final
    (List.append_nil _).symm reached
  have asked : (true, BtStage.receiving) ∈ final.clients.map
      fun client => (client.ended, client.stage) := by
    rw [clients]
    exact List.mem_singleton_self _
  obtain ⟨client, member, fields⟩ := List.mem_map.mp asked
  obtain ⟨ended, stage⟩ := Prod.mk.inj fields
  rcases gives_back.leaves client member ended with exiting | released
  · rw [stage] at exiting
    cases exiting
  · rw [stage] at released
    cases released

end BtServer

end MidiDaemon
