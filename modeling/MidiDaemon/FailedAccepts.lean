import MidiDaemon.BluetoothServer

/-!
# Do failed accepts leave the server intact?

The accept loop does not look at what `accept` returned. A failure is stored in the slot table
like a connection, a thread is created for it, and descriptor number `0` is stored as the number
that marks a slot empty. So the table and the threads stay as they are meant exactly as long as
`accept` has returned a positive number whenever a slot is free (`accepts_intact_iff`).
-/

namespace MidiDaemon

open Machine

namespace BtServer

/-- The numbers that slots and threads were given to, in the order of their registration. -/
def accepted (server : BtServer) : List Int := server.clients.map BtClient.accepted

/-- The slots and the threads are those of connections. -/
structure Intact (server : BtServer) : Prop where
  /-- A slot is empty, or holds a number that `accept` returned for a connection. -/
  entries : ∀ nSporeSocket ∈ server.nSocketList, nSporeSocket = emptySocket ∨
    nSporeSocket ∈ server.accepted
  /-- Slots and threads are given to numbers that `accept` returned without a failure. -/
  returned : ∀ nSporeSocket ∈ server.accepted, 0 ≤ nSporeSocket
  /-- None of these numbers marks a slot empty. -/
  apart : ∀ nSporeSocket ∈ server.accepted, nSporeSocket ≠ emptySocket

/-- As long as the last result of `accept` is a failure, `main` leaves the slot table and the
threads alone. -/
def FailuresHarmless (server : BtServer) (event : BtEvent) : Prop :=
  ∀ (mainEvent : MainEvent) (next : BtServer), event = .main mainEvent →
    server.nSporeSocket < 0 → step server event = some next →
    next.nSocketList = server.nSocketList ∧ next.clients = server.clients

/-- What `main` stores into a free slot is a positive number. -/
def StoresPositive (server : BtServer) (event : BtEvent) : Prop :=
  event = .main .store → 0 < server.nSporeSocket

instance (server : BtServer) (event : BtEvent) : Decidable (server.StoresPositive event) :=
  inferInstanceAs (Decidable (_ → _))

variable {server next : BtServer}

/-- A client that keeps its number changes nothing in the numbers. -/
theorem accepted_set {clients : List BtClient} {index : Nat} {client after : BtClient}
    (found : clients[index]? = some client) (same : after.accepted = client.accepted) :
    (clients.set index after).map BtClient.accepted = clients.map BtClient.accepted := by
  obtain ⟨inside, here⟩ := List.getElem?_eq_some_iff.mp found
  have place : index < (clients.map BtClient.accepted).length := by rwa [List.length_map]
  have number : (clients.map BtClient.accepted)[index] = client.accepted := by
    rw [List.getElem_map, here]
  rw [List.map_set, same, ← number, List.set_getElem_self]

/-- Nor does a thread that is created. -/
theorem accepted_modify {clients : List BtClient} {index : Nat} {stage : BtStage} :
    (clients.modify index fun client => { client with stage := stage }).map BtClient.accepted =
      clients.map BtClient.accepted := by
  rw [List.modify_eq_set_getElem?]
  cases found : clients[index]? with
  | none => rfl
  | some client => exact accepted_set found rfl

/-- A step stores the variable of `main` behind the numbers, or keeps them all. -/
theorem step_accepted {event : BtEvent} (stepped : step server event = some next) :
    (event = .main .store ∧ next.accepted = server.accepted ++ [server.nSporeSocket]) ∨
      (event ≠ .main .store ∧ next.accepted = server.accepted) := by
  cases step_move stepped with
  | signal => exact .inr ⟨by simp, rfl⟩
  | idle before after uncreating failed plain =>
    refine .inr ⟨?_, rfl⟩
    rcases plain with rfl | rfl | rfl <;> simp
  | refuse => exact .inr ⟨by simp, rfl⟩
  | accept => exact .inr ⟨by simp, rfl⟩
  | search => exact .inr ⟨by simp, rfl⟩
  | reject => exact .inr ⟨by simp, rfl⟩
  | store => exact .inl ⟨rfl, List.map_append⟩
  | create => exact .inr ⟨by simp, accepted_modify⟩
  | read found => exact .inr ⟨by simp, accepted_set found rfl⟩
  | serve found acted plain before onward same =>
    exact .inr ⟨by simp, accepted_set found same.1⟩
  | close found => exact .inr ⟨by simp, accepted_set found rfl⟩
  | free found => exact .inr ⟨by simp, accepted_set found rfl⟩

/-- A slot is empty or as it was before, unless a connection is stored into it. -/
theorem step_entries {event : BtEvent} (stepped : step server event = some next) :
    ∀ nSporeSocket ∈ next.nSocketList, nSporeSocket = emptySocket ∨
      nSporeSocket ∈ server.nSocketList ∨
        (event = .main .store ∧ nSporeSocket = server.nSporeSocket) := by
  intro nSporeSocket member
  cases step_move stepped with
  | signal => exact .inr (.inl member)
  | idle => exact .inr (.inl member)
  | refuse => exact .inr (.inl member)
  | accept => exact .inr (.inl member)
  | search => exact .inr (.inl member)
  | reject => exact .inr (.inl member)
  | store =>
    rcases List.mem_or_eq_of_mem_set member with before | stored
    · exact .inr (.inl before)
    · exact .inr (.inr ⟨rfl, stored⟩)
  | create => exact .inr (.inl member)
  | read => exact .inr (.inl member)
  | serve => exact .inr (.inl member)
  | close => exact .inr (.inl member)
  | free =>
    obtain ⟨nSlot, held⟩ := List.mem_iff_getElem?.mp member
    rw [getElem?_setSocketSlotFree] at held
    split at held
    · exact .inl (Option.some.inj held).symm
    · exact .inr (.inl (List.mem_of_getElem? held))

/-- `main` in front of its loop. -/
theorem start_intact (nSporeSocket : Int) (openFds : Finset Int) :
    (start nSporeSocket openFds).Intact where
  entries _ member := .inl (List.eq_of_mem_replicate member)
  returned _ member := absurd member List.not_mem_nil
  apart _ member := absurd member List.not_mem_nil

/-- Storing nothing but positive numbers keeps the server intact. -/
theorem step_intact {event : BtEvent} (intact : server.Intact)
    (positive : StoresPositive server event) (stepped : step server event = some next) :
    next.Intact := by
  rcases step_accepted stepped with ⟨storing, numbers⟩ | ⟨unstoring, numbers⟩
  · have positive := positive storing
    constructor
    · intro nSporeSocket member
      rw [numbers]
      rcases step_entries stepped nSporeSocket member with empty | before | ⟨-, stored⟩
      · exact .inl empty
      · exact (intact.entries nSporeSocket before).imp_right (List.mem_append_left _)
      · exact .inr (List.mem_append_right _ (List.mem_singleton.mpr stored))
    · intro nSporeSocket member
      rw [numbers] at member
      rcases List.mem_append.mp member with before | stored
      · exact intact.returned nSporeSocket before
      · rw [List.mem_singleton.mp stored]
        exact Int.le_of_lt positive
    · intro nSporeSocket member
      rw [numbers] at member
      rcases List.mem_append.mp member with before | stored
      · exact intact.apart nSporeSocket before
      · rw [List.mem_singleton.mp stored]
        exact Int.ne_of_gt positive
  · constructor
    · intro nSporeSocket member
      rw [numbers]
      rcases step_entries stepped nSporeSocket member with empty | before | ⟨storing, -⟩
      · exact .inl empty
      · exact intact.entries nSporeSocket before
      · exact absurd storing unstoring
    · rw [numbers]
      exact intact.returned
    · rw [numbers]
      exact intact.apart

/-- A failure or a zero that is stored is found in the server afterwards. -/
theorem step_unintact {event : BtEvent} (unmet : ¬ StoresPositive server event)
    (stepped : step server event = some next) : ¬ next.Intact := by
  intro intact
  obtain ⟨storing, unpositive⟩ := Classical.not_imp.mp unmet
  rcases step_accepted stepped with ⟨-, numbers⟩ | ⟨unstoring, -⟩
  · have stored : server.nSporeSocket ∈ next.accepted := by
      rw [numbers]
      exact List.mem_append_right _ (List.mem_singleton_self _)
    have returned := intact.returned _ stored
    have apart : server.nSporeSocket ≠ 0 := intact.apart _ stored
    omega
  · exact unstoring storing

/-- A failure is harmless in an intact server that stores nothing but positive numbers. -/
theorem failures_harmless {event : BtEvent} (formed : server.WellFormed) (intact : server.Intact)
    (positive : StoresPositive server event) : FailuresHarmless server event := by
  rintro mainEvent next rfl failed stepped
  cases step_move stepped with
  | idle => exact ⟨rfl, rfl⟩
  | refuse => exact ⟨rfl, rfl⟩
  | accept => exact ⟨rfl, rfl⟩
  | search => exact ⟨rfl, rfl⟩
  | reject => exact ⟨rfl, rfl⟩
  | store =>
    have positive := positive rfl
    omega
  | create creating =>
    -- The thread that is created is that of the number in the variable.
    obtain ⟨client, found, -, number⟩ := formed.creating _ creating
    have member : client.accepted ∈ server.accepted :=
      List.mem_map_of_mem (List.mem_of_getElem? found)
    have returned := intact.returned _ member
    omega

/-- When failed accepts leave the server intact: in every run, whatever the threads do, the
slot table and the threads stay those of accepted connections, and failures change neither,
exactly when every number stored into a free slot is positive. -/
theorem accepts_intact_iff (nSporeSocket : Int) (openFds : Finset Int) (events : List BtEvent) :
    (EachState step Intact (start nSporeSocket openFds) events ∧
      EachStep step FailuresHarmless (start nSporeSocket openFds) events) ↔
      EachStep step StoresPositive (start nSporeSocket openFds) events := by
  have initially : WellFormed (start nSporeSocket openFds) ∧ Intact (start nSporeSocket openFds) :=
    ⟨start_wellFormed nSporeSocket openFds, start_intact nSporeSocket openFds⟩
  have kept : ∀ (server : BtServer) (event : BtEvent) (next : BtServer),
      server.WellFormed ∧ server.Intact → StoresPositive server event →
      step server event = some next → next.WellFormed ∧ next.Intact :=
    fun _ _ _ invariant positive stepped =>
      ⟨step_wellFormed invariant.1 stepped, step_intact invariant.2 positive stepped⟩
  have exact_states : EachState step Intact (start nSporeSocket openFds) events ↔
      EachStep step StoresPositive (start nSporeSocket openFds) events :=
    eachState_iff_eachStep (fun _ invariant => invariant.2)
      (fun server event next invariant _ => kept server event next invariant)
      (fun _ _ _ _ _ unmet stepped => step_unintact unmet stepped) initially
      (eachStep_of_forall (fun _ _ => trivial) (start nSporeSocket openFds) events)
  constructor
  · rintro ⟨intact, -⟩
    exact exact_states.mp intact
  · intro positive
    refine ⟨exact_states.mpr positive, eachStep_of_invariant ?_ kept initially positive⟩
    exact fun _ _ invariant met => failures_harmless invariant.1 invariant.2 met

/-- A failure is stored like a connection. -/
theorem failure_stored :
    ¬ ∀ (nSporeSocket : Int) (openFds : Finset Int) (events : List BtEvent),
      EachState step Intact (start nSporeSocket openFds) events ∧
        EachStep step FailuresHarmless (start nSporeSocket openFds) events := by
  intro always
  have reached : (run step (start 0 ∅) (registering (-1))).map accepted = some [-1] := by decide
  obtain ⟨final, ran, numbers⟩ := Option.map_eq_some_iff.mp reached
  have intact := eachState_iff.mp (always 0 ∅ (registering (-1))).1 (registering (-1)) [] final
    (List.append_nil _).symm ran
  have returned := intact.returned (-1) (by rw [numbers]; exact List.mem_singleton_self _)
  exact absurd returned (by decide)

end BtServer

end MidiDaemon
