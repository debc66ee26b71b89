import MidiDaemon.BluetoothServer

/-!
# Is the slot table exact?

A registration is a stored connection whose thread has not set its slot free. `main` stores
into a slot that it has found empty, and a thread sets free every slot that holds its number.
So the table is exact until a number that looks like an empty slot is stored, or a thread sets
free a number that another registration has too (`slots_exact_iff`).
-/

namespace MidiDaemon

open Machine

/-- The number and the slot of a client that has not set its slot free. -/
def BtClient.entry (client : BtClient) : Option (Int × Nat) :=
  if client.stage = .released then none else some (client.accepted, client.slot)

/-- The registrations among clients, by their place in the list. -/
def registrations : List BtClient → Nat → Option (Int × Nat) := viewed BtClient.entry

/-- A client that has not set its slot free is registered. -/
theorem BtClient.entry_live {client : BtClient} (live : client.stage ≠ .released) :
    client.entry = some (client.accepted, client.slot) := if_neg live

/-- A registration is that of a client. -/
theorem registrations_eq_some {clients : List BtClient} {index : Nat} {entry : Int × Nat} :
    registrations clients index = some entry ↔
      ∃ client, clients[index]? = some client ∧ client.stage ≠ .released ∧
        entry = (client.accepted, client.slot) := by
  constructor
  · intro found
    obtain ⟨client, here, same⟩ := Option.bind_eq_some_iff.mp found
    unfold BtClient.entry at same
    split at same
    · cases same
    · rename_i live
      exact ⟨client, here, live, (Option.some.inj same).symm⟩
  · rintro ⟨client, here, live, rfl⟩
    rw [registrations, viewed, here, Option.bind_some, client.entry_live live]

namespace BtServer

/-- A step that does not confuse registrations: a number that is stored is not `EMPTY_SOCKET`,
and a number that is set free is that of no other registration. -/
def Distinguishes (server : BtServer) : BtEvent → Prop
  | .main .store => server.nSporeSocket ≠ emptySocket
  | .client index .setSocketSlotFree =>
    ∀ client ∈ server.clients[index]?, ∀ other ∈ server.clients.eraseIdx index,
      other.stage ≠ .released → other.accepted ≠ client.nSporeSocket
  | _ => True

instance (server : BtServer) (event : BtEvent) : Decidable (server.Distinguishes event) := by
  unfold Distinguishes
  split <;> infer_instance

/-- The table records the registrations, and no more threads are live than it has slots. -/
def SlotTableExact (server : BtServer) : Prop :=
  SlotsExact (registrations server.clients) server.nSocketList ∧
    ∀ live : Finset Nat, (∀ index ∈ live, (registrations server.clients index).isSome) →
      live.card ≤ maxClientSocketCnt

variable {server next : BtServer}

/-- A table that records the registrations bounds the number of live threads. -/
theorem slotTableExact_of_slots (formed : server.WellFormed)
    (slots : SlotsExact (registrations server.clients) server.nSocketList) :
    server.SlotTableExact := by
  refine ⟨slots, fun live all_registered => ?_⟩
  rw [← formed.size]
  exact slots.card_le live all_registered

/-- What a step does to the registrations and to the table: nothing, a registration, or setting
a number free. -/
theorem step_registrations {event : BtEvent} (formed : server.WellFormed)
    (stepped : step server event = some next) :
    (registrations next.clients = registrations server.clients ∧
      next.nSocketList = server.nSocketList ∧ event ≠ .main .store ∧
      ∀ index, event ≠ .client index .setSocketSlotFree) ∨
    (event = .main .store ∧ ∃ nSlot, server.nSocketList[nSlot]? = some emptySocket ∧
      registrations next.clients = Function.update (registrations server.clients)
        server.clients.length (some (server.nSporeSocket, nSlot)) ∧
      next.nSocketList = server.nSocketList.set nSlot server.nSporeSocket) ∨
    (∃ index client, event = .client index .setSocketSlotFree ∧
      server.clients[index]? = some client ∧ client.stage = .freeing ∧
      registrations next.clients = Function.update (registrations server.clients) index none ∧
      next.nSocketList =
        setSocketSlotFree server.nSocketList maxClientSocketCnt client.nSporeSocket) := by
  cases step_move stepped with
  | signal => exact .inl ⟨rfl, rfl, by simp, by simp⟩
  | idle before after uncreating failed plain =>
    refine .inl ⟨rfl, rfl, ?_, by simp⟩
    rcases plain with rfl | rfl | rfl <;> simp
  | refuse => exact .inl ⟨rfl, rfl, by simp, by simp⟩
  | accept => exact .inl ⟨rfl, rfl, by simp, by simp⟩
  | search => exact .inl ⟨rfl, rfl, by simp, by simp⟩
  | reject => exact .inl ⟨rfl, rfl, by simp, by simp⟩
  | @store nFreeSocketSlot storing =>
    refine .inr (.inl ⟨rfl, nFreeSocketSlot, formed.storing _ storing, ?_, rfl⟩)
    exact viewed_append
  | @create index creating =>
    obtain ⟨client, found, waiting, -⟩ := formed.creating index creating
    refine .inl ⟨viewed_modify_same found ?_, rfl, by simp, by simp⟩
    simp [BtClient.entry, waiting]
  | read found created =>
    refine .inl ⟨viewed_set_same found ?_, rfl, by simp, by simp⟩
    simp [BtClient.entry, created]
  | @serve index event client after found acted plain before onward same =>
    have live : client.stage ≠ .released := by
      intro stage
      rw [stage] at before
      cases before
    have live_after : after.stage ≠ .released := by
      intro stage
      rw [stage] at onward
      cases onward
    refine .inl ⟨viewed_set_same found ?_, rfl, by simp, by simp [plain]⟩
    rw [client.entry_live live, after.entry_live live_after, same.1, same.2.1]
  | close found closing =>
    refine .inl ⟨viewed_set_same found ?_, rfl, by simp, by simp⟩
    simp [BtClient.entry, closing]
  | free found freeing =>
    refine .inr (.inr ⟨_, _, rfl, found, freeing, ?_, rfl⟩)
    exact viewed_set found

/-- What a run keeps as long as its steps do not confuse registrations. -/
structure Registers (server : BtServer) : Prop where
  /-- What every step keeps. -/
  formed : server.WellFormed
  /-- Threads know their own numbers. -/
  owns : server.Owns
  /-- The table records the registrations. -/
  slots : SlotsExact (registrations server.clients) server.nSocketList

/-- `main` in front of its loop has registered nothing. -/
theorem start_registers (nSporeSocket : Int) (openFds : Finset Int) :
    (start nSporeSocket openFds).Registers where
  formed := start_wellFormed nSporeSocket openFds
  owns index client found := by simp [start] at found
  slots := by
    have none_registered : registrations (start nSporeSocket openFds).clients = fun _ => none := by
      funext index
      simp [registrations, viewed, start]
    rw [none_registered]
    exact slotsExact_empty maxClientSocketCnt

/-- The thread that sets its slot free is registered with the number it knows. -/
theorem Owns.freeing {index : Nat} {client : BtClient} (owns : server.Owns)
    (found : server.clients[index]? = some client) (freeing : client.stage = .freeing) :
    registrations server.clients index = some (client.nSporeSocket, client.slot) := by
  have known := owns index client found (by simp [freeing]) (by simp [freeing])
  exact registrations_eq_some.mpr ⟨client, found, by simp [freeing], by rw [known]⟩

/-- A step that does not confuse registrations keeps the table exact. -/
theorem step_registers {event : BtEvent} (registers : server.Registers)
    (own : OwnNumber server event) (distinct : Distinguishes server event)
    (stepped : step server event = some next) : next.Registers := by
  have formed := step_wellFormed registers.formed stepped
  have owns := step_owns registers.owns own stepped
  rcases step_registrations registers.formed stepped with
    ⟨same, table, -⟩ | ⟨rfl, nSlot, empty, stored, table⟩ |
      ⟨index, client, rfl, found, freeing, ended, table⟩
  · refine ⟨formed, owns, ?_⟩
    rw [same, table]
    exact registers.slots
  · refine ⟨formed, owns, ?_⟩
    rw [stored, table]
    exact registers.slots.store viewed_length empty distinct
  · refine ⟨formed, owns, ?_⟩
    rw [ended, table, ← registers.formed.size]
    refine registers.slots.free (registers.owns.freeing found freeing)
      fun other otherSlot differ entry => ?_
    obtain ⟨thread, here, live, same⟩ := registrations_eq_some.mp entry
    have among : thread ∈ server.clients.eraseIdx index :=
      List.mem_eraseIdx_iff_getElem?.mpr ⟨other, differ, here⟩
    have unlike := distinct client found thread among live
    exact unlike (Prod.mk.inj same).1.symm

/-- A step that confuses registrations leaves a table that is not exact. -/
theorem step_confuses {event : BtEvent} (registers : server.Registers)
    (confused : ¬ Distinguishes server event) (stepped : step server event = some next) :
    ¬ SlotsExact (registrations next.clients) next.nSocketList := by
  rcases step_registrations registers.formed stepped with
    ⟨-, -, plain, untouched⟩ | ⟨rfl, nSlot, empty, stored, table⟩ |
      ⟨index, client, rfl, found, freeing, ended, table⟩
  · exfalso
    apply confused
    unfold Distinguishes
    split
    · exact absurd rfl plain
    · rename_i index
      exact absurd rfl (untouched index)
    · trivial
  · have number : server.nSporeSocket = emptySocket := by
      by_contra differ
      exact confused differ
    intro slots
    rw [stored] at slots
    have new := slots.stored server.clients.length server.nSporeSocket nSlot
      (Function.update_self ..)
    exact new.2 number
  · obtain ⟨thread, among, live, same⟩ : ∃ thread ∈ server.clients.eraseIdx index,
        thread.stage ≠ .released ∧ thread.accepted = client.nSporeSocket := by
      by_contra none_alike
      refine confused fun known here thread among live same => none_alike ?_
      have one : known = client := Option.some.inj (here.symm.trans found)
      exact ⟨thread, among, live, by rw [same, one]⟩
    obtain ⟨other, differ, here⟩ := List.mem_eraseIdx_iff_getElem?.mp among
    have entry : registrations server.clients other = some (client.nSporeSocket, thread.slot) :=
      registrations_eq_some.mpr ⟨thread, here, live, by rw [same]⟩
    have remains : registrations next.clients other = some (client.nSporeSocket, thread.slot) := by
      rw [ended, Function.update_of_ne differ, entry]
    rw [table, ← registers.formed.size]
    exact registers.slots.free_loses entry remains

/-- When the slot table is exact: in every run in which each thread copies the number of its
own connection, the table records the registrations at every moment exactly when every number
stored differs from `EMPTY_SOCKET` and every number set free is that of no other registration.
A table that records the registrations bounds the live threads by its size. -/
theorem slots_exact_iff (nSporeSocket : Int) (openFds : Finset Int) (events : List BtEvent)
    (own : EachStep step OwnNumber (start nSporeSocket openFds) events) :
    EachState step SlotTableExact (start nSporeSocket openFds) events ↔
      EachStep step Distinguishes (start nSporeSocket openFds) events :=
  eachState_iff_eachStep
    (fun (_ : BtServer) (registers : Registers _) =>
      slotTableExact_of_slots registers.formed registers.slots)
    (fun _ _ _ registers own distinct stepped => step_registers registers own distinct stepped)
    (fun _ _ _ registers _ confused stepped exact_table =>
      step_confuses registers confused stepped exact_table.1)
    (start_registers nSporeSocket openFds) own

/-- The rule at a connection that comes and goes before the next with the same number. -/
theorem slots_exact_turns :
    EachState step SlotTableExact (start 0 ∅)
      (registering 7 ++ closingThread 0 ++ [.client 0 .setSocketSlotFree, .main .sleep] ++
        registering 7) :=
  (slots_exact_iff 0 ∅ _ (by decide)).mpr (by decide)

/-- A number is accepted anew after its thread has closed it and before that has set its slot
free: the newcomer loses its slot. -/
theorem slots_confused :
    ¬ ∀ (nSporeSocket : Int) (openFds : Finset Int) (events : List BtEvent),
      EachStep step OwnNumber (start nSporeSocket openFds) events →
      EachState step SlotTableExact (start nSporeSocket openFds) events := by
  intro always
  let reuse : List BtEvent := registering 7 ++ closingThread 0 ++ [.main .sleep] ++ registering 7 ++
    [.client 0 .setSocketSlotFree]
  have lost : (run step (start 0 ∅) reuse).map (fun server =>
      (registrations server.clients 1, server.nSocketList[8]?)) = some (some (7, 8), some 0) := by
    decide
  obtain ⟨final, reached, entries⟩ := Option.map_eq_some_iff.mp lost
  obtain ⟨entry, emptied⟩ := Prod.mk.inj entries
  have every := eachState_iff.mp (always 0 ∅ reuse (by decide))
  have exact_table := every reuse [] final (List.append_nil _).symm reached
  have held := (exact_table.1.stored 1 7 8 entry).1
  rw [emptied] at held
  exact absurd held (by decide)

end BtServer

end MidiDaemon
