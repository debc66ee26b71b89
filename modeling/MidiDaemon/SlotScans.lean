import MidiDaemon.Library.BoundedSet
import MidiDaemon.Library.Entries
import MidiDaemon.Library.Simulation
import MidiDaemon.SlotTable

/-!
# Scans of the slot table

No lock guards `nSocketList`: while `getFreeClient` goes through it for `main`, any number of
client threads go through it in `setSocketSlotFree`. The model takes the test of one entry and the
store to one entry as single steps, in any order. A thread that runs alone does what the two
functions say (`search_alone`, `release_alone`).

As long as no number is stored while a thread with the same number has not gone through the table,
and never `EMPTY_SOCKET` itself for a connection, the scans are operations on a bounded set of
numbers, each at one moment (`scans_linearize`): a number is registered by the store and released by
the store of `EMPTY_SOCKET`. A search that finds nothing is not one that saw a full table, since
entries become empty behind it. But the table was full when the search began.
-/

namespace MidiDaemon

open Machine BoundedSet

/-- What `main` does with the table. -/
inductive SearchStage where
  /-- `accept`. -/
  | accepting
  /-- `getFreeClient` for a number, with so many entries to go. -/
  | searching (nSporeSocket : Int) (nSocketListLen : Nat)
  /-- `nSocketList[nFreeSocketSlot] = nSporeSocket`. -/
  | storing (nSporeSocket : Int) (nFreeSocketSlot : Nat)
deriving DecidableEq, Repr

/-- What a client thread does with the table. -/
inductive ReleaseStage where
  /-- The connection is served. -/
  | serving
  /-- `setSocketSlotFree`, with so many entries to go. -/
  | scanning (nSocketListLen : Nat)
  /-- `pSocketList[nSocketListLen] = EMPTY_SOCKET`. -/
  | emptying (nSocketListLen : Nat)
  /-- `setSocketSlotFree` has returned. -/
  | released
deriving DecidableEq, Repr

/-- A connection that `main` has stored, and its thread. -/
structure ScanClient where
  /-- Its number. -/
  nSporeSocket : Int
  /-- The slot it was stored in. -/
  nSlot : Nat
  /-- What its thread does. -/
  stage : ReleaseStage
deriving DecidableEq, Repr

/-- The table, `main`, and the client threads in the order of their registration. -/
structure SlotScans where
  /-- `nSocketList`. -/
  nSocketList : List Int
  /-- What `main` does. -/
  main : SearchStage
  /-- The client threads. -/
  clients : List ScanClient
deriving DecidableEq

/-- A step of `main` or of a client thread. -/
inductive ScanEvent where
  /-- `accept` has returned a number, and `getFreeClient` is called. -/
  | search (nSporeSocket : Int)
  /-- One iteration of `getFreeClient`, or its end. -/
  | look
  /-- The number is stored. -/
  | store
  /-- A client thread calls `setSocketSlotFree`. -/
  | release (index : Nat)
  /-- The head of the loop in `setSocketSlotFree` and the test of an entry, or its end. -/
  | compare (index : Nat)
  /-- The entry is emptied. -/
  | empty (index : Nat)
deriving DecidableEq, Repr

/-- A step of `setSocketSlotFree` in a client thread, where the table has an entry. -/
def ScanClient.compare (pSocketList : List Int) (client : ScanClient) : Option ScanClient :=
  match client.stage with
  | .scanning 0 => some { client with stage := .released }
  | .scanning (nSocketListLen + 1) =>
    if pSocketList[nSocketListLen]? = some client.nSporeSocket then
      some { client with stage := .emptying nSocketListLen }
    else some { client with stage := .scanning nSocketListLen }
  | _ => none

namespace SlotScans

variable {count : Nat}

/-- An empty table of this length, and no connection. -/
def start (count : Nat) : SlotScans := ⟨List.replicate count emptySocket, .accepting, []⟩

/-- One step. -/
def step (scans : SlotScans) : ScanEvent → Option SlotScans
  | .search nSporeSocket =>
    if scans.main = .accepting then
      some { scans with main := .searching nSporeSocket scans.nSocketList.length }
    else none
  | .look =>
    match scans.main with
    -- `getFreeClient` returns `-1`, and the socket is closed.
    | .searching _ 0 => some { scans with main := .accepting }
    | .searching nSporeSocket (nSocketListLen + 1) =>
      if scans.nSocketList[nSocketListLen]? = some emptySocket then
        some { scans with main := .storing nSporeSocket nSocketListLen }
      else some { scans with main := .searching nSporeSocket nSocketListLen }
    | _ => none
  | .store =>
    match scans.main with
    | .storing nSporeSocket nFreeSocketSlot =>
      some
        { nSocketList := scans.nSocketList.set nFreeSocketSlot nSporeSocket
          main := .accepting
          clients := scans.clients ++ [⟨nSporeSocket, nFreeSocketSlot, .serving⟩] }
    | _ => none
  | .release index =>
    scans.clients[index]?.bind fun client =>
      if client.stage = .serving then
        some { scans with
          clients := scans.clients.set index
            { client with stage := .scanning scans.nSocketList.length } }
      else none
  | .compare index =>
    scans.clients[index]?.bind fun client =>
      (client.compare scans.nSocketList).map fun after =>
        { scans with clients := scans.clients.set index after }
  | .empty index =>
    scans.clients[index]?.bind fun client =>
      match client.stage with
      | .emptying nSocketListLen =>
        some { scans with
          nSocketList := scans.nSocketList.set nSocketListLen emptySocket
          clients := scans.clients.set index { client with stage := .scanning nSocketListLen } }
      | _ => none

/-- A number is stored that is not `EMPTY_SOCKET`, and every thread with the same number has gone
through the table. -/
def Fresh (scans : SlotScans) : ScanEvent → Prop
  | .store =>
    match scans.main with
    | .storing nSporeSocket _ => nSporeSocket ≠ emptySocket ∧
        ∀ client ∈ scans.clients, client.nSporeSocket = nSporeSocket → client.stage = .released
    | _ => True
  | _ => True

instance (scans : SlotScans) (event : ScanEvent) : Decidable (scans.Fresh event) := by
  unfold Fresh
  split
  · split <;> infer_instance
  · infer_instance

/-! ## Scans without interruption -/

/-- A search without interruption is `getFreeClient`. -/
theorem search_alone (scans : SlotScans) (nSporeSocket : Int) (nSocketListLen : Nat) :
    ∃ looks, run step { scans with main := .searching nSporeSocket nSocketListLen }
        (List.replicate looks .look) = some { scans with
      main :=
        if getFreeClient scans.nSocketList nSocketListLen = -1 then .accepting
        else .storing nSporeSocket (getFreeClient scans.nSocketList nSocketListLen).toNat } := by
  induction nSocketListLen with
  | zero => exact ⟨1, rfl⟩
  | succ nSocketListLen ih =>
    by_cases empty : scans.nSocketList[nSocketListLen]? = some emptySocket
    · refine ⟨1, ?_⟩
      have found : getFreeClient scans.nSocketList (nSocketListLen + 1) = nSocketListLen :=
        if_pos empty
      have proper : (nSocketListLen : Int) ≠ -1 := by omega
      rw [found, if_neg proper, Int.toNat_natCast]
      simp only [List.replicate_one, run_single, step, if_pos empty]
    · have onward : getFreeClient scans.nSocketList (nSocketListLen + 1) =
          getFreeClient scans.nSocketList nSocketListLen := if_neg empty
      have ⟨looks, others⟩ := ih
      refine ⟨looks + 1, ?_⟩
      rw [onward, List.replicate_succ, run_cons]
      simp only [step, if_neg empty, Option.bind_some]
      exact others

/-- A release without interruption is `setSocketSlotFree`. -/
theorem release_alone {scans : SlotScans} {index : Nat} {client : ScanClient}
    (nSocketListLen : Nat)
    (found : scans.clients[index]? = some { client with stage := .scanning nSocketListLen }) :
    ∃ events, (∀ event ∈ events, event = .compare index ∨ event = .empty index) ∧
      run step scans events = some { scans with
        nSocketList := setSocketSlotFree scans.nSocketList nSocketListLen client.nSporeSocket
        clients := scans.clients.set index { client with stage := .released } } := by
  induction nSocketListLen generalizing scans with
  | zero =>
    refine ⟨[.compare index], by simp, ?_⟩
    rw [run_single, step, found]
    rfl
  | succ nSocketListLen ih =>
    obtain ⟨inside, -⟩ := List.getElem?_eq_some_iff.mp found
    by_cases held : scans.nSocketList[nSocketListLen]? = some client.nSporeSocket
    · have here : ∀ stage, (scans.clients.set index { client with stage := stage })[index]? =
          some { client with stage := stage } := fun stage => List.getElem?_set_self inside
      obtain ⟨events, own, ran⟩ := @ih
        { scans with
          nSocketList := scans.nSocketList.set nSocketListLen emptySocket
          clients := scans.clients.set index { client with stage := .scanning nSocketListLen } }
        (here _)
      refine ⟨.compare index :: .empty index :: events, by simpa using own, ?_⟩
      have compared : scans.step (.compare index) = some { scans with
          clients := scans.clients.set index
            { client with stage := .emptying nSocketListLen } } := by
        simp only [step, found, Option.bind_some, ScanClient.compare, if_pos held, Option.map_some]
      have emptied : step { scans with
          clients := scans.clients.set index { client with stage := .emptying nSocketListLen } }
            (.empty index) = some { scans with
          nSocketList := scans.nSocketList.set nSocketListLen emptySocket
          clients := scans.clients.set index
            { client with stage := .scanning nSocketListLen } } := by
        simp only [step, here, Option.bind_some, List.set_set]
      rw [run_cons, compared, Option.bind_some, run_cons, emptied, Option.bind_some, ran,
        setSocketSlotFree, if_pos held, List.set_set]
    · obtain ⟨events, own, ran⟩ := @ih
        { scans with
          clients := scans.clients.set index { client with stage := .scanning nSocketListLen } }
        (List.getElem?_set_self inside)
      refine ⟨.compare index :: events, by simpa using own, ?_⟩
      have compared : scans.step (.compare index) = some { scans with
          clients := scans.clients.set index
            { client with stage := .scanning nSocketListLen } } := by
        simp only [step, found, Option.bind_some, ScanClient.compare, if_neg held, Option.map_some]
      rw [run_cons, compared, Option.bind_some, ran, setSocketSlotFree, if_neg held, List.set_set]

end SlotScans

/-! ## The set of registered numbers -/

/-- The numbers that are registered, and what `main` may be told. -/
structure SlotPool (count : Nat) where
  /-- The numbers that are registered and not released. -/
  registered : BoundedSet Int count
  /-- The set was full when the search began. -/
  fullBefore : Bool

/-- What the scans do to the set. -/
inductive PoolEvent where
  /-- A search begins. -/
  | search
  /-- A search finds nothing. -/
  | refuse
  /-- A number is registered. -/
  | register (nSporeSocket : Int)
  /-- A number is released. -/
  | release (nSporeSocket : Int)
deriving DecidableEq, Repr

namespace SlotPool

variable {count : Nat}

/-- No number is registered. -/
def start (count : Nat) : SlotPool count := ⟨.empty, false⟩

/-- One operation on the set: a number is registered that is not in the set, and while there is
room; a number is released that is in the set; and nobody is refused unless the set was full when
the search began. -/
def step (pool : SlotPool count) : PoolEvent → Option (SlotPool count)
  | .search => some { pool with fullBefore := pool.registered.Full }
  | .refuse => if pool.fullBefore then some pool else none
  | .register nSporeSocket =>
    if nSporeSocket ∉ pool.registered.elements ∧ ¬ pool.registered.Full then
      some { pool with registered := pool.registered.add nSporeSocket }
    else none
  | .release nSporeSocket =>
    if nSporeSocket ∈ pool.registered.elements then
      some { pool with registered := pool.registered.remove nSporeSocket }
    else none

end SlotPool

/-! ## What holds at every moment -/

/-- The slot of the client still holds its number. -/
def ScanClient.Holds (client : ScanClient) : Prop :=
  match client.stage with
  | .serving => True
  | .scanning nSocketListLen => client.nSlot < nSocketListLen
  | .emptying nSocketListLen => nSocketListLen = client.nSlot
  | .released => False

/-- A client whose slot holds its number has not gone through the table. -/
theorem ScanClient.Holds.unreleased {client : ScanClient} (holds : client.Holds) :
    client.stage ≠ .released := by
  intro gone
  rw [ScanClient.Holds, gone] at holds
  exact holds

namespace SlotScans

variable {scans : SlotScans} {count index : Nat} {client after : ScanClient}

/-- What holds as long as no number is stored too early. -/
structure Consistent (count : Nat) (scans : SlotScans) : Prop where
  /-- The size of the table. -/
  size : scans.nSocketList.length = count
  /-- The slot found is still empty. -/
  storing : ∀ nSporeSocket nSlot, scans.main = .storing nSporeSocket nSlot →
    scans.nSocketList[nSlot]? = some emptySocket
  /-- A slot that has not been emptied holds the number of its client. -/
  held : ∀ (index : Nat) (client : ScanClient), scans.clients[index]? = some client →
    client.Holds → scans.nSocketList[client.nSlot]? = some client.nSporeSocket
  /-- An occupied slot is that of a client. -/
  owned : ∀ (nSlot : Nat) (nSporeSocket : Int), scans.nSocketList[nSlot]? = some nSporeSocket →
    nSporeSocket ≠ emptySocket → ∃ (index : Nat) (client : ScanClient),
      scans.clients[index]? = some client ∧ client.Holds ∧ client.nSlot = nSlot ∧
        client.nSporeSocket = nSporeSocket
  /-- A thread empties its own slot. -/
  own : ∀ (index : Nat) (client : ScanClient) (nSlot : Nat),
    scans.clients[index]? = some client → client.stage = .emptying nSlot → nSlot = client.nSlot
  /-- No number is `EMPTY_SOCKET`. -/
  number : ∀ (index : Nat) (client : ScanClient), scans.clients[index]? = some client →
    client.nSporeSocket ≠ emptySocket
  /-- Threads that have not gone through the table have different numbers. -/
  distinct : ∀ (index other : Nat) (client thread : ScanClient),
    scans.clients[index]? = some client → scans.clients[other]? = some thread →
    client.stage ≠ .released → thread.stage ≠ .released →
    client.nSporeSocket = thread.nSporeSocket → index = other

/-- Nothing is stored in the beginning. -/
theorem start_consistent (count : Nat) : (start count).Consistent count where
  size := List.length_replicate
  storing _ _ storing := by cases storing
  held _ _ found := by cases found
  owned nSlot nSporeSocket held occupied := by
    have same := List.eq_of_mem_replicate (List.mem_of_getElem? held)
    exact absurd same occupied
  own _ _ _ found := by cases found
  number _ _ found := by cases found
  distinct _ _ _ _ found := by cases found

/-- An entry that has the number of a thread is its slot. -/
theorem Consistent.slot (consistent : scans.Consistent count)
    (found : scans.clients[index]? = some client) (live : client.stage ≠ .released) {nSlot : Nat}
    (held : scans.nSocketList[nSlot]? = some client.nSporeSocket) :
    client.Holds ∧ nSlot = client.nSlot := by
  have ⟨other, thread, here, holds, slot, number⟩ :=
    consistent.owned nSlot client.nSporeSocket held (consistent.number index client found)
  have same : other = index :=
    consistent.distinct other index thread client here found holds.unreleased live number
  rw [same, found] at here
  have one : client = thread := Option.some.inj here
  rw [one]
  exact ⟨holds, slot.symm⟩

/-- A thread that goes on without a store, and holds its slot as before. -/
theorem Consistent.progress (consistent : scans.Consistent count)
    (found : scans.clients[index]? = some client) (live : client.stage ≠ .released)
    {stage : ReleaseStage}
    (holds : ScanClient.Holds { client with stage := stage } ↔ client.Holds)
    (own : ∀ nSlot, stage = .emptying nSlot → nSlot = client.nSlot) :
    Consistent count { scans with
      clients := scans.clients.set index { client with stage := stage } } where
  size := consistent.size
  storing := consistent.storing
  held other thread lookup holding := by
    rcases Entries.set_cases lookup with ⟨-, rfl⟩ | ⟨-, before⟩
    · exact consistent.held index client found (holds.mp holding)
    · exact consistent.held other thread before holding
  owned nSlot nSporeSocket held occupied := by
    have ⟨other, thread, here, holding, slot, number⟩ :=
      consistent.owned nSlot nSporeSocket held occupied
    by_cases same : other = index
    · rw [same, found] at here
      have one : client = thread := Option.some.inj here
      have inside := (List.getElem?_eq_some_iff.mp found).1
      refine ⟨index, _, List.getElem?_set_self inside, ?_, ?_, ?_⟩
      · rw [holds, one]
        exact holding
      · show client.nSlot = nSlot
        rw [one, slot]
      · show client.nSporeSocket = nSporeSocket
        rw [one, number]
    · exact ⟨other, thread, by rw [List.getElem?_set_ne (Ne.symm same), here], holding, slot,
        number⟩
  own other thread nSlot lookup emptying := by
    rcases Entries.set_cases lookup with ⟨-, rfl⟩ | ⟨-, before⟩
    · exact own nSlot emptying
    · exact consistent.own other thread nSlot before emptying
  number other thread lookup := by
    rcases Entries.set_cases lookup with ⟨-, rfl⟩ | ⟨-, before⟩
    · exact consistent.number index client found
    · exact consistent.number other thread before
  distinct first second one two lookup lookupTwo liveOne liveTwo same := by
    rcases Entries.set_cases lookup with ⟨rfl, rfl⟩ | ⟨-, before⟩
    · rcases Entries.set_cases lookupTwo with ⟨rfl, -⟩ | ⟨-, beforeTwo⟩
      · rfl
      · exact consistent.distinct first second client two found beforeTwo live liveTwo same
    · rcases Entries.set_cases lookupTwo with ⟨rfl, rfl⟩ | ⟨-, beforeTwo⟩
      · exact consistent.distinct first second one client before found liveOne live same
      · exact consistent.distinct first second one two before beforeTwo liveOne liveTwo same

/-- A thread empties its slot, and holds it no longer. -/
theorem Consistent.empty (consistent : scans.Consistent count)
    (found : scans.clients[index]? = some client) {nSlot : Nat}
    (emptying : client.stage = .emptying nSlot) :
    Consistent count { scans with
      nSocketList := scans.nSocketList.set nSlot emptySocket
      clients := scans.clients.set index { client with stage := .scanning nSlot } } := by
  have slot : nSlot = client.nSlot := consistent.own index client nSlot found emptying
  have live : client.stage ≠ .released := by simp [emptying]
  have holds : client.Holds := by
    rw [ScanClient.Holds, emptying]
    exact slot
  have held := consistent.held index client found holds
  have inside : nSlot < scans.nSocketList.length := by
    rw [slot]
    exact (List.getElem?_eq_some_iff.mp held).1
  -- Another thread that holds a slot holds another one, for its number is another.
  have apart : ∀ (other : Nat) (thread : ScanClient), other ≠ index →
      scans.clients[other]? = some thread → thread.Holds → thread.nSlot ≠ nSlot := by
    intro other thread differ here holding same
    have entry := consistent.held other thread here holding
    rw [same, slot, held] at entry
    have number : client.nSporeSocket = thread.nSporeSocket := Option.some.inj entry
    exact differ (consistent.distinct index other client thread found here live
      holding.unreleased number).symm
  constructor
  · show (scans.nSocketList.set nSlot emptySocket).length = count
    rw [List.length_set]
    exact consistent.size
  · intro nSporeSocket nFreeSocketSlot storing
    show (scans.nSocketList.set nSlot emptySocket)[nFreeSocketSlot]? = some emptySocket
    by_cases same : nFreeSocketSlot = nSlot
    · rw [same, List.getElem?_set_self inside]
    · rw [List.getElem?_set_ne (Ne.symm same)]
      exact consistent.storing nSporeSocket nFreeSocketSlot storing
  · intro other thread lookup holding
    show (scans.nSocketList.set nSlot emptySocket)[thread.nSlot]? = some thread.nSporeSocket
    rcases Entries.set_cases lookup with ⟨-, rfl⟩ | ⟨differ, before⟩
    · have below : client.nSlot < nSlot := holding
      omega
    · rw [List.getElem?_set_ne (Ne.symm (apart other thread differ before holding))]
      exact consistent.held other thread before holding
  · intro slot' nSporeSocket entry occupied
    rcases Entries.set_cases entry with ⟨-, rfl⟩ | ⟨elsewhere, before⟩
    · exact absurd rfl occupied
    · have ⟨other, thread, here, holding, same, number⟩ :=
        consistent.owned slot' nSporeSocket before occupied
      have differ : other ≠ index := by
        intro one
        rw [one, found] at here
        have self : client = thread := Option.some.inj here
        exact elsewhere (by rw [← same, ← self, slot])
      exact ⟨other, thread, by rw [List.getElem?_set_ne (Ne.symm differ), here], holding, same,
        number⟩
  · intro other thread place lookup emptied
    rcases Entries.set_cases lookup with ⟨-, rfl⟩ | ⟨-, before⟩
    · cases emptied
    · exact consistent.own other thread place before emptied
  · intro other thread lookup
    rcases Entries.set_cases lookup with ⟨-, rfl⟩ | ⟨-, before⟩
    · exact consistent.number index client found
    · exact consistent.number other thread before
  · intro first second one two lookup lookupTwo liveOne liveTwo same
    rcases Entries.set_cases lookup with ⟨rfl, rfl⟩ | ⟨-, before⟩
    · rcases Entries.set_cases lookupTwo with ⟨rfl, -⟩ | ⟨-, beforeTwo⟩
      · rfl
      · exact consistent.distinct first second client two found beforeTwo live liveTwo same
    · rcases Entries.set_cases lookupTwo with ⟨rfl, rfl⟩ | ⟨-, beforeTwo⟩
      · exact consistent.distinct first second one client before found liveOne live same
      · exact consistent.distinct first second one two before beforeTwo liveOne liveTwo same

/-- A number is stored that no thread has which has not gone through the table. -/
theorem Consistent.store (consistent : scans.Consistent count) {nSporeSocket : Int} {nSlot : Nat}
    (storing : scans.main = .storing nSporeSocket nSlot) (occupied : nSporeSocket ≠ emptySocket)
    (fresh : ∀ client ∈ scans.clients, client.nSporeSocket = nSporeSocket →
      client.stage = .released) :
    Consistent count
      { nSocketList := scans.nSocketList.set nSlot nSporeSocket
        main := .accepting
        clients := scans.clients ++ [⟨nSporeSocket, nSlot, .serving⟩] } := by
  have free := consistent.storing nSporeSocket nSlot storing
  have inside := (List.getElem?_eq_some_iff.mp free).1
  constructor
  · show (scans.nSocketList.set nSlot nSporeSocket).length = count
    rw [List.length_set]
    exact consistent.size
  · intro number place waits
    cases waits
  · intro other thread lookup holding
    show (scans.nSocketList.set nSlot nSporeSocket)[thread.nSlot]? = some thread.nSporeSocket
    rcases Entries.concat_cases lookup with ⟨-, rfl⟩ | before
    · exact List.getElem?_set_self inside
    · have entry := consistent.held other thread before holding
      have elsewhere : thread.nSlot ≠ nSlot := by
        intro same
        rw [same, free] at entry
        exact consistent.number other thread before (Option.some.inj entry).symm
      rw [List.getElem?_set_ne (Ne.symm elsewhere)]
      exact entry
  · intro place number entry filled
    rcases Entries.set_cases entry with ⟨rfl, rfl⟩ | ⟨-, before⟩
    · exact ⟨scans.clients.length, _, List.getElem?_concat_length, trivial, rfl, rfl⟩
    · have ⟨other, thread, here, holding, same, own⟩ := consistent.owned place number before filled
      have early := (List.getElem?_eq_some_iff.mp here).1
      exact ⟨other, thread, by rw [List.getElem?_append_left early, here], holding, same, own⟩
  · intro other thread place lookup emptied
    rcases Entries.concat_cases lookup with ⟨-, rfl⟩ | before
    · cases emptied
    · exact consistent.own other thread place before emptied
  · intro other thread lookup
    rcases Entries.concat_cases lookup with ⟨-, rfl⟩ | before
    · exact occupied
    · exact consistent.number other thread before
  · intro first second one two lookup lookupTwo liveOne liveTwo same
    rcases Entries.concat_cases lookup with ⟨rfl, rfl⟩ | before
    · rcases Entries.concat_cases lookupTwo with ⟨rfl, -⟩ | beforeTwo
      · rfl
      · exact absurd (fresh two (List.mem_of_getElem? beforeTwo) same.symm) liveTwo
    · rcases Entries.concat_cases lookupTwo with ⟨rfl, rfl⟩ | beforeTwo
      · exact absurd (fresh one (List.mem_of_getElem? before) same) liveOne
      · exact consistent.distinct first second one two before beforeTwo liveOne liveTwo same

/-- `main` goes on, and stores only into an empty slot. -/
theorem Consistent.onward (consistent : scans.Consistent count) {stage : SearchStage}
    (free : ∀ nSporeSocket nSlot, stage = .storing nSporeSocket nSlot →
      scans.nSocketList[nSlot]? = some emptySocket) :
    Consistent count { scans with main := stage } where
  size := consistent.size
  storing := free
  held := consistent.held
  owned := consistent.owned
  own := consistent.own
  number := consistent.number
  distinct := consistent.distinct

/-- A number that no live thread has is not in the table. -/
theorem Consistent.absent (consistent : scans.Consistent count) {nSporeSocket : Int}
    (occupied : nSporeSocket ≠ emptySocket)
    (fresh : ∀ client ∈ scans.clients, client.nSporeSocket = nSporeSocket →
      client.stage = .released) : nSporeSocket ∉ scans.nSocketList := by
  intro member
  have ⟨nSlot, held⟩ := List.mem_iff_getElem?.mp member
  have ⟨index, client, found, holds, _, number⟩ :=
    consistent.owned nSlot nSporeSocket held occupied
  exact holds.unreleased (fresh client (List.mem_of_getElem? found) number)

/-- A number that has been looked for everywhere is not in the table. -/
theorem Consistent.through (consistent : scans.Consistent count)
    (found : scans.clients[index]? = some client) (ended : client.stage = .scanning 0) :
    client.nSporeSocket ∉ scans.nSocketList := by
  intro member
  have ⟨nSlot, held⟩ := List.mem_iff_getElem?.mp member
  have holds := (consistent.slot found (by simp [ended]) held).1
  rw [ScanClient.Holds, ended] at holds
  exact absurd holds (Nat.not_lt_zero _)

/-! ## Scans are operations on the set -/

/-- What a step shows of the set of numbers. -/
def shown (scans : SlotScans) : ScanEvent → List PoolEvent
  | .search _ => [.search]
  | .look =>
    match scans.main with
    | .searching _ 0 => [.refuse]
    | _ => []
  | .store =>
    match scans.main with
    | .storing nSporeSocket _ => [.register nSporeSocket]
    | _ => []
  | .empty index =>
    match scans.clients[index]? with
    | some client => [.release client.nSporeSocket]
    | none => []
  | _ => []

/-- The table stands for the set, and a search that may not fail has an empty slot before it. -/
structure Stands (scans : SlotScans) (pool : SlotPool count) : Prop where
  /-- What holds at every moment. -/
  consistent : scans.Consistent count
  /-- The occupied entries are the numbers of the set, each once. -/
  represents : Represents emptySocket scans.nSocketList pool.registered.elements
  /-- There is an empty entry that has not been looked at. -/
  ahead : ∀ nSporeSocket nSocketListLen, scans.main = .searching nSporeSocket nSocketListLen →
    pool.fullBefore = false →
    ∃ nSlot, nSlot < nSocketListLen ∧ scans.nSocketList[nSlot]? = some emptySocket

/-- What a step does to the table. -/
structure Serves (scans : SlotScans) (event : ScanEvent) : Prop where
  /-- A number is stored in an empty slot. -/
  stores : event = .store → ∀ nSporeSocket nSlot, scans.main = .storing nSporeSocket nSlot →
    scans.nSocketList[nSlot]? = some emptySocket
  /-- A thread empties its own slot, which holds its number. -/
  empties : ∀ (index : Nat) (client : ScanClient) (nSlot : Nat), event = .empty index →
    scans.clients[index]? = some client → client.stage = .emptying nSlot →
    nSlot = client.nSlot ∧ scans.nSocketList[nSlot]? = some client.nSporeSocket
  /-- A thread that is through has left its number nowhere. -/
  through : ∀ (index : Nat) (client : ScanClient), event = .compare index →
    scans.clients[index]? = some client → client.stage = .scanning 0 →
    client.nSporeSocket ∉ scans.nSocketList

/-- A table that stands for a set is served well. -/
theorem Consistent.serves (consistent : scans.Consistent count) (event : ScanEvent) :
    scans.Serves event where
  stores _ nSporeSocket nSlot storing := consistent.storing nSporeSocket nSlot storing
  empties index client nSlot _ found emptying := by
    have slot := consistent.own index client nSlot found emptying
    have holds : client.Holds := by
      rw [ScanClient.Holds, emptying]
      exact slot
    refine ⟨slot, ?_⟩
    rw [slot]
    exact consistent.held index client found holds
  through _ _ _ found ended := consistent.through found ended

variable {pool : SlotPool count}

/-- Nothing is registered in the beginning. -/
theorem start_stands (count : Nat) : (start count).Stands (SlotPool.start count) where
  consistent := start_consistent count
  represents := represents_vacant emptySocket count
  ahead _ _ searching := by cases searching

/-- A thread that goes on without a store shows nothing. -/
theorem Stands.progress (stands : scans.Stands pool)
    (found : scans.clients[index]? = some client) (live : client.stage ≠ .released)
    {stage : ReleaseStage}
    (holds : ScanClient.Holds { client with stage := stage } ↔ client.Holds)
    (own : ∀ nSlot, stage = .emptying nSlot → nSlot = client.nSlot) :
    Stands { scans with
      clients := scans.clients.set index { client with stage := stage } } pool where
  consistent := stands.consistent.progress found live holds own
  represents := stands.represents
  ahead := stands.ahead

/-- A comparison shows nothing. -/
theorem Stands.compare (stands : scans.Stands pool)
    (found : scans.clients[index]? = some client)
    (compared : client.compare scans.nSocketList = some after) :
    Stands { scans with clients := scans.clients.set index after } pool := by
  unfold ScanClient.compare at compared
  split at compared
  · rename_i ended
    have same := Option.some.inj compared
    rw [← same]
    apply stands.progress found (by simp [ended])
    · simp [ScanClient.Holds, ended]
    · simp
  · rename_i nSocketListLen scanning
    have live : client.stage ≠ .released := by simp [scanning]
    split at compared
    · rename_i held
      have same := Option.some.inj compared
      have ⟨holds, slot⟩ := stands.consistent.slot found live held
      rw [← same]
      apply stands.progress found live
      · exact ⟨fun _ => holds, fun _ => slot⟩
      · intro nSlot emptying
        rw [← ReleaseStage.emptying.inj emptying]
        exact slot
    · rename_i unlike
      have same := Option.some.inj compared
      rw [← same]
      apply stands.progress found live
      · constructor
        · intro below
          have under : client.nSlot < nSocketListLen := below
          rw [ScanClient.Holds, scanning]
          show client.nSlot < nSocketListLen + 1
          omega
        · intro holds
          have elsewhere : client.nSlot ≠ nSocketListLen := by
            intro slot
            apply unlike
            rw [← slot]
            exact stands.consistent.held index client found holds
          rw [ScanClient.Holds, scanning] at holds
          have under : client.nSlot < nSocketListLen + 1 := holds
          show client.nSlot < nSocketListLen
          omega
      · simp
  · cases compared

/-- Each step is matched on the set. -/
theorem step_stands {next : SlotScans} {event : ScanEvent} (stands : scans.Stands pool)
    (fresh : scans.Fresh event) (stepped : scans.step event = some next) :
    ∃ after, run SlotPool.step pool (scans.shown event) = some after ∧ next.Stands after := by
  have consistent := stands.consistent
  cases event with
  | search nSporeSocket =>
    simp only [step, Option.ite_none_right_eq_some, Option.some.injEq] at stepped
    obtain ⟨-, rfl⟩ := stepped
    refine ⟨_, rfl, consistent.onward (by simp), stands.represents, ?_⟩
    intro number nSocketListLen searching room
    have length := (SearchStage.searching.inj searching).2
    have unfilled : ¬ pool.registered.Full := by simpa using room
    rw [stands.represents.full_iff consistent.size, not_not] at unfilled
    have ⟨nSlot, free⟩ := List.mem_iff_getElem?.mp unfilled
    have inside := (List.getElem?_eq_some_iff.mp free).1
    exact ⟨nSlot, by omega, free⟩
  | look =>
    simp only [step] at stepped
    split at stepped
    · rename_i nSporeSocket searching
      have same := Option.some.inj stepped
      have before : pool.fullBefore = true := by
        by_contra room
        have ⟨nSlot, below, _⟩ :=
          stands.ahead nSporeSocket 0 searching (Bool.eq_false_of_not_eq_true room)
        omega
      refine ⟨pool, ?_, ?_⟩
      · simp only [shown, searching, run_single, SlotPool.step, if_pos before]
      · rw [← same]
        exact ⟨consistent.onward (by simp), stands.represents, by simp⟩
    · rename_i nSporeSocket nSocketListLen searching
      refine ⟨pool, by simp only [shown, searching, run_nil], ?_⟩
      split at stepped
      · rename_i free
        have same := Option.some.inj stepped
        rw [← same]
        refine ⟨consistent.onward ?_, stands.represents, by simp⟩
        intro number nSlot storing
        rw [← (SearchStage.storing.inj storing).2]
        exact free
      · rename_i occupied
        have same := Option.some.inj stepped
        rw [← same]
        refine ⟨consistent.onward (by simp), stands.represents, ?_⟩
        intro number left further room
        have fewer := (SearchStage.searching.inj further).2
        have ⟨nSlot, below, free⟩ := stands.ahead nSporeSocket _ searching room
        have elsewhere : nSlot ≠ nSocketListLen := by
          intro here
          exact occupied (here ▸ free)
        exact ⟨nSlot, by omega, free⟩
    · cases stepped
  | store =>
    simp only [step] at stepped
    split at stepped
    · rename_i nSporeSocket nSlot storing
      have same := Option.some.inj stepped
      simp only [Fresh, storing] at fresh
      have ⟨occupied, others⟩ := fresh
      have free := consistent.storing nSporeSocket nSlot storing
      have absent := consistent.absent occupied others
      have outside : nSporeSocket ∉ pool.registered.elements :=
        fun member => absent ((stands.represents.exact nSporeSocket).mp member).1
      have room : ¬ pool.registered.Full := by
        rw [stands.represents.full_iff consistent.size, not_not]
        exact List.mem_of_getElem? free
      refine ⟨{ pool with registered := pool.registered.add nSporeSocket }, ?_, ?_⟩
      · simp only [shown, storing, run_single, SlotPool.step]
        exact if_pos ⟨outside, room⟩
      · rw [← same]
        refine ⟨consistent.store storing occupied others, ?_, by simp⟩
        exact stands.represents.add consistent.size free occupied absent
    · cases stepped
  | release index =>
    have ⟨client, found, onward⟩ := Option.bind_eq_some_iff.mp stepped
    simp only [Option.ite_none_right_eq_some, Option.some.injEq] at onward
    obtain ⟨serving, rfl⟩ := onward
    have holds : client.Holds := by
      rw [ScanClient.Holds, serving]
      trivial
    have held := consistent.held index client found holds
    have inside := (List.getElem?_eq_some_iff.mp held).1
    refine ⟨pool, rfl, stands.progress found (by simp [serving]) ?_ (by simp)⟩
    exact ⟨fun _ => holds, fun _ => inside⟩
  | compare index =>
    have ⟨client, found, onward⟩ := Option.bind_eq_some_iff.mp stepped
    have ⟨after, compared, same⟩ := Option.map_eq_some_iff.mp onward
    rw [← same]
    exact ⟨pool, rfl, stands.compare found compared⟩
  | empty index =>
    have ⟨client, found, onward⟩ := Option.bind_eq_some_iff.mp stepped
    split at onward
    · rename_i nSlot emptying
      have same := Option.some.inj onward
      have ⟨slot, held⟩ := (consistent.serves (.empty index)).empties index client nSlot rfl found
        emptying
      have number := consistent.number index client found
      have member : client.nSporeSocket ∈ pool.registered.elements :=
        (stands.represents.exact _).mpr ⟨List.mem_of_getElem? held, number⟩
      refine ⟨{ pool with registered := pool.registered.remove client.nSporeSocket }, ?_, ?_⟩
      · simp only [shown, found, run_single, SlotPool.step]
        exact if_pos member
      · rw [← same]
        refine ⟨consistent.empty found emptying, stands.represents.remove fun place => ?_, ?_⟩
        · have inside := (List.getElem?_eq_some_iff.mp held).1
          by_cases here : scans.nSocketList[place]? = some client.nSporeSocket
          · have one : place = nSlot :=
              stands.represents.distinct place nSlot client.nSporeSocket here held number
            rw [if_pos here, one]
            exact List.getElem?_set_self inside
          · have elsewhere : nSlot ≠ place := fun one => here (one ▸ held)
            rw [if_neg here]
            exact List.getElem?_set_ne elsewhere
        · intro nSporeSocket nSocketListLen searching before
          have ⟨free, below, vacant⟩ := stands.ahead nSporeSocket nSocketListLen searching before
          have inside := (List.getElem?_eq_some_iff.mp vacant).1
          refine ⟨free, below, ?_⟩
          show (scans.nSocketList.set nSlot emptySocket)[free]? = some emptySocket
          by_cases one : nSlot = free
          · rw [one, List.getElem?_set_self inside]
          · rw [List.getElem?_set_ne one]
            exact vacant
    · cases onward

/-- Scans of single entries are operations on a bounded set. For every length of the table, any
number of client threads and every interleaving of their tests and stores with those of `main`, as
long as `EMPTY_SOCKET` is never stored for a connection and each number is stored after every thread
with the same number has gone through the table:
what the stores and the refusals show is a run of the set, the table stands for its result, every
number is stored in an empty slot, each thread empties its own slot and no other, and leaves its
number nowhere. -/
theorem scans_linearize (count : Nat) (events : List ScanEvent)
    (fresh : EachStep step Fresh (start count) events) :
    EachStep step Serves (start count) events ∧
      ∀ final, run step (start count) events = some final → ∃ pool,
        run SlotPool.step (SlotPool.start count) (trace step shown (start count) events) =
          some pool ∧
        Represents emptySocket final.nSocketList pool.registered.elements := by
  constructor
  · have kept : ∀ scans event next, (∃ pool : SlotPool count, Stands scans pool) →
        Fresh scans event → step scans event = some next →
        ∃ pool : SlotPool count, Stands next pool := by
      intro scans event next standing met stepped
      have ⟨pool, stands⟩ := standing
      have ⟨after, _, onward⟩ := step_stands stands met stepped
      exact ⟨after, onward⟩
    apply eachStep_of_invariant _ kept ⟨SlotPool.start count, start_stands count⟩ fresh
    intro scans event standing _
    have ⟨pool, stands⟩ := standing
    exact stands.consistent.serves event
  · intro final reached
    have ⟨pool, ran, stands⟩ := run_simulates
      (fun _ _ _ _ stands met stepped => step_stands stands met stepped)
      (start_stands count) fresh reached
    exact ⟨pool, ran, stands.represents⟩

/-- A table of one slot: while a search goes past the occupied slot, its thread empties it, so that
a connection is refused though the table is empty. -/
def refusedInVain : List ScanEvent :=
  [.search 7, .look, .store, .release 0, .search 8, .look, .compare 0, .empty 0, .look]

/-- The rule at this run. -/
theorem scans_linearize_refused :
    EachStep step Serves (start 1) refusedInVain ∧
      ∀ final, run step (start 1) refusedInVain = some final → ∃ pool,
        run SlotPool.step (SlotPool.start 1) (trace step shown (start 1) refusedInVain) =
          some pool ∧
        Represents emptySocket final.nSocketList pool.registered.elements :=
  scans_linearize 1 refusedInVain (by decide)

/-- It is not the table at the end of the search that decides. -/
example : (run step (start 1) refusedInVain).map SlotScans.nSocketList = some [0] ∧
    trace step shown (start 1) refusedInVain =
      [.search, .register 7, .search, .release 7, .refuse] := by decide

end SlotScans

end MidiDaemon
