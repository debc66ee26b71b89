import MidiDaemon.CommandServer
import MidiDaemon.SequencerSetup

/-!
# The command thread from its set-up to its end

`updateMidiAttr` sets up a sequencer as the reader threads do, opens its listening socket, serves
clients until `__io_canceled` is set or `select` fails, and releases what it has. On every way out
each descriptor it has ever had is closed once. Its sequencer it releases once as well, also when
this does not open, which the reader threads do not. But ports that are not parsed leave behind what
`RELEASE_IPC_SEQ` is wrong about: an array that is freed or lost, and a port number `0` of a port
that was never created (`command_thread_releases`).
-/

namespace MidiDaemon

open Heap Ledger Machine

/-- What the calls return that open the listening socket. -/
structure ListenCalls where
  /-- `socket`. -/
  socket : Int
  /-- `setsockopt` succeeds. -/
  setsockopt : Bool
  /-- `ioctl` succeeds. -/
  ioctl : Bool
  /-- `bind` succeeds. -/
  bind : Bool
  /-- `listen` succeeds. -/
  listen : Bool

/-- The listening socket: its number if it listens, and the descriptors there have been. -/
def openServerSocket (calls : ListenCalls) : Option Nat × List (Entry Nat) :=
  if calls.socket < 0 then (none, [])
  else
    let nServerSocket := calls.socket.toNat
    let opened := opening nServerSocket []
    if !calls.setsockopt then (none, closing nServerSocket opened)
    else if !calls.ioctl then (none, closing nServerSocket opened)
    else if !calls.bind then (none, closing nServerSocket opened)
    else if !calls.listen then (none, closing nServerSocket opened)
    else (some nServerSocket, opened)

/-- The listening socket and the loop: the descriptors there have been when the loop, and the
clean-up behind it, are over. -/
def serveClients (calls : ListenCalls) (events : List CommandEvent) : Option (List (Entry Nat)) :=
  match openServerSocket calls with
  | (none, descriptors) => some descriptors
  | (some nServerSocket, _) =>
    (run CommandServer.step (.start nServerSocket) events).bind fun server =>
      if server.stage = .done then some server.descriptors else none

/-- `RELEASE_IPC_SEQ`. -/
def releaseIpcSeq (pSeq pPorts : Option Nat) (nMyPortID : Int) (resources : SeqResources) :
    Except Fault SeqResources := do
  let arrays ← free resources.arrays pPorts
  let handles ← deletePort pSeq nMyPortID resources.handles
  let handles ← free handles pSeq
  return ⟨handles, arrays⟩

/-- `updateMidiAttr`: what it still has when it returns, and the descriptors it has had; nothing as
long as it has not returned. -/
def updateMidiAttr (calls : SetupCalls) (listenCalls : ListenCalls) (cSndPort : List UInt8)
    (events : List CommandEvent) : Except Fault (Option (SeqResources × List (Entry Nat))) := do
  let (nClientID, pSeq, handles) ← nInitSeq calls none []
  if nClientID < 0 ∨ pSeq = none then
    return some (⟨← free handles pSeq, []⟩, [])
  let _ ← load handles pSeq
  let (nPortCount, pPorts, arrays) ← nParsePorts calls.parse cSndPort none []
  if nPortCount < 1 then
    return some (← releaseIpcSeq pSeq pPorts 0 ⟨handles, arrays⟩, [])
  let (nMyPortID, handles) ← pCreateSourcePort calls pSeq handles
  if nMyPortID < 0 then
    return some (← releaseIpcSeq pSeq pPorts nMyPortID ⟨handles, arrays⟩, [])
  let (nRc, connected) ← nConnectPorts calls.connectTo nPortCount pPorts arrays
  let seq ← load handles pSeq
  let handles ← store handles pSeq { seq with connections := seq.connections ++ connected }
  if nRc < 0 then
    return some (← releaseIpcSeq pSeq pPorts nMyPortID ⟨handles, arrays⟩, [])
  match serveClients listenCalls events with
  | none => return none
  | some descriptors =>
    return some (← releaseIpcSeq pSeq pPorts nMyPortID ⟨handles, arrays⟩, descriptors)

/-! ## The sockets -/

/-- A socket that is closed behind a failure has been closed once. -/
theorem closing_opening (number : Nat) :
    ∀ entry ∈ closing number (opening number ([] : List (Entry Nat))), entry.closes = 1 := by
  intro entry member
  simp only [opening, closing, if_true, List.mem_singleton] at member
  rw [member]

/-- When the listening socket does not listen, it has been closed, if it was there. -/
theorem openServerSocket_failed (calls : ListenCalls) (failed : (openServerSocket calls).1 = none) :
    ∀ entry ∈ (openServerSocket calls).2, entry.closes = 1 := by
  have closed := closing_opening calls.socket.toNat
  by_cases unopened : calls.socket < 0
  · simp [openServerSocket, unopened]
  · by_cases reusable : calls.setsockopt = true
    · by_cases nonBlocking : calls.ioctl = true
      · by_cases bound : calls.bind = true
        · by_cases listens : calls.listen = true
          · simp [openServerSocket, unopened, reusable, nonBlocking, bound, listens] at failed
          · simpa [openServerSocket, unopened, reusable, nonBlocking, bound, listens] using closed
        · simpa [openServerSocket, unopened, reusable, nonBlocking, bound] using closed
      · simpa [openServerSocket, unopened, reusable, nonBlocking] using closed
    · simpa [openServerSocket, unopened, reusable] using closed

/-- Every descriptor is closed once, whichever call fails. -/
theorem serveClients_closed {calls : ListenCalls} {events : List CommandEvent}
    {descriptors : List (Entry Nat)} (served : serveClients calls events = some descriptors) :
    ∀ entry ∈ descriptors, entry.closes = 1 := by
  unfold serveClients at served
  split at served
  · rename_i left unready
    have failed := openServerSocket_failed calls (by rw [unready])
    rw [unready, Option.some.inj served] at failed
    exact failed
  · rename_i nServerSocket opened _
    have ⟨server, reached, cleaned⟩ := Option.bind_eq_some_iff.mp served
    have tracked : server.Tracked :=
      run_invariant (fun _ _ _ tracked _ stepped => CommandServer.step_tracked tracked stepped)
        (CommandServer.start_tracked nServerSocket)
        (eachStep_of_forall (fun _ _ => trivial) _ events) reached
    simp only [Option.ite_none_right_eq_some, Option.some.injEq] at cleaned
    rw [← cleaned.2]
    exact tracked.finished cleaned.1

/-! ## The sequencer -/

variable {calls : SetupCalls} {listenCalls : ListenCalls} {cSndPort : List UInt8}
  {events : List CommandEvent}

/-- The block behind the loop is the exit block of the reader threads. -/
theorem releaseIpcSeq_eq (tSeqInfo : SeqForThread) (resources : SeqResources) :
    releaseIpcSeq tSeqInfo.pSeq tSeqInfo.pPorts tSeqInfo.nMyPortID resources =
      exitBlock tSeqInfo resources := rfl

/-- A sequencer that is not initialised is closed, if it was opened, and there is nothing else. -/
theorem updateMidiAttr_uninitialised (failed : ¬ calls.Initialised) :
    ∃ handles, updateMidiAttr calls listenCalls cSndPort events = .ok (some (⟨handles, []⟩, [])) ∧
      ∀ handle, ¬ Live handles handle := by
  by_cases opened : calls.seqOpen = true
  · refine ⟨[none], ?_, closed_dead⟩
    rw [updateMidiAttr, nInitSeq_failed opened failed]
    rfl
  · refine ⟨[], ?_, empty_dead⟩
    rw [updateMidiAttr, nInitSeq_unopened (by simpa using opened)]
    rfl

/-- When the ports are not parsed, `RELEASE_IPC_SEQ` has the pointer that `nParsePorts` left, and
port number `0`. -/
theorem updateMidiAttr_unparsed (initialised : calls.Initialised) {pPorts : Option Nat}
    {arrays : PortHeap}
    (parsed : nParsePorts calls.parse cSndPort none [] = .ok (-1, pPorts, arrays)) :
    updateMidiAttr calls listenCalls cSndPort events =
      (releaseIpcSeq (some 0) pPorts 0 ⟨[some ⟨[], []⟩], arrays⟩).map
        fun resources => some (resources, []) := by
  rw [updateMidiAttr, nInitSeq_initialised initialised]
  simp only [bind, Except.bind, if_neg initialised.goesOn]
  rw [parsed]
  cases released : releaseIpcSeq (some 0) pPorts 0 ⟨[some ⟨[], []⟩], arrays⟩ <;>
    simp [load, released, pure, Except.pure, Except.map]

/-- When they are parsed, it has the array they are in, and a port number that is negative or that
of a port it has created; clients are served only when all has been set up. -/
theorem updateMidiAttr_parsed (initialised : calls.Initialised) {ports : List SndSeqAddr}
    {block : Nat} {arrays : PortHeap} (filled : ports ≠ [])
    (loaded : load arrays (some block) = .ok (ports.map some))
    (parsed : nParsePorts calls.parse cSndPort none [] = .ok (ports.length, some block, arrays)) :
    ∃ nMyPortID seq served, (nMyPortID < 0 ∨ nMyPortID ∈ seq.ports) ∧
      (served = some [] ∨ served = serveClients listenCalls events) ∧
      updateMidiAttr calls listenCalls cSndPort events =
        match served with
        | none => .ok none
        | some descriptors =>
          (releaseIpcSeq (some 0) (some block) nMyPortID ⟨[some seq], arrays⟩).map
            fun resources => some (resources, descriptors) := by
  have enough : ¬ ((ports.length : Int) < 1) := by
    have some_port := List.length_pos_of_ne_nil filled
    omega
  obtain ⟨nRc, connected, connects, -, -⟩ := nConnectPorts_full calls.connectTo loaded
  by_cases created : calls.createSimplePort < 0
  · refine ⟨calls.createSimplePort, ⟨[], []⟩, some [], .inl created, .inl rfl, ?_⟩
    rw [updateMidiAttr, nInitSeq_initialised initialised]
    simp only [bind, Except.bind, if_neg initialised.goesOn]
    rw [parsed]
    cases released : releaseIpcSeq (some 0) (some block) calls.createSimplePort
        ⟨[some ⟨[], []⟩], arrays⟩ <;>
      simp [load, pCreateSourcePort_failed created, pure, Except.pure, Except.map, enough,
        created, released]
  · refine ⟨calls.createSimplePort, ⟨[calls.createSimplePort], connected⟩,
      if nRc < 0 then some [] else serveClients listenCalls events, .inr List.mem_cons_self, ?_, ?_⟩
    · split
      · exact .inl rfl
      · exact .inr rfl
    · rw [updateMidiAttr, nInitSeq_initialised initialised]
      simp only [bind, Except.bind, if_neg initialised.goesOn]
      rw [parsed]
      by_cases failed : nRc < 0 <;>
      cases serveClients listenCalls events <;>
      cases released : releaseIpcSeq (some 0) (some block) calls.createSimplePort
          ⟨[some ⟨[calls.createSimplePort], connected⟩], arrays⟩ <;>
        simp [load, store, pCreateSourcePort_created created, pure, Except.pure, Except.map,
          enough, created, connects, failed, released]

/-- Behind an initialised sequencer the thread returns through `RELEASE_IPC_SEQ`, which is right
about what there is exactly when the ports are parsed. -/
theorem updateMidiAttr_initialised (initialised : calls.Initialised) :
    ∃ pPorts nMyPortID seq arrays owned served, Owns arrays ∅ owned ∧
      (pPorts = owned ∧ (nMyPortID < 0 ∨ nMyPortID ∈ seq.ports) ↔
        ∃ ports, parseOutcome calls.parse cSndPort = .parsed ports) ∧
      (served = some [] ∨ served = serveClients listenCalls events) ∧
      updateMidiAttr calls listenCalls cSndPort events =
        match served with
        | none => .ok none
        | some descriptors =>
          (releaseIpcSeq (some 0) pPorts nMyPortID ⟨[some seq], arrays⟩).map
            fun resources => some (resources, descriptors) := by
  have unowned : Owns ([] : PortHeap) ∅ none := owns_nil
  obtain ⟨result, parsed, leaves⟩ := nParsePorts_parses calls.parse cSndPort unowned
  generalize parseOutcome calls.parse cSndPort = outcome at leaves ⊢
  cases leaves with
  | uncopied owns =>
    exact ⟨_, 0, ⟨[], []⟩, _, _, some [], owns, by simp, .inl rfl,
      updateMidiAttr_unparsed initialised parsed⟩
  | ungranted owns nothing =>
    exact ⟨_, 0, ⟨[], []⟩, _, _, some [], owns, by simp, .inl rfl,
      updateMidiAttr_unparsed initialised parsed⟩
  | unparsed owns released =>
    exact ⟨_, 0, ⟨[], []⟩, _, _, some [], owns, by simp, .inl rfl,
      updateMidiAttr_unparsed initialised parsed⟩
  | parsed owns filled loaded =>
    obtain ⟨nMyPortID, seq, served, created, serves, runs⟩ :=
      @updateMidiAttr_parsed _ listenCalls _ events initialised _ _ _ filled loaded parsed
    exact ⟨_, nMyPortID, seq, _, _, served, owns, by simpa using created, serves, runs⟩

/-- Everything the thread has acquired is released once when it returns, and nothing else is used or
released; no port is deleted that was never created. -/
def ReturnsEverything (run : Except Fault (Option (SeqResources × List (Entry Nat)))) : Prop :=
  ∃ resources descriptors, run = .ok (some (resources, descriptors)) ∧
    (∀ handle, ¬ Live resources.handles handle) ∧ (∀ array, ¬ Live resources.arrays array) ∧
    ∀ entry ∈ descriptors, entry.closes = 1

/-- What the command thread releases: for every string, every pattern of failures and every course
of its loop, when it returns, each descriptor it has had has been closed once; and once the loop is
over, it returns and has released everything once, and deleted no port that was never created,
exactly when the ports were parsed, or the sequencer was not even initialised. -/
theorem command_thread_releases (calls : SetupCalls) (listenCalls : ListenCalls)
    (cSndPort : List UInt8) (events : List CommandEvent) :
    (∀ resources descriptors,
      updateMidiAttr calls listenCalls cSndPort events = .ok (some (resources, descriptors)) →
        ∀ entry ∈ descriptors, entry.closes = 1) ∧
    ((serveClients listenCalls events).isSome →
      (ReturnsEverything (updateMidiAttr calls listenCalls cSndPort events) ↔
        (calls.Initialised → ∃ ports, parseOutcome calls.parse cSndPort = .parsed ports))) := by
  by_cases initialised : calls.Initialised
  · obtain ⟨pPorts, nMyPortID, seq, arrays, owned, served, owns, right, serves, runs⟩ :=
      @updateMidiAttr_initialised calls listenCalls cSndPort events initialised
    have closed : ∀ descriptors, served = some descriptors → ∀ entry ∈ descriptors,
      entry.closes = 1 := by
      rintro descriptors rfl
      cases serves with
      | inl nothing => simp [Option.some.inj nothing]
      | inr finished => exact serveClients_closed finished.symm
    -- The clean-up is the exit block of a thread with these fields.
    let tSeqInfo : SeqForThread := ⟨some 0, pPorts, 0, 0, nMyPortID⟩
    have releases := @exitBlock_releases_iff tSeqInfo seq arrays owned rfl owns
    rw [← releaseIpcSeq_eq, right] at releases
    rw [runs]
    generalize releaseIpcSeq _ _ _ _ = released at releases
    refine ⟨fun resources descriptors returned => ?_, fun finished => ?_⟩
    · cases served with
      | none => cases returned
      | some had =>
        cases released with
        | error fault => cases returned
        | ok left =>
          obtain ⟨rfl, rfl⟩ := Prod.mk.inj (Option.some.inj (Except.ok.inj returned))
          exact closed had rfl
    · obtain ⟨had, rfl⟩ : ∃ had, served = some had := by
        cases serves with
        | inl nothing => exact ⟨[], nothing⟩
        | inr same => exact Option.isSome_iff_exists.mp (same ▸ finished)
      simp only [initialised, true_implies, ← releases]
      constructor
      · rintro ⟨resources, descriptors, returned, noHandle, noArray, -⟩
        cases released with
        | error fault => cases returned
        | ok left =>
          obtain ⟨rfl, rfl⟩ := Prod.mk.inj (Option.some.inj (Except.ok.inj returned))
          exact ⟨left, rfl, noHandle, noArray⟩
      · rintro ⟨left, rfl, noHandle, noArray⟩
        exact ⟨left, had, rfl, noHandle, noArray, closed had rfl⟩
  · obtain ⟨handles, returns, dead⟩ :=
      @updateMidiAttr_uninitialised calls listenCalls cSndPort events initialised
    rw [returns]
    refine ⟨?_, fun _ => ?_⟩
    · intro resources descriptors returned entry member
      obtain ⟨rfl, rfl⟩ := Prod.mk.inj (Option.some.inj (Except.ok.inj returned))
      exact absurd member List.not_mem_nil
    · simp only [initialised, false_implies, iff_true]
      exact ⟨_, _, rfl, dead, empty_dead, by simp⟩

/-- A client comes, its bytes are executed, and `SIGINT` arrives while they are: everything is
released, as the port is parsed. -/
theorem command_thread_releases_canceled :
    let calls : SetupCalls :=
      ⟨true, true, 128, ⟨true, fun _ => true, fun _ _ => some ⟨20, 0⟩⟩, 0, fun _ => true⟩
    let listenCalls : ListenCalls := ⟨1, true, true, true, true⟩
    let events : List CommandEvent :=
      [.select (some {1}), .scan, .scan, .accept (.connection 2), .accept .wouldBlock, .scan,
        .check, .select (some {2}), .scan, .scan, .scan, .recv (.data [0]), .signal, .execute,
        .recv .wouldBlock, .scan, .check, .cleanUp, .cleanUp, .cleanUp, .cleanUp]
    ReturnsEverything (updateMidiAttr calls listenCalls (ascii "synth") events) := by
  intro calls listenCalls events
  have finished : (serveClients listenCalls events).isSome := by decide
  have parsed : ∃ ports, parseOutcome calls.parse (ascii "synth") = .parsed ports :=
    ⟨[⟨20, 0⟩], by decide⟩
  exact ((command_thread_releases calls listenCalls (ascii "synth") events).2 finished).mpr
    fun _ => parsed

end MidiDaemon
