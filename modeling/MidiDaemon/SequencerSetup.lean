import MidiDaemon.PortParsing

/-!
# Sequencer set-up in the reader threads

`UART_clientService` and `BT_clientService` open a sequencer, parse the configured ports, create a
source port and connect it, all in `prepareSeqInforForThread`, and leave through the same exit block
whether that succeeded or not. The exit block goes by the fields of a `SeqForThread_t`. These are
zero in the serial thread and not set at all in a Bluetooth thread, and a function that fails leaves
behind a pointer it has released, or none to an array that is still there.

A handle or an array that is used without being live is a fault, so a run without a fault releases
nothing twice, and a run after which nothing is live has released all it acquired.
-/

namespace MidiDaemon

open Heap

/-- An open sequencer handle. -/
structure SndSeq where
  /-- The source ports created on it, which are closed with it. -/
  ports : List Int
  /-- The ports it is connected to. -/
  connections : List SndSeqAddr
deriving DecidableEq, Repr

/-- The sequencer handles that were opened. -/
abbrev SeqHandles : Type := List (Option SndSeq)

/-- What a thread has acquired. -/
structure SeqResources where
  /-- Sequencer handles. -/
  handles : SeqHandles
  /-- Port arrays. -/
  arrays : PortHeap
deriving DecidableEq

/-- `SeqForThread_t`. -/
structure SeqForThread where
  /-- `pSeq`. -/
  pSeq : Option Nat
  /-- `pPorts`. -/
  pPorts : Option Nat
  /-- `nClientID`. -/
  nClientID : Int
  /-- `nPortCount`. -/
  nPortCount : Int
  /-- `nMyPortID`. -/
  nMyPortID : Int
deriving DecidableEq, Repr

/-- What the calls return that one set-up makes. -/
structure SetupCalls where
  /-- `snd_seq_open` succeeds; when it fails, it leaves the pointer to the handle as it was. -/
  seqOpen : Bool
  /-- `snd_seq_set_client_name` succeeds. -/
  setClientName : Bool
  /-- `snd_seq_client_id`. -/
  clientId : Int
  /-- The calls of `nParsePorts`. -/
  parse : ParseCalls
  /-- `snd_seq_create_simple_port`. -/
  createSimplePort : Int
  /-- `snd_seq_connect_to` succeeds for this entry. -/
  connectTo : Nat → Bool

/-- `nInitSeq`: its result, the pointer to the handle, and the handles. -/
def nInitSeq (calls : SetupCalls) (pSeq : Option Nat) (handles : SeqHandles) :
    Except Fault (Int × Option Nat × SeqHandles) := do
  if !calls.seqOpen then
    return (-1, pSeq, handles)
  let pSeq := some handles.length
  let handles := alloc handles ⟨[], []⟩
  let _ ← load handles pSeq
  if !calls.setClientName then
    return (-1, pSeq, handles)
  let _ ← load handles pSeq
  if calls.clientId < 0 then
    return (-1, pSeq, handles)
  return (calls.clientId, pSeq, handles)

/-- `pCreateSourcePort`: its result, and the handles. -/
def pCreateSourcePort (calls : SetupCalls) (pSeq : Option Nat) (handles : SeqHandles) :
    Except Fault (Int × SeqHandles) := do
  let seq ← load handles pSeq
  if calls.createSimplePort < 0 then
    return (calls.createSimplePort, handles)
  return (calls.createSimplePort,
    ← store handles pSeq { seq with ports := calls.createSimplePort :: seq.ports })

/-- `snd_seq_delete_port` for a port number that is not negative; a port that was not created is not
there to be deleted. -/
def deletePort (pSeq : Option Nat) (nMyPortID : Int) (handles : SeqHandles) :
    Except Fault SeqHandles :=
  if nMyPortID < 0 then .ok handles
  else
    match load handles pSeq with
    | .ok seq =>
      if nMyPortID ∈ seq.ports then
        store handles pSeq { seq with ports := seq.ports.erase nMyPortID }
      else .error .dead
    | .error fault => .error fault

/-- `prepareSeqInforForThread`: its result, the fields of the thread, and what it has acquired. -/
def prepareSeqInforForThread (calls : SetupCalls) (cSndPort : List UInt8) (pSeqInfor : SeqForThread)
    (resources : SeqResources) : Except Fault (Int × SeqForThread × SeqResources) := do
  let (nClientID, pSeq, handles) ← nInitSeq calls pSeqInfor.pSeq resources.handles
  let pSeqInfor := { pSeqInfor with nClientID := nClientID, pSeq := pSeq }
  if nClientID < 0 ∨ pSeq = none then
    return (-1, pSeqInfor, { resources with handles := ← free handles pSeq })
  -- Names are looked up through the handle.
  let _ ← load handles pSeq
  let (nPortCount, pPorts, arrays) ←
    nParsePorts calls.parse cSndPort pSeqInfor.pPorts resources.arrays
  let pSeqInfor := { pSeqInfor with nPortCount := nPortCount, pPorts := pPorts }
  if nPortCount < 1 then
    return (-1, pSeqInfor, ⟨handles, arrays⟩)
  let (nMyPortID, handles) ← pCreateSourcePort calls pSeq handles
  let pSeqInfor := { pSeqInfor with nMyPortID := nMyPortID }
  if nMyPortID < 0 then
    return (-1, pSeqInfor, ⟨handles, arrays⟩)
  let (nRc, connected) ← nConnectPorts calls.connectTo nPortCount pPorts arrays
  let seq ← load handles pSeq
  let handles ← store handles pSeq { seq with connections := seq.connections ++ connected }
  if nRc < 0 then
    return (-1, pSeqInfor, ⟨handles, arrays⟩)
  return (0, pSeqInfor, ⟨handles, arrays⟩)

/-- The exit block of both threads: `UART_HANDLER_EXIT`, and `BT_HANDLER_EXIT` behind the socket. -/
def exitBlock (tSeqInfo : SeqForThread) (resources : SeqResources) : Except Fault SeqResources := do
  let arrays ← free resources.arrays tSeqInfo.pPorts
  let handles ← deletePort tSeqInfo.pSeq tSeqInfo.nMyPortID resources.handles
  let handles ← free handles tSeqInfo.pSeq
  return ⟨handles, arrays⟩

/-- A reader thread. -/
inductive ReaderThread where
  /-- `UART_clientService`. -/
  | uart
  /-- `BT_clientService`, with what its `tSeqInfo` holds before anything is assigned to it. -/
  | bluetooth (tSeqInfo : SeqForThread)

/-- The fields of the thread before its set-up. -/
def ReaderThread.tSeqInfo : ReaderThread → SeqForThread
  | .uart => ⟨none, none, 0, 0, 0⟩
  | .bluetooth tSeqInfo => tSeqInfo

/-- A thread from its set-up to its end, and what it still has then. In between it plays through
its handle, if the set-up succeeded. -/
def ReaderThread.run (thread : ReaderThread) (calls : SetupCalls) (cSndPort : List UInt8) :
    Except Fault SeqResources := do
  let (nRc, tSeqInfo, resources) ←
    prepareSeqInforForThread calls cSndPort thread.tSeqInfo ⟨[], []⟩
  if 0 ≤ nRc then
    let _ ← load resources.handles tSeqInfo.pSeq
  exitBlock tSeqInfo resources

/-- Everything acquired is released once, and nothing else is used or released. -/
def ReleasesOnce (run : Except Fault SeqResources) : Prop :=
  ∃ resources, run = .ok resources ∧ (∀ handle, ¬ Live resources.handles handle) ∧
    ∀ array, ¬ Live resources.arrays array

/-! ## The exit block -/

variable {tSeqInfo : SeqForThread} {seq : SndSeq} {arrays : PortHeap}

/-- A port that was created is deleted, and a negative number passed over. -/
theorem deletePort_created {nMyPortID : Int} (created : nMyPortID < 0 ∨ nMyPortID ∈ seq.ports) :
    ∃ after, deletePort (some 0) nMyPortID [some seq] = .ok [some after] := by
  rw [deletePort]
  by_cases negative : nMyPortID < 0
  · exact ⟨seq, if_pos negative⟩
  · have member := created.resolve_left negative
    rw [if_neg negative]
    exact ⟨{ seq with ports := seq.ports.erase nMyPortID }, if_pos member⟩

/-- Any other port is not there to be deleted. -/
theorem deletePort_absent {nMyPortID : Int} (absent : ¬ (nMyPortID < 0 ∨ nMyPortID ∈ seq.ports)) :
    deletePort (some 0) nMyPortID [some seq] = .error .dead := by
  obtain ⟨negative, apart⟩ := not_or.mp absent
  rw [deletePort, if_neg negative]
  exact if_neg apart

/-- In one closed handle nothing is live. -/
theorem closed_dead (handle : Nat) : ¬ Live ([none] : SeqHandles) handle := by
  rintro ⟨content, found⟩
  have member := List.mem_of_getElem? found
  simp at member

/-- What the exit block releases: with its handle open, it releases everything exactly when the
pointer of the thread is that of the array it owns, and its port number is negative or that of a
port it has created. -/
theorem exitBlock_releases_iff {owned : Option Nat} (opened : tSeqInfo.pSeq = some 0)
    (owns : Owns arrays ∅ owned) :
    ReleasesOnce (exitBlock tSeqInfo ⟨[some seq], arrays⟩) ↔ tSeqInfo.pPorts = owned ∧
      (tSeqInfo.nMyPortID < 0 ∨ tSeqInfo.nMyPortID ∈ seq.ports) := by
  have closed : ∀ other : SndSeq, free [some other] (some 0) = .ok [none] := fun _ => rfl
  rw [exitBlock, opened]
  by_cases same : tSeqInfo.pPorts = owned
  · obtain ⟨after, freed, left⟩ := owns.freed
    have nothing : ∀ array, ¬ Live after array := fun array => left.dead (by simp) (by simp)
    rw [same, freed]
    by_cases created : tSeqInfo.nMyPortID < 0 ∨ tSeqInfo.nMyPortID ∈ seq.ports
    · obtain ⟨other, deleted⟩ := deletePort_created created
      simp only [bind, Except.bind, pure, Except.pure, deleted, closed, true_and, created, iff_true]
      exact ⟨_, rfl, closed_dead, nothing⟩
    · simp only [bind, Except.bind, deletePort_absent created, created, and_false, iff_false]
      rintro ⟨_, same, -⟩
      cases same
  · simp only [same, false_and, iff_false]
    rintro ⟨resources, released, -, unleaked⟩
    cases pointer : tSeqInfo.pPorts with
    | some block =>
      -- The pointer is not that of an array.
      have dead : ¬ Live arrays block := owns.dead (by simp) fun other =>
        same (pointer.trans other.symm)
      rw [pointer, free_dead dead] at released
      cases released
    | none =>
      -- The array is not freed.
      obtain ⟨block, rfl⟩ := Option.ne_none_iff_exists'.mp fun other =>
        same (pointer.trans other.symm)
      rw [pointer] at released
      have live := owns.owned
      by_cases created : tSeqInfo.nMyPortID < 0 ∨ tSeqInfo.nMyPortID ∈ seq.ports
      · obtain ⟨other, deleted⟩ := deletePort_created created
        simp only [free, bind, Except.bind, pure, Except.pure, deleted] at released
        obtain rfl := Except.ok.inj released
        exact unleaked block live
      · simp only [free, bind, Except.bind, deletePort_absent created] at released
        cases released

/-! ## The set-up -/

/-- The sequencer was opened and told its name. -/
def SetupCalls.Initialised (calls : SetupCalls) : Prop :=
  calls.seqOpen = true ∧ calls.setClientName = true ∧ 0 ≤ calls.clientId

instance (calls : SetupCalls) : Decidable calls.Initialised :=
  inferInstanceAs (Decidable (_ ∧ _ ∧ _))

variable {calls : SetupCalls} {cSndPort : List UInt8}

/-- A sequencer that does not open leaves the pointer as it was. -/
theorem nInitSeq_unopened (unopened : calls.seqOpen = false) (pSeq : Option Nat)
    (handles : SeqHandles) : nInitSeq calls pSeq handles = .ok (-1, pSeq, handles) := by
  rw [nInitSeq, unopened]
  rfl

/-- A sequencer that opens and fails afterwards stays open. -/
theorem nInitSeq_failed (opened : calls.seqOpen = true) (failed : ¬ calls.Initialised)
    (pSeq : Option Nat) : nInitSeq calls pSeq [] = .ok (-1, some 0, [some ⟨[], []⟩]) := by
  rw [nInitSeq, opened]
  cases named : calls.setClientName with
  | false => rfl
  | true =>
    have negative : calls.clientId < 0 := by
      by_contra positive
      exact failed ⟨opened, named, by omega⟩
    simp [alloc, load, bind, Except.bind, pure, Except.pure, negative]

/-- A sequencer that is initialised is open. -/
theorem nInitSeq_initialised (initialised : calls.Initialised) (pSeq : Option Nat) :
    nInitSeq calls pSeq [] = .ok (calls.clientId, some 0, [some ⟨[], []⟩]) := by
  obtain ⟨opened, named, positive⟩ := initialised
  have negative : ¬ calls.clientId < 0 := by omega
  rw [nInitSeq, opened, named]
  simp [alloc, load, bind, Except.bind, pure, Except.pure, negative]

/-- A port that is not created leaves the handle as it was. -/
theorem pCreateSourcePort_failed (failed : calls.createSimplePort < 0) (seq : SndSeq) :
    pCreateSourcePort calls (some 0) [some seq] = .ok (calls.createSimplePort, [some seq]) := by
  simp [pCreateSourcePort, load, bind, Except.bind, pure, Except.pure, failed]

/-- A port that is created belongs to the handle. -/
theorem pCreateSourcePort_created (created : ¬ calls.createSimplePort < 0) (seq : SndSeq) :
    pCreateSourcePort calls (some 0) [some seq] =
      .ok (calls.createSimplePort,
        [some { seq with ports := calls.createSimplePort :: seq.ports }]) := by
  simp [pCreateSourcePort, load, store, bind, Except.bind, pure, Except.pure, Except.map, created]

/-- The client number and the pointer it leaves let the set-up go on. -/
theorem SetupCalls.Initialised.goesOn (initialised : calls.Initialised) :
    ¬ (calls.clientId < 0 ∨ (some 0 : Option Nat) = none) := by
  obtain ⟨-, -, positive⟩ := initialised
  simp only [reduceCtorEq, or_false]
  omega

/-- A set-up that does not open a sequencer closes what the pointer held before. -/
theorem prepare_unopened (unopened : calls.seqOpen = false) (resources : SeqResources) :
    prepareSeqInforForThread calls cSndPort tSeqInfo resources =
      (free resources.handles tSeqInfo.pSeq).map fun handles =>
        (-1, { tSeqInfo with nClientID := -1 }, { resources with handles := handles }) := by
  rw [prepareSeqInforForThread, nInitSeq_unopened unopened]
  simp only [bind, Except.bind, Int.reduceNeg, Int.reduceLT, true_or, if_true]
  cases free resources.handles tSeqInfo.pSeq <;> rfl

/-- A set-up that fails behind the opening closes the handle and keeps the pointer. -/
theorem prepare_failed (opened : calls.seqOpen = true) (failed : ¬ calls.Initialised)
    (arrays : PortHeap) :
    prepareSeqInforForThread calls cSndPort tSeqInfo ⟨[], arrays⟩ =
      .ok (-1, { tSeqInfo with nClientID := -1, pSeq := some 0 }, ⟨[none], arrays⟩) := by
  rw [prepareSeqInforForThread, nInitSeq_failed opened failed]
  rfl

/-- An initialised set-up parses the ports with the pointer it found. -/
theorem prepare_fault (initialised : calls.Initialised) {fault : Fault}
    (parsed : nParsePorts calls.parse cSndPort tSeqInfo.pPorts arrays = .error fault) :
    prepareSeqInforForThread calls cSndPort tSeqInfo ⟨[], arrays⟩ = .error fault := by
  rw [prepareSeqInforForThread, nInitSeq_initialised initialised]
  simp only [bind, Except.bind, if_neg initialised.goesOn]
  rw [parsed]
  rfl

/-- When the ports are not parsed, it keeps the pointer it was left with, and its handle open. -/
theorem prepare_unparsed (initialised : calls.Initialised) {pPorts : Option Nat} {after : PortHeap}
    (parsed : nParsePorts calls.parse cSndPort tSeqInfo.pPorts arrays = .ok (-1, pPorts, after)) :
    prepareSeqInforForThread calls cSndPort tSeqInfo ⟨[], arrays⟩ =
      .ok (-1, { tSeqInfo with
          nClientID := calls.clientId, pSeq := some 0, nPortCount := -1, pPorts := pPorts },
        ⟨[some ⟨[], []⟩], after⟩) := by
  rw [prepareSeqInforForThread, nInitSeq_initialised initialised]
  simp only [bind, Except.bind, if_neg initialised.goesOn]
  rw [parsed]
  rfl

/-- When they are parsed, the port number is that of a port it has created, or negative. -/
theorem prepare_parsed (initialised : calls.Initialised) {ports : List SndSeqAddr} {block : Nat}
    {after : PortHeap} (filled : ports ≠ [])
    (loaded : load after (some block) = .ok (ports.map some))
    (parsed : nParsePorts calls.parse cSndPort tSeqInfo.pPorts arrays =
      .ok (ports.length, some block, after)) :
    ∃ nRc info seq, prepareSeqInforForThread calls cSndPort tSeqInfo ⟨[], arrays⟩ =
        .ok (nRc, info, ⟨[some seq], after⟩) ∧
      info.pSeq = some 0 ∧ info.pPorts = some block ∧
      (info.nMyPortID < 0 ∨ info.nMyPortID ∈ seq.ports) := by
  have enough : ¬ ((ports.length : Int) < 1) := by
    have some_port := List.length_pos_of_ne_nil filled
    omega
  rw [prepareSeqInforForThread, nInitSeq_initialised initialised]
  simp only [bind, Except.bind, if_neg initialised.goesOn]
  rw [parsed]
  obtain ⟨nRc, connected, connects, -, -⟩ := nConnectPorts_full calls.connectTo loaded
  let info : SeqForThread :=
    ⟨some 0, some block, calls.clientId, ports.length, calls.createSimplePort⟩
  by_cases created : calls.createSimplePort < 0
  · refine ⟨-1, info, ⟨[], []⟩, ?_, rfl, rfl, .inl created⟩
    simp [info, load, pCreateSourcePort, bind, Except.bind, pure, Except.pure, enough, created]
  · refine ⟨if nRc < 0 then -1 else 0, info, ⟨[calls.createSimplePort], connected⟩, ?_, rfl, rfl,
      .inr List.mem_cons_self⟩
    simp only [load, store, pCreateSourcePort, Except.map, Option.getD_some, List.set_cons_zero,
      List.getElem?_cons_zero, bind, Except.bind, pure, Except.pure, enough, created, if_false,
      connects, List.nil_append, info]
    split <;> rfl

/-- A thread leaves through its exit block. -/
theorem run_exitBlock {thread : ReaderThread} {nRc : Int} {info : SeqForThread}
    {resources : SeqResources}
    (prepared : prepareSeqInforForThread calls cSndPort thread.tSeqInfo ⟨[], []⟩ =
      .ok (nRc, info, resources))
    (playable : 0 ≤ nRc → ∃ seq, load resources.handles info.pSeq = .ok seq) :
    thread.run calls cSndPort = exitBlock info resources := by
  rw [ReaderThread.run, prepared]
  by_cases success : 0 ≤ nRc
  · obtain ⟨seq, loaded⟩ := playable success
    simp only [bind, Except.bind, if_pos success, loaded]
  · simp only [bind, Except.bind, if_neg success]

/-- A fault in the set-up is one of the thread. -/
theorem run_fault {thread : ReaderThread} {fault : Fault}
    (prepared : prepareSeqInforForThread calls cSndPort thread.tSeqInfo ⟨[], []⟩ = .error fault) :
    ¬ ReleasesOnce (thread.run calls cSndPort) := by
  rintro ⟨resources, released, -⟩
  rw [ReaderThread.run, prepared] at released
  cases released

/-! ## Both threads -/

/-- The failures and the contents of `tSeqInfo` that the exit block is right about. A sequencer that
does not open needs fields that name nothing. One that fails later is closed twice. Behind it, an
array that is refused an address is freed twice, and one that is refused room is lost. -/
def ReaderThread.Releasable (thread : ReaderThread) (calls : SetupCalls) (cSndPort : List UInt8) :
    Prop :=
  if calls.seqOpen = false then
    thread.tSeqInfo.pSeq = none ∧ thread.tSeqInfo.pPorts = none ∧ thread.tSeqInfo.nMyPortID < 0
  else
    calls.Initialised ∧ thread.tSeqInfo.pPorts = none ∧
      match parseOutcome calls.parse cSndPort with
      | .uncopied | .ungranted 0 => thread.tSeqInfo.nMyPortID < 0
      | .ungranted (_ + 1) | .unparsed _ => False
      | .parsed _ => True

/-- Nothing is live in an empty heap. -/
theorem empty_dead {α : Type} (block : Nat) : ¬ Live ([] : List (Option α)) block :=
  owns_nil.dead (by simp) (by simp)

/-- When the sequencer does not open, the exit block has nothing to release. -/
theorem releases_unopened {thread : ReaderThread} (unopened : calls.seqOpen = false) :
    ReleasesOnce (thread.run calls cSndPort) ↔ thread.tSeqInfo.pSeq = none ∧
      thread.tSeqInfo.pPorts = none ∧ thread.tSeqInfo.nMyPortID < 0 := by
  have prepared : prepareSeqInforForThread calls cSndPort thread.tSeqInfo ⟨[], []⟩ = _ :=
    prepare_unopened unopened ⟨[], []⟩
  cases pointer : thread.tSeqInfo.pSeq with
  | some handle =>
    rw [pointer, free_dead (empty_dead handle)] at prepared
    simp only [run_fault prepared, reduceCtorEq, false_and]
  | none =>
    rw [pointer] at prepared
    rw [run_exitBlock prepared (fun success => absurd success (by decide)), exitBlock]
    cases array : thread.tSeqInfo.pPorts with
    | some block =>
      rw [free_dead (empty_dead block)]
      simp [ReleasesOnce, bind, Except.bind]
    | none =>
      by_cases negative : thread.tSeqInfo.nMyPortID < 0
      · simp only [deletePort, negative, true_and, iff_true]
        exact ⟨⟨[], []⟩, rfl, empty_dead, empty_dead⟩
      · simp [deletePort, negative, ReleasesOnce, free, load, bind, Except.bind]

/-- When it fails behind the opening, it is closed twice. -/
theorem releases_failed {thread : ReaderThread} (opened : calls.seqOpen = true)
    (failed : ¬ calls.Initialised) : ¬ ReleasesOnce (thread.run calls cSndPort) := by
  have prepared : prepareSeqInforForThread calls cSndPort thread.tSeqInfo ⟨[], []⟩ = _ :=
    prepare_failed opened failed []
  have closed : free ([none] : SeqHandles) (some 0) = .error .dead := free_dead (closed_dead 0)
  rw [run_exitBlock prepared (fun success => absurd success (by decide)), exitBlock]
  rintro ⟨resources, released, -⟩
  cases freed : free ([] : PortHeap) thread.tSeqInfo.pPorts with
  | error fault =>
    rw [freed] at released
    cases released
  | ok after =>
    rw [freed] at released
    by_cases negative : thread.tSeqInfo.nMyPortID < 0
    · simp only [bind, Except.bind, deletePort, if_pos negative, closed] at released
      cases released
    · simp only [bind, Except.bind, deletePort, if_neg negative, load] at released
      cases released

/-- When the ports are not parsed, the exit block has the pointer that `nParsePorts` left. -/
theorem releases_unparsed {thread : ReaderThread} (initialised : calls.Initialised)
    {pPorts owned : Option Nat} {after : PortHeap} (owns : Owns after ∅ owned)
    (parsed : nParsePorts calls.parse cSndPort thread.tSeqInfo.pPorts [] =
      .ok (-1, pPorts, after)) :
    ReleasesOnce (thread.run calls cSndPort) ↔ pPorts = owned ∧ thread.tSeqInfo.nMyPortID < 0 := by
  have prepared := prepare_unparsed initialised parsed
  have open_handle : load ([some ⟨[], []⟩] : SeqHandles) (some 0) = .ok ⟨[], []⟩ := rfl
  rw [run_exitBlock prepared (fun _ => ⟨_, open_handle⟩), exitBlock_releases_iff rfl owns]
  simp

/-- Behind an initialised sequencer, it is the pointer to the array and the port number that
decide. -/
theorem releases_initialised {thread : ReaderThread} (initialised : calls.Initialised) :
    ReleasesOnce (thread.run calls cSndPort) ↔ thread.tSeqInfo.pPorts = none ∧
      match parseOutcome calls.parse cSndPort with
      | .uncopied | .ungranted 0 => thread.tSeqInfo.nMyPortID < 0
      | .ungranted (_ + 1) | .unparsed _ => False
      | .parsed _ => True := by
  cases pointer : thread.tSeqInfo.pPorts with
  | some block =>
    -- The pointer has never been that of an array.
    simp only [reduceCtorEq, false_and, iff_false]
    cases copied : calls.parse.strdup with
    | true =>
      have dead : nParsePorts calls.parse cSndPort (some block) [] = .error .dead :=
        nParsePorts_dead copied cSndPort (empty_dead block)
      rw [← pointer] at dead
      exact run_fault (prepare_fault initialised dead)
    | false =>
      have uncopied : nParsePorts calls.parse cSndPort thread.tSeqInfo.pPorts [] =
          .ok (-1, some block, []) := by
        rw [nParsePorts, copied, pointer]
        rfl
      rw [releases_unparsed initialised owns_nil uncopied]
      simp
  | none =>
    have unowned : Owns ([] : PortHeap) ∅ none := owns_nil
    obtain ⟨result, parsed, leaves⟩ := nParsePorts_parses calls.parse cSndPort unowned
    rw [← pointer] at parsed
    simp only [true_and]
    generalize parseOutcome calls.parse cSndPort = outcome at leaves ⊢
    cases leaves with
    | uncopied owns =>
      rw [releases_unparsed initialised owns parsed]
      simp
    | @ungranted nEntry _ _ owns nothing =>
      rw [releases_unparsed initialised owns parsed]
      cases nEntry with
      | zero =>
        have unallocated := nothing.mpr ⟨rfl, rfl⟩
        simp only [unallocated, true_and]
      | succ nEntry =>
        -- The array of the entries before is lost.
        have lost : none ≠ _ := fun same => Nat.succ_ne_zero nEntry (nothing.mp same.symm).1
        simp only [lost, false_and]
    | unparsed owns released =>
      rw [releases_unparsed initialised owns parsed]
      simp
    | parsed owns filled loaded =>
      obtain ⟨nRc, info, seq, prepared, opened, array, created⟩ :=
        prepare_parsed initialised filled loaded parsed
      have playable : load ([some seq] : SeqHandles) (some 0) = .ok seq := rfl
      rw [run_exitBlock prepared (fun _ => ⟨seq, opened ▸ playable⟩),
        exitBlock_releases_iff opened owns]
      simp only [iff_true]
      exact ⟨array, created⟩

/-- When set-up is released once: for both threads, every content of the fields that a Bluetooth
thread does not set, every string and every pattern of failures, exactly when the fields and the
failure are among those that the exit block is right about. -/
theorem releases_once_iff (thread : ReaderThread) (calls : SetupCalls) (cSndPort : List UInt8) :
    ReleasesOnce (thread.run calls cSndPort) ↔ thread.Releasable calls cSndPort := by
  rw [ReaderThread.Releasable]
  by_cases unopened : calls.seqOpen = false
  · rw [if_pos unopened]
    exact releases_unopened unopened
  · have opened : calls.seqOpen = true := by simpa using unopened
    rw [if_neg unopened]
    by_cases initialised : calls.Initialised
    · rw [and_iff_right initialised]
      exact releases_initialised initialised
    · simp only [initialised, false_and, iff_false]
      exact releases_failed opened initialised

/-- The serial thread begins with port number `0`, so that nothing but a list of ports that was
parsed leaves it with what it may release. -/
theorem uart_releasable_iff (calls : SetupCalls) (cSndPort : List UInt8) :
    ReaderThread.uart.Releasable calls cSndPort ↔
      calls.Initialised ∧ ∃ ports, parseOutcome calls.parse cSndPort = .parsed ports := by
  have zero : ¬ ReaderThread.uart.tSeqInfo.nMyPortID < 0 := by decide
  have null : ReaderThread.uart.tSeqInfo.pPorts = none := rfl
  rw [ReaderThread.Releasable]
  by_cases unopened : calls.seqOpen = false
  · simp [unopened, zero, SetupCalls.Initialised]
  · rw [if_neg unopened, and_iff_right null]
    cases parseOutcome calls.parse cSndPort with
    | uncopied => simp [zero]
    | ungranted nEntry => cases nEntry <;> simp [zero]
    | unparsed nEntry => simp
    | parsed ports => simp

/-- The array for a name that no client has is freed by the parser and by the exit block. -/
theorem unknown_name_freed_twice :
    ¬ ∀ (thread : ReaderThread) (calls : SetupCalls) (cSndPort : List UInt8),
      ReleasesOnce (thread.run calls cSndPort) := by
  intro always
  let cSndPort := ascii "nosuch"
  let unknown : SetupCalls :=
    ⟨true, true, 128, ⟨true, fun _ => true, fun _ _ => none⟩, 0, fun _ => true⟩
  have initialised : unknown.Initialised := by decide
  have outcome : parseOutcome unknown.parse cSndPort = .unparsed 0 := by decide
  have released := (releases_initialised initialised).mp (always .uart unknown cSndPort)
  rw [outcome] at released
  exact released.2

end MidiDaemon
