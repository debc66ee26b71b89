import MidiDaemon.CommandLifecycle
import MidiDaemon.CommandLine
import MidiDaemon.ForeignDescriptors
import MidiDaemon.ReaderSessions

/-!
# `main` from its start to its end

`main` opens a sequencer, reads its options, connects a port and plays on it, opens its socket, and
accepts clients until `__io_canceled` is set. On most ways out it frees its ports, deletes its port
and closes its sequencer, in `erroExitHandler` or behind its loop; after `-h`, `-V`, `-l` or an
unknown option, and when the serial thread is not created, it ends the process as it is.

Threads that were handed the wrong socket close what is not theirs, but nothing that was open in
front of the loop: what was open stays so, and the listening socket is closed by `main` alone. What
`main` has acquired it releases once, and nothing else, exactly when no `-p` lost an array or was
refused an address and the last of them is parsed to ports that it can use (`main_releases`). It
plays exactly when all goes well up to there (`main_plays`).
-/

namespace MidiDaemon

open Heap Machine SndSeqEvent

/-- What the calls of `main` return. -/
structure ProcessCalls where
  /-- The attributes are set and the command thread is created. -/
  commandThread : Bool
  /-- The calls of `nInitSeq`, `pCreateSourcePort` and `nConnectPorts`. -/
  setup : SetupCalls
  /-- The calls of `nParsePorts`, for the option at each place. -/
  parse : Nat → ParseCalls
  /-- The serial thread is created. -/
  uartThread : Bool
  /-- `socket`. -/
  socket : Int
  /-- `bind` succeeds. -/
  bind : Bool

/-- How the process ends, with the ports it was connected to and the records it has output, if it
has played. -/
inductive MainEnd where
  /-- Nothing is released. -/
  | left (played : Option (List SndSeqAddr × List SndSeqEvent))
  /-- What there still is after a clean-up, and the descriptors that are open. -/
  | cleaned (played : Option (List SndSeqAddr × List SndSeqEvent)) (resources : SeqResources)
    (openFds : Finset Int)

/-- What the process has played. -/
def MainEnd.played : MainEnd → Option (List SndSeqAddr × List SndSeqEvent)
  | .left played => played
  | .cleaned played _ _ => played

/-- The socket and the accept loop: the descriptors that are open when the loop, and `close` behind
it, are over. -/
def acceptClients (calls : ProcessCalls) (nSporeSocket : Int) (openFds : Finset Int)
    (events : List BtEvent) : Option (Finset Int) :=
  if calls.socket < 0 then some openFds
  else
    let nServerSocket := calls.socket
    let opened := insert nServerSocket openFds
    if !calls.bind then some (opened.erase nServerSocket)
    else
      (run BtServer.step (BtServer.start nSporeSocket opened) events).bind fun server =>
        -- The loop ends when it is canceled, or a thread is not created; both close the socket.
        if server.main = .exited then some (server.openFds.erase nServerSocket) else none

/-- `erroExitHandler` with all it releases, and the same behind the loop. -/
def cleanUp (played : Option (List SndSeqAddr × List SndSeqEvent)) (pSeq pPorts : Option Nat)
    (nMyPortID : Int) (resources : SeqResources) (openFds : Finset Int) :
    Except Fault (Option MainEnd) :=
  (releaseIpcSeq pSeq pPorts nMyPortID resources).map fun resources =>
    some (.cleaned played resources openFds)

/-- `main` from the check of its ports on. -/
def serve (calls : ProcessCalls) (pSeq : Option Nat) (state : MainVariables) (handles : SeqHandles)
    (nSporeSocket : Int) (openFds : Finset Int) (events : List BtEvent) :
    Except Fault (Option MainEnd) :=
  -- `nMyPortID` has not been set to a port.
  if state.nPortCount < 1 then cleanUp none pSeq state.pPorts 0 ⟨handles, state.arrays⟩ openFds
  else do
    let (nMyPortID, handles) ← pCreateSourcePort calls.setup pSeq handles
    if nMyPortID < 0 then
      cleanUp none pSeq state.pPorts nMyPortID ⟨handles, state.arrays⟩ openFds
    else
      let (nRc, connected) ←
        nConnectPorts calls.setup.connectTo state.nPortCount state.pPorts state.arrays
      let seq ← load handles pSeq
      let handles ← store handles pSeq { seq with connections := seq.connections ++ connected }
      if nRc < 0 then
        cleanUp none pSeq state.pPorts nMyPortID ⟨handles, state.arrays⟩ openFds
      else
        let played := some (seq.connections ++ connected, nPlayReadyMidi nMyPortID)
        if !calls.uartThread then return some (.left played)
        else
          match acceptClients calls nSporeSocket openFds events with
          | none => return none
          | some openFds =>
            cleanUp played pSeq state.pPorts nMyPortID ⟨handles, state.arrays⟩ openFds

/-- `main`: how the process ends; nothing as long as it has not. The variables `nPortCount` and
`nSporeSocket` hold anything before they are set. -/
def mainProcess (calls : ProcessCalls) (nPortCount : Int) (argv : List (List UInt8))
    (nSporeSocket : Int) (openFds : Finset Int) (events : List BtEvent) :
    Except Fault (Option MainEnd) :=
  if !calls.commandThread then .ok (some (.cleaned none ⟨[], []⟩ openFds))
  else do
    let (nClientID, pSeq, handles) ← nInitSeq calls.setup none []
    if nClientID < 0 ∨ pSeq = none then
      let handles ← free handles pSeq
      return some (.cleaned none ⟨handles, []⟩ openFds)
    else
      let read ← optionLoop (mainVariables nPortCount []) (mainOptions calls.parse argv)
      match read with
      | none => return some (.left none)
      | some state =>
        if state.nDoList then return some (.left none)
        else serve calls pSeq state handles nSporeSocket openFds events

/-! ## Descriptors -/

variable {calls : ProcessCalls} {nPortCount nSporeSocket : Int} {argv : List (List UInt8)}
  {openFds : Finset Int} {events : List BtEvent}
  {greeting played : Option (List SndSeqAddr × List SndSeqEvent)}

/-- `main` alone closes its listening socket, and what was open in front of the loop stays so. -/
theorem acceptClients_spares (unopened : calls.socket ∉ openFds) {fds : Finset Int}
    (closed : acceptClients calls nSporeSocket openFds events = some fds) :
    calls.socket ∉ fds ∧ ∀ number ∈ openFds, 0 ≤ number → number ∈ fds := by
  have apart : ∀ number ∈ openFds, number ≠ calls.socket := fun number member same =>
    unopened (same ▸ member)
  unfold acceptClients at closed
  split_ifs at closed with failed unbound
  · obtain rfl := Option.some.inj closed
    exact ⟨unopened, fun number member _ => member⟩
  · obtain rfl := Option.some.inj closed
    refine ⟨Finset.notMem_erase _ _, fun number member _ => ?_⟩
    exact Finset.mem_erase.mpr ⟨apart number member, Finset.mem_insert_of_mem member⟩
  · obtain ⟨server, reached, ended⟩ := Option.bind_eq_some_iff.mp closed
    simp only [Option.ite_none_right_eq_some, Option.some.injEq] at ended
    obtain ⟨-, rfl⟩ := ended
    refine ⟨Finset.notMem_erase _ _, fun number member nonneg => ?_⟩
    exact Finset.mem_erase.mpr ⟨apart number member,
      BtServer.run_spares reached (Finset.mem_insert_of_mem member) nonneg⟩

/-- Throughout the loop the socket is open, and what was open in front of it. -/
theorem loop_spares (listening : 0 ≤ calls.socket) :
    EachState BtServer.step
      (fun server => calls.socket ∈ server.openFds ∧
        ∀ number ∈ openFds, 0 ≤ number → number ∈ server.openFds)
      (BtServer.start nSporeSocket (insert calls.socket openFds)) events := by
  refine eachState_iff.mpr fun front _ server _ reached => ?_
  refine ⟨BtServer.run_spares reached (Finset.mem_insert_self _ _) listening, ?_⟩
  intro number member nonneg
  exact BtServer.run_spares reached (Finset.mem_insert_of_mem member) nonneg

/-- A clean-up leaves the descriptors as they are. -/
theorem cleanUp_fds {pSeq pPorts : Option Nat} {nMyPortID : Int} {before resources : SeqResources}
    {fds : Finset Int}
    (ended : cleanUp greeting pSeq pPorts nMyPortID before openFds =
      .ok (some (.cleaned played resources fds))) :
    fds = openFds := by
  rw [cleanUp] at ended
  cases released : releaseIpcSeq pSeq pPorts nMyPortID before with
  | error fault =>
    rw [released] at ended
    cases ended
  | ok left =>
    rw [released] at ended
    obtain ⟨-, -, rfl⟩ := MainEnd.cleaned.inj (Option.some.inj (Except.ok.inj ended))
    rfl

/-- A process that is cleaned up at its end has the descriptors of its start, or those behind the
loop. -/
theorem serve_fds {pSeq : Option Nat} {state : MainVariables} {handles : SeqHandles}
    {resources : SeqResources} {fds : Finset Int}
    (ended : serve calls pSeq state handles nSporeSocket openFds events =
      .ok (some (.cleaned played resources fds))) :
    fds = openFds ∨ acceptClients calls nSporeSocket openFds events = some fds := by
  unfold serve at ended
  split at ended
  · exact .inl (cleanUp_fds ended)
  · obtain ⟨⟨nMyPortID, created⟩, -, ended⟩ := bind_ok ended
    dsimp only at ended
    split at ended
    · exact .inl (cleanUp_fds ended)
    · obtain ⟨⟨nRc, connected⟩, -, ended⟩ := bind_ok ended
      obtain ⟨seq, -, ended⟩ := bind_ok ended
      obtain ⟨handles, -, ended⟩ := bind_ok ended
      split_ifs at ended with failed unready
      · exact .inl (cleanUp_fds ended)
      · cases ended
      · split at ended
        · cases ended
        · rename_i finished
          rw [finished, cleanUp_fds ended]
          exact .inr rfl

/-- The whole process has them as well. -/
theorem mainProcess_fds {resources : SeqResources} {fds : Finset Int}
    (ended : mainProcess calls nPortCount argv nSporeSocket openFds events =
      .ok (some (.cleaned played resources fds))) :
    fds = openFds ∨ acceptClients calls nSporeSocket openFds events = some fds := by
  unfold mainProcess at ended
  split at ended
  · obtain ⟨-, -, rfl⟩ := MainEnd.cleaned.inj (Option.some.inj (Except.ok.inj ended))
    exact .inl rfl
  · obtain ⟨⟨nClientID, pSeq, handles⟩, -, ended⟩ := bind_ok ended
    dsimp only at ended
    split at ended
    · obtain ⟨closed, -, ended⟩ := bind_ok ended
      obtain ⟨-, -, rfl⟩ := MainEnd.cleaned.inj (Option.some.inj (Except.ok.inj ended))
      exact .inl rfl
    · obtain ⟨read, -, ended⟩ := bind_ok ended
      cases read with
      | none => cases ended
      | some state =>
        dsimp only at ended
        split at ended
        · cases ended
        · exact serve_fds ended

/-! ## Arrays alone -/

/-- The calls that come behind the options, as far as the array goes. -/
def ProcessCalls.mainCalls (calls : ProcessCalls) : MainCalls where
  createSourcePort := calls.setup.createSimplePort
  connectTo := calls.setup.connectTo
  uartThread := calls.uartThread
  listening := 0 ≤ calls.socket && calls.bind
  clientThreads := true

/-- `pCreateSourcePort` returns what `snd_seq_create_simple_port` does. -/
theorem pCreateSourcePort_number {setup : SetupCalls} {pSeq : Option Nat}
    {before after : SeqHandles} {nMyPortID : Int}
    (port : pCreateSourcePort setup pSeq before = .ok (nMyPortID, after)) :
    nMyPortID = setup.createSimplePort := by
  obtain ⟨seq, -, port⟩ := bind_ok port
  split at port
  · obtain ⟨rfl, -⟩ := Prod.mk.inj (Except.ok.inj port)
    rfl
  · obtain ⟨stored, -, port⟩ := bind_ok port
    obtain ⟨rfl, -⟩ := Prod.mk.inj (Except.ok.inj port)
    rfl

/-- A clean-up frees the array. -/
theorem cleanUp_arrays {pSeq pPorts : Option Nat} {nMyPortID : Int}
    {before resources : SeqResources} {fds : Finset Int}
    (ended : cleanUp greeting pSeq pPorts nMyPortID before openFds =
      .ok (some (.cleaned played resources fds))) :
    erroExitHandler pPorts before.arrays = .ok resources.arrays := by
  rw [cleanUp] at ended
  cases released : releaseIpcSeq pSeq pPorts nMyPortID before with
  | error fault =>
    rw [released] at ended
    cases ended
  | ok left =>
    rw [released] at ended
    obtain ⟨-, rfl, -⟩ := MainEnd.cleaned.inj (Option.some.inj (Except.ok.inj ended))
    obtain ⟨arrays, freed, released⟩ := bind_ok released
    obtain ⟨handles, -, released⟩ := bind_ok released
    obtain ⟨closed, -, released⟩ := bind_ok released
    obtain rfl := Except.ok.inj released
    exact freed

/-- The process treats its array as `finish` does, which knows of nothing else. -/
theorem serve_finish {pSeq : Option Nat} {state : MainVariables} {handles : SeqHandles}
    {resources : SeqResources} {fds : Finset Int} (going : state.nDoList = false)
    (ended : serve calls pSeq state handles nSporeSocket openFds events =
      .ok (some (.cleaned played resources fds))) :
    finish calls.mainCalls state = .ok resources.arrays := by
  have unlisted : ¬ state.nDoList = true := by simp [going]
  rw [finish, if_neg unlisted]
  unfold serve at ended
  split at ended
  next few => rw [if_pos few, cleanUp_arrays ended]
  next enough =>
    obtain ⟨⟨nMyPortID, created⟩, port, ended⟩ := bind_ok ended
    obtain rfl : nMyPortID = calls.mainCalls.createSourcePort := pCreateSourcePort_number port
    dsimp only at ended
    rw [if_neg enough]
    split at ended
    next failed => rw [if_pos failed, cleanUp_arrays ended]
    next created =>
      rw [if_neg created]
      obtain ⟨⟨nRc, connected⟩, connects, ended⟩ := bind_ok ended
      obtain ⟨seq, -, ended⟩ := bind_ok ended
      obtain ⟨handles, -, ended⟩ := bind_ok ended
      have same :
          nConnectPorts calls.mainCalls.connectTo state.nPortCount state.pPorts state.arrays =
            .ok (nRc, connected) := connects
      rw [same]
      dsimp only at ended ⊢
      split at ended
      next failed => rw [if_pos failed, cleanUp_arrays ended]
      next connected =>
        rw [if_neg connected]
        split at ended
        next => cases ended
        next created =>
          have ready : ¬ calls.mainCalls.uartThread = false := by
            simpa [ProcessCalls.mainCalls] using created
          rw [if_neg ready]
          split at ended
          next => cases ended
          next =>
            have freed : free state.arrays state.pPorts = .ok resources.arrays :=
              cleanUp_arrays ended
            simp only [erroExitHandler, freed, ite_self]

/-! ## Arrays that are lost -/

/-- With or without an array at the beginning, no option loses it or is refused an address. -/
def Lossless (held : Bool) : List MainOption → Prop
  | [] => True
  | .port optarg calls :: rest =>
    match parseOutcome calls optarg with
    | .uncopied => Lossless held rest
    | .ungranted nEntry => nEntry = 0 ∧ held = false ∧ Lossless false rest
    | .unparsed _ => False
    | .parsed _ => Lossless true rest
  | .help :: _ | .listVersion :: _ | .list :: _ | .other :: _ => False

/-- Options that lose nothing are accepted. -/
theorem Lossless.accepted {held : Bool} {options : List MainOption}
    (lossless : Lossless held options) : ∀ option ∈ options, Accepted option := by
  induction options generalizing held with
  | nil => exact fun option member => absurd member List.not_mem_nil
  | cons option rest ih =>
    cases option with
    | help | listVersion | list | other => exact lossless.elim
    | port optarg calls =>
      rw [Lossless] at lossless
      have first : ¬ Refused calls optarg := by
        rintro ⟨nEntry, refused⟩
        rw [refused] at lossless
        exact lossless
      refine List.forall_mem_cons.mpr ⟨first, ?_⟩
      split at lossless
      · exact ih lossless
      · exact ih lossless.2.2
      · exact lossless.elim
      · exact ih lossless

variable {state after : MainVariables} {frame : Set Nat}

/-- A `-p` leaves what `nParsePorts` makes of its argument, and the frame as it is. -/
theorem port_leaves {optarg : List UInt8} {parse : ParseCalls}
    (owns : Owns state.arrays frame state.pPorts)
    (stepped : optionStep state (.port optarg parse) = .ok (some after)) :
    Parses frame state.pPorts (parseOutcome parse optarg)
      (after.nPortCount, after.pPorts, after.arrays) := by
  obtain ⟨-, -, parsed⟩ := optionStep_port_inv stepped
  obtain ⟨result, same, leaves⟩ := nParsePorts_parses parse (copyPort state.cSndPort optarg) owns
  rw [parsed] at same
  obtain rfl := Except.ok.inj same
  rwa [parseOutcome_copyPort] at leaves

/-- What options leave in the heap, when none is refused an address: the array of the pointer, and
those there were before, and others exactly when they were lost. -/
theorem optionLoop_frame {options : List MainOption} (owns : Owns state.arrays frame state.pPorts)
    (accepted : ∀ option ∈ options, Accepted option)
    (read : optionLoop state options = .ok (some after)) :
    ∃ wider, Owns after.arrays wider after.pPorts ∧ frame ⊆ wider ∧
      (wider = frame ↔ Lossless state.pPorts.isSome options) := by
  induction options generalizing state frame with
  | nil =>
    obtain rfl := Option.some.inj (Except.ok.inj read)
    exact ⟨frame, owns, subset_rfl, by simp [Lossless]⟩
  | cons option rest ih =>
    obtain ⟨next, stepped, later⟩ := optionLoop_cons read
    obtain ⟨first, others⟩ := List.forall_mem_cons.mp accepted
    cases option with
    | help | listVersion | list | other => exact first.elim
    | port optarg parse =>
      have leaves := port_leaves owns stepped
      rw [Lossless]
      have unrefused : ∀ nEntry, parseOutcome parse optarg ≠ .unparsed nEntry :=
        fun nEntry refused => first ⟨nEntry, refused⟩
      generalize parseOutcome parse optarg = outcome at leaves unrefused ⊢
      obtain ⟨nPortCount, nDoList, pPorts, cSndPort, arrays⟩ := next
      cases leaves with
      | uncopied kept =>
        obtain ⟨wider, owned, within, same⟩ := ih kept others later
        exact ⟨wider, owned, within, same⟩
      | @ungranted nEntry _ lost kept nothing =>
        cases lost with
        | none =>
          obtain ⟨wider, owned, within, same⟩ := ih kept others later
          obtain ⟨first, null⟩ := nothing.mp rfl
          exact ⟨wider, owned, within, by simp [same, first, null]⟩
        | some block =>
          obtain ⟨wider, owned, within, -⟩ := ih kept.forget others later
          refine ⟨wider, owned, (Set.subset_insert block frame).trans within, ?_⟩
          have gained : wider ≠ frame := fun same =>
            kept.apart block rfl (same ▸ within (Set.mem_insert block frame))
          simp only [gained, false_iff]
          rintro ⟨first, null, -⟩
          have unset : state.pPorts = none := by simpa using null
          cases nothing.mpr ⟨first, unset⟩
      | unparsed => exact absurd rfl (unrefused _)
      | parsed kept =>
        obtain ⟨wider, owned, within, same⟩ := ih kept others later
        exact ⟨wider, owned, within, same⟩

/-! ## The clean-up -/

/-- What `main` has acquired is released once when it ends, and nothing else is used or released. -/
def ReleasesAll (process : Except Fault (Option MainEnd)) : Prop :=
  ∃ played resources fds, process = .ok (some (.cleaned played resources fds)) ∧
    (∀ handle, ¬ Live resources.handles handle) ∧ ∀ array, ¬ Live resources.arrays array

/-- A clean-up that is right about what there is releases everything but the frame. -/
theorem cleanUp_releases {arrays : PortHeap} {pPorts : Option Nat} {seq : SndSeq} {nMyPortID : Int}
    (owns : Owns arrays frame pPorts) (created : nMyPortID < 0 ∨ nMyPortID ∈ seq.ports) :
    ReleasesAll (cleanUp greeting (some 0) pPorts nMyPortID ⟨[some seq], arrays⟩ openFds) ↔
      frame = ∅ := by
  obtain ⟨left, freed, framed⟩ := owns.freed
  obtain ⟨other, deleted⟩ := deletePort_created created
  have closed : free [some other] (some 0) = .ok [none] := rfl
  have cleaned : cleanUp greeting (some 0) pPorts nMyPortID ⟨[some seq], arrays⟩ openFds =
      .ok (some (.cleaned greeting ⟨[none], left⟩ openFds)) := by
    simp only [cleanUp, releaseIpcSeq, freed, bind, Except.bind, deleted, closed, pure, Except.pure,
      Except.map]
  rw [cleaned]
  constructor
  · rintro ⟨played, resources, fds, same, -, unleaked⟩
    obtain ⟨-, rfl, -⟩ := MainEnd.cleaned.inj (Option.some.inj (Except.ok.inj same))
    exact Set.eq_empty_iff_forall_notMem.mpr fun block member =>
      unleaked block ((framed.live block).mpr (.inl member))
  · rintro rfl
    exact ⟨_, _, _, rfl, closed_dead, fun array => framed.dead (by simp) (by simp)⟩

/-- A port that was not created cannot be deleted. -/
theorem cleanUp_absent {arrays : PortHeap} {pPorts : Option Nat} {seq : SndSeq} {nMyPortID : Int}
    (absent : ¬ (nMyPortID < 0 ∨ nMyPortID ∈ seq.ports)) :
    ¬ ReleasesAll (cleanUp greeting (some 0) pPorts nMyPortID ⟨[some seq], arrays⟩ openFds) := by
  rintro ⟨played, resources, fds, cleaned, -⟩
  rw [cleanUp, releaseIpcSeq, deletePort_absent absent] at cleaned
  cases freed : free arrays pPorts <;>
    simp [freed, bind, Except.bind, Except.map] at cleaned

/-- Without a port `main` deletes one that it has not created. -/
theorem serve_few (few : state.nPortCount < 1) :
    ¬ ReleasesAll (serve calls (some 0) state [some ⟨[], []⟩] nSporeSocket openFds events) := by
  rw [serve, if_pos few]
  exact cleanUp_absent (by simp)

/-- A count that was not set makes `main` read through a null pointer, unless there is no port to
connect from. -/
theorem serve_unread (held : 1 ≤ nPortCount) :
    serve calls (some 0) (mainVariables nPortCount []) [some ⟨[], []⟩] nSporeSocket openFds events =
      if calls.setup.createSimplePort < 0 then
        cleanUp none (some 0) none calls.setup.createSimplePort ⟨[some ⟨[], []⟩], []⟩ openFds
      else .error .null := by
  have enough : ¬ (mainVariables nPortCount []).nPortCount < 1 := show ¬ nPortCount < 1 by omega
  rw [serve, if_neg enough]
  by_cases uncreated : calls.setup.createSimplePort < 0
  · simp only [pCreateSourcePort_failed uncreated, bind, Except.bind, if_pos uncreated]
    rfl
  · obtain ⟨left, some_port⟩ : ∃ left, nPortCount.toNat = left + 1 :=
      ⟨nPortCount.toNat - 1, by omega⟩
    have unread : nConnectPorts calls.setup.connectTo (mainVariables nPortCount []).nPortCount
        (mainVariables nPortCount []).pPorts (mainVariables nPortCount []).arrays =
          .error .null := by
      rw [nConnectPorts, show (mainVariables nPortCount []).nPortCount.toNat = left + 1
        from some_port]
      rfl
    simp only [pCreateSourcePort_created uncreated, bind, Except.bind, if_neg uncreated, unread]

/-- Everything is then released when there is no port. -/
theorem serve_unset (held : 1 ≤ nPortCount) :
    ReleasesAll (serve calls (some 0) (mainVariables nPortCount []) [some ⟨[], []⟩] nSporeSocket
      openFds events) ↔ calls.setup.createSimplePort < 0 := by
  have unowned : Owns ([] : PortHeap) ∅ none := owns_nil
  rw [serve_unread held]
  by_cases uncreated : calls.setup.createSimplePort < 0
  · simp only [uncreated, if_true, iff_true]
    exact (cleanUp_releases unowned (.inl uncreated)).mpr rfl
  · simp only [uncreated, if_false, iff_false]
    rintro ⟨played, resources, fds, ended, -⟩
    cases ended

/-- Behind parsed ports `main` does not leave without a clean-up, or does not come so far. -/
def Cleans (calls : ProcessCalls) (ports : List SndSeqAddr) : Prop :=
  calls.setup.createSimplePort < 0 ∨ (∃ i < ports.length, calls.setup.connectTo i = false) ∨
    calls.uartThread = true

/-- Behind parsed ports `main` cleans up without having played, unless its port is created and every
port connected; then it plays, and goes on. -/
theorem serve_cases {ports : List SndSeqAddr} (filled : ports ≠ [])
    (loaded : load state.arrays state.pPorts = .ok (ports.map some))
    (count : state.nPortCount = ports.length) :
    ((calls.setup.createSimplePort < 0 ∨ ∃ i < ports.length, calls.setup.connectTo i = false) ∧
      ∃ seq : SndSeq,
        (calls.setup.createSimplePort < 0 ∨ calls.setup.createSimplePort ∈ seq.ports) ∧
        serve calls (some 0) state [some ⟨[], []⟩] nSporeSocket openFds events =
          cleanUp none (some 0) state.pPorts calls.setup.createSimplePort
            ⟨[some seq], state.arrays⟩ openFds) ∨
    (¬ calls.setup.createSimplePort < 0 ∧ (∀ i < ports.length, calls.setup.connectTo i = true) ∧
      serve calls (some 0) state [some ⟨[], []⟩] nSporeSocket openFds events =
        let played := some (ports, nPlayReadyMidi calls.setup.createSimplePort)
        if !calls.uartThread then .ok (some (.left played))
        else
          match acceptClients calls nSporeSocket openFds events with
          | none => .ok none
          | some openFds =>
            cleanUp played (some 0) state.pPorts calls.setup.createSimplePort
              ⟨[some ⟨[calls.setup.createSimplePort], ports⟩], state.arrays⟩ openFds) := by
  have some_port := List.length_pos_of_ne_nil filled
  have enough : ¬ state.nPortCount < 1 := by omega
  rw [serve, if_neg enough]
  by_cases uncreated : calls.setup.createSimplePort < 0
  · refine .inl ⟨.inl uncreated, ⟨[], []⟩, .inl uncreated, ?_⟩
    simp only [pCreateSourcePort_failed uncreated, bind, Except.bind, if_pos uncreated]
  · obtain ⟨nRc, connected, connects, -, complete⟩ :=
      nConnectPorts_full calls.setup.connectTo loaded
    have result := connectFrom_result connects
    rw [← count] at connects
    have stored : store [some ⟨[calls.setup.createSimplePort], []⟩] (some 0)
        (⟨[calls.setup.createSimplePort], connected⟩ : SndSeq) =
          .ok [some ⟨[calls.setup.createSimplePort], connected⟩] := rfl
    have opened : load [some (⟨[calls.setup.createSimplePort], []⟩ : SndSeq)] (some 0) =
        .ok ⟨[calls.setup.createSimplePort], []⟩ := rfl
    simp only [pCreateSourcePort_created uncreated, bind, Except.bind, connects, opened,
      List.nil_append, stored, if_neg uncreated]
    by_cases failed : nRc < 0
    · have breaks : ∃ i < ports.length, calls.setup.connectTo i = false := by
        by_contra every
        have success : 0 ≤ nRc := result.mpr fun entry _ before => by
          by_contra unconnected
          exact every ⟨entry, by omega, by simpa using unconnected⟩
        omega
      exact .inl ⟨.inr breaks, ⟨[calls.setup.createSimplePort], connected⟩,
        .inr List.mem_cons_self, if_pos failed⟩
    · obtain rfl := complete (by omega)
      refine .inr ⟨uncreated, fun i before => result.mp (by omega) i (Nat.zero_le _) (by omega), ?_⟩
      rw [if_neg failed]
      rfl

/-- Behind parsed ports everything is released when nothing was lost, and `main` cleans up. -/
theorem serve_parsed (owns : Owns state.arrays frame state.pPorts) {ports : List SndSeqAddr}
    (filled : ports ≠ []) (loaded : load state.arrays state.pPorts = .ok (ports.map some))
    (count : state.nPortCount = ports.length)
    (finished : (acceptClients calls nSporeSocket openFds events).isSome) :
    ReleasesAll (serve calls (some 0) state [some ⟨[], []⟩] nSporeSocket openFds events) ↔
      frame = ∅ ∧ Cleans calls ports := by
  rw [Cleans]
  rcases serve_cases filled loaded count with
    ⟨silent, seq, created, served⟩ | ⟨created, every, served⟩
  · rw [served, cleanUp_releases owns created]
    exact (and_iff_left (silent.elim .inl fun breaks => .inr (.inl breaks))).symm
  · have connects : ¬ ∃ i < ports.length, calls.setup.connectTo i = false := by
      rintro ⟨i, before, unconnected⟩
      rw [every i before] at unconnected
      cases unconnected
    simp only [served, created, connects, false_or]
    cases ready : calls.uartThread with
    | false =>
      simp only [Bool.not_false, if_true, reduceCtorEq, and_false, iff_false]
      rintro ⟨played, resources, fds, ended, -⟩
      cases ended
    | true =>
      obtain ⟨fds, closed⟩ := Option.isSome_iff_exists.mp finished
      simp only [Bool.not_true, Bool.false_eq_true, if_false, closed, and_true]
      exact cleanUp_releases owns (.inr List.mem_cons_self)

/-- A process that is past its set-up releases everything exactly when it goes on behind its
options, and does so then. -/
theorem mainProcess_read (created : calls.commandThread = true)
    (initialised : calls.setup.Initialised) :
    ReleasesAll (mainProcess calls nPortCount argv nSporeSocket openFds events) ↔
      ∃ state, optionLoop (mainVariables nPortCount []) (mainOptions calls.parse argv) =
          .ok (some state) ∧ PassesCheck state ∧
        ReleasesAll (serve calls (some 0) state [some ⟨[], []⟩] nSporeSocket openFds events) := by
  have unreleased : ¬ ReleasesAll (.ok (some (.left none))) := by
    rintro ⟨played, resources, fds, ended, -⟩
    cases ended
  rw [mainProcess, nInitSeq_initialised initialised]
  simp only [created, Bool.not_true, Bool.false_eq_true, if_false, bind, Except.bind,
    if_neg initialised.goesOn]
  cases read : optionLoop (mainVariables nPortCount []) (mainOptions calls.parse argv) with
  | error fault =>
    constructor
    · rintro ⟨played, resources, fds, ended, -⟩
      cases ended
    · rintro ⟨state, other, -⟩
      cases other
  | ok result =>
    cases result with
    | none =>
      refine ⟨fun released => absurd released unreleased, ?_⟩
      rintro ⟨state, other, -⟩
      cases other
    | some state =>
      constructor
      · intro released
        dsimp only at released
        cases listing : state.nDoList with
        | true =>
          rw [listing] at released
          exact absurd released unreleased
        | false =>
          rw [listing] at released
          exact ⟨state, rfl, ⟨listing, fun few => serve_few few released⟩, released⟩
      · rintro ⟨other, same, passes, released⟩
        obtain rfl := Option.some.inj (Except.ok.inj same)
        dsimp only
        rw [passes.1]
        exact released

/-- The last of options that are all accepted leaves its own outcome, and what was lost before. -/
theorem optionLoop_outcome {front : List MainOption} {option : MainOption}
    (accepted : ∀ each ∈ front ++ [option], Accepted each)
    (read : optionLoop (mainVariables nPortCount []) (front ++ [option]) = .ok (some state)) :
    ∃ last parse frame wider, option = .port last parse ∧
      (∃ pPorts, Parses frame pPorts (parseOutcome parse last)
        (state.nPortCount, state.pPorts, state.arrays)) ∧
      state.nDoList = false ∧ Owns state.arrays wider state.pPorts ∧
      (wider = ∅ ↔ Lossless false (front ++ [option])) := by
  have keeps := mainVariables_keeps nPortCount []
  have unowned : Owns (mainVariables nPortCount []).arrays ∅ (mainVariables nPortCount []).pPorts :=
    owns_nil
  obtain ⟨wider, owns, -, lossless⟩ := optionLoop_frame unowned accepted read
  obtain ⟨middle, last, parse, kept, same, stepped⟩ := optionLoop_last keeps accepted read
  obtain ⟨frame, leaves⟩ := port_parses kept stepped
  obtain ⟨after, again, listing, -⟩ := optionLoop_accepted keeps accepted
  obtain rfl := Option.some.inj (Except.ok.inj (read.symm.trans again))
  exact ⟨last, parse, frame, wider, same, ⟨_, leaves⟩, listing, owns, lossless⟩

/-- No option loses an array or is refused an address, and the last is parsed to ports behind which
`main` cleans up; or there is none, and the port is not created for a count that was not set. -/
def CleanRun (calls : ProcessCalls) (nPortCount : Int) (options : List MainOption) : Prop :=
  options = [] ∧ 1 ≤ nPortCount ∧ calls.setup.createSimplePort < 0 ∨
    Lossless false options ∧ ∃ front last parse ports, options = front ++ [.port last parse] ∧
      parseOutcome parse last = .parsed ports ∧ Cleans calls ports

/-- A process that is past its set-up releases everything in a clean run. -/
theorem mainProcess_releases (created : calls.commandThread = true)
    (initialised : calls.setup.Initialised)
    (finished : (acceptClients calls nSporeSocket openFds events).isSome) :
    ReleasesAll (mainProcess calls nPortCount argv nSporeSocket openFds events) ↔
      CleanRun calls nPortCount (mainOptions calls.parse argv) := by
  rw [mainProcess_read created initialised]
  generalize mainOptions calls.parse argv = options
  constructor
  · rintro ⟨state, read, passes, released⟩
    have accepted := starts_accepted ⟨state, read, passes⟩
    cases options using List.reverseRecOn with
    | nil =>
      obtain rfl := Option.some.inj (Except.ok.inj read)
      have held : 1 ≤ nPortCount := by
        have enough : ¬ nPortCount < 1 := passes.2
        omega
      exact .inl ⟨rfl, held, (serve_unset held).mp released⟩
    | append_singleton front option =>
      obtain ⟨last, parse, frame, wider, rfl, ⟨pPorts, leaves⟩, -, owns, lossless⟩ :=
        optionLoop_outcome accepted read
      have enough := passes.2
      obtain ⟨ports, outcome⟩ := leaves.counted (by omega)
      rw [outcome] at leaves
      obtain ⟨filled, loaded, count⟩ := leaves.filled
      obtain ⟨unlost, cleans⟩ := (serve_parsed owns filled loaded count finished).mp released
      exact .inr ⟨lossless.mp unlost, front, last, parse, ports, rfl, outcome, cleans⟩
  · rintro (⟨rfl, held, uncreated⟩ | ⟨lossless, front, last, parse, ports, rfl, outcome, cleans⟩)
    · have enough : ¬ nPortCount < 1 := by omega
      exact ⟨_, rfl, ⟨rfl, enough⟩, (serve_unset held).mpr uncreated⟩
    · have accepted := lossless.accepted
      obtain ⟨state, read, -, -⟩ := optionLoop_accepted (mainVariables_keeps nPortCount []) accepted
      obtain ⟨_, _, frame, wider, same, ⟨pPorts, leaves⟩, listing, owns, unlost⟩ :=
        optionLoop_outcome accepted read
      obtain ⟨rfl, rfl⟩ := MainOption.port.inj same
      rw [outcome] at leaves
      obtain ⟨filled, loaded, count⟩ := leaves.filled
      have some_port := List.length_pos_of_ne_nil filled
      have enough : ¬ state.nPortCount < 1 := by omega
      exact ⟨state, read, ⟨listing, enough⟩,
        (serve_parsed owns filled loaded count finished).mpr ⟨unlost.mpr lossless, cleans⟩⟩

/-- Without a sequencer there is nothing to release, and one that is not initialised is closed. -/
theorem mainProcess_unready (failed : ¬ (calls.commandThread = true ∧ calls.setup.Initialised)) :
    ∃ resources, mainProcess calls nPortCount argv nSporeSocket openFds events =
        .ok (some (.cleaned none resources openFds)) ∧
      (∀ handle, ¬ Live resources.handles handle) ∧ ∀ array, ¬ Live resources.arrays array := by
  rw [mainProcess]
  cases created : calls.commandThread with
  | false => exact ⟨⟨[], []⟩, rfl, empty_dead, empty_dead⟩
  | true =>
    have uninitialised : ¬ calls.setup.Initialised := fun initialised =>
      failed ⟨created, initialised⟩
    cases opened : calls.setup.seqOpen with
    | false =>
      rw [nInitSeq_unopened opened]
      exact ⟨⟨[], []⟩, rfl, empty_dead, empty_dead⟩
    | true =>
      rw [nInitSeq_failed opened uninitialised]
      exact ⟨⟨[none], []⟩, rfl, closed_dead, empty_dead⟩

/-- What `main` releases: for every command line, every pattern of failures, whatever its variables
held and every run of its loop and the client threads, throughout the loop the listening socket is
open, and everything that was open at its start; when `main` has cleaned up, all this is still open
but the listening socket, which is not; and once the loop is over it has released everything once,
and nothing else, exactly when the run was clean, or it did not come as far as a sequencer. -/
theorem main_releases (calls : ProcessCalls) (nPortCount nSporeSocket : Int)
    (argv : List (List UInt8)) (openFds : Finset Int) (events : List BtEvent)
    (unopened : calls.socket ∉ openFds) :
    (0 ≤ calls.socket → EachState BtServer.step
      (fun server => calls.socket ∈ server.openFds ∧
        ∀ number ∈ openFds, 0 ≤ number → number ∈ server.openFds)
      (BtServer.start nSporeSocket (insert calls.socket openFds)) events) ∧
    (∀ played resources fds, mainProcess calls nPortCount argv nSporeSocket openFds events =
        .ok (some (.cleaned played resources fds)) →
      calls.socket ∉ fds ∧ ∀ number ∈ openFds, 0 ≤ number → number ∈ fds) ∧
    ((acceptClients calls nSporeSocket openFds events).isSome →
      (ReleasesAll (mainProcess calls nPortCount argv nSporeSocket openFds events) ↔
        (calls.commandThread = true → calls.setup.Initialised →
          CleanRun calls nPortCount (mainOptions calls.parse argv)))) := by
  refine ⟨loop_spares, ?_, ?_⟩
  · intro played resources fds ended
    rcases mainProcess_fds ended with rfl | closed
    · exact ⟨unopened, fun number member _ => member⟩
    · exact acceptClients_spares unopened closed
  · intro finished
    by_cases ready : calls.commandThread = true ∧ calls.setup.Initialised
    · rw [mainProcess_releases ready.1 ready.2 finished]
      exact ⟨fun clean _ _ => clean, fun clean => clean ready.1 ready.2⟩
    · obtain ⟨resources, ended, released⟩ :=
        @mainProcess_unready calls nPortCount nSporeSocket argv openFds events ready
      exact ⟨fun _ created initialised => absurd ⟨created, initialised⟩ ready,
        fun _ => ⟨none, resources, openFds, ended, released⟩⟩

/-- A client comes and `SIGINT` arrives while its thread receives: everything is released, as the
second string of ports is parsed into the array of the first. -/
theorem main_releases_canceled :
    let found : ParseCalls := ⟨true, fun _ => true, fun _ _ => some ⟨20, 0⟩⟩
    let setup : SetupCalls := ⟨true, true, 128, found, 0, fun _ => true⟩
    let calls : ProcessCalls := ⟨true, setup, fun _ => found, true, 5, true⟩
    let events : List BtEvent := BtServer.registering 7 ++
      [.client 0 .readSocket, .client 0 (.prepare true), .client 0 .check, .signal, .main .sleep,
        .main .check]
    ReleasesAll
      (mainProcess calls 0 [ascii "-p20:0,20:1", ascii "-p", ascii "20:0"] 0 {0, 1, 2} events) := by
  intro found setup calls events
  have unopened : calls.socket ∉ ({0, 1, 2} : Finset Int) := by decide
  have finished : (acceptClients calls 0 {0, 1, 2} events).isSome := by decide
  apply ((main_releases calls 0 0 _ _ events unopened).2.2 finished).mpr
  intro _ _
  have strings : mainSpec.getopt [ascii "-p20:0,20:1", ascii "-p", ascii "20:0"] =
      [ascii "20:0,20:1", ascii "20:0"].map portOption := by decide
  have first : parseOutcome found (ascii "20:0,20:1") = .parsed [⟨20, 0⟩, ⟨20, 0⟩] := by decide
  have second : parseOutcome found (ascii "20:0") = .parsed [⟨20, 0⟩] := by decide
  rw [mainOptions_ports strings]
  refine .inr ⟨?_, [.port (ascii "20:0,20:1") found], ascii "20:0", found, [⟨20, 0⟩], rfl, second,
    .inr (.inr rfl)⟩
  simp only [calls, List.mapIdx_cons, List.mapIdx_nil, Lossless, first, second]

/-! ## What `main` plays -/

/-- The set-up succeeds, no option is refused, the last is parsed to these ports, and a port is
created and connected to each of them. -/
structure Greets (calls : ProcessCalls) (options : List MainOption) (ports : List SndSeqAddr) :
    Prop where
  /-- The command thread is created. -/
  commandThread : calls.commandThread = true
  /-- The sequencer is initialised. -/
  initialised : calls.setup.Initialised
  /-- Every option is a `-p` that is not refused an address. -/
  accepted : ∀ option ∈ options, Accepted option
  /-- The last one is parsed to these ports. -/
  parsed : ∃ front last parse, options = front ++ [.port last parse] ∧
    parseOutcome parse last = .parsed ports
  /-- The port is created. -/
  created : ¬ calls.setup.createSimplePort < 0
  /-- It is connected to each. -/
  connected : ∀ i < ports.length, calls.setup.connectTo i = true

variable {options : List MainOption} {ports others : List SndSeqAddr} {finish : MainEnd}

/-- There is one list of ports at most. -/
theorem Greets.unique (greets : Greets calls options ports) (other : Greets calls options others) :
    ports = others := by
  obtain ⟨front, last, parse, split, outcome⟩ := greets.parsed
  obtain ⟨before, string, again, equal, result⟩ := other.parsed
  have same := (List.append_inj' (split.symm.trans equal) rfl).2
  obtain ⟨rfl, rfl⟩ := MainOption.port.inj (List.singleton_inj.mp same)
  exact ParseOutcome.parsed.inj (outcome.symm.trans result)

/-- The options lead past the check of the ports, with these. -/
theorem Greets.read (greets : Greets calls options ports) (nPortCount : Int) :
    ∃ state, optionLoop (mainVariables nPortCount []) options = .ok (some state) ∧
      state.nDoList = false ∧ ports ≠ [] ∧
      load state.arrays state.pPorts = .ok (ports.map some) ∧ state.nPortCount = ports.length := by
  obtain ⟨front, last, parse, rfl, outcome⟩ := greets.parsed
  obtain ⟨state, read, -, -⟩ :=
    optionLoop_accepted (mainVariables_keeps nPortCount []) greets.accepted
  obtain ⟨string, again, frame, wider, same, ⟨pPorts, leaves⟩, listing, -, -⟩ :=
    optionLoop_outcome greets.accepted read
  obtain ⟨rfl, rfl⟩ := MainOption.port.inj same
  rw [outcome] at leaves
  exact ⟨state, read, listing, leaves.filled⟩

/-- A clean-up plays nothing more. -/
theorem cleanUp_played {pSeq pPorts : Option Nat} {nMyPortID : Int} {before : SeqResources}
    (ended : cleanUp greeting pSeq pPorts nMyPortID before openFds = .ok (some finish)) :
    finish.played = greeting := by
  rw [cleanUp] at ended
  cases released : releaseIpcSeq pSeq pPorts nMyPortID before with
  | error fault =>
    rw [released] at ended
    cases ended
  | ok left =>
    rw [released] at ended
    obtain rfl := Option.some.inj (Except.ok.inj ended)
    rfl

/-- Behind parsed ports `main` plays when its port is created and every one of them connected. -/
theorem serve_plays (filled : ports ≠ [])
    (loaded : load state.arrays state.pPorts = .ok (ports.map some))
    (count : state.nPortCount = ports.length)
    (ended : serve calls (some 0) state [some ⟨[], []⟩] nSporeSocket openFds events =
      .ok (some finish)) :
    (finish.played = none ∧
      (calls.setup.createSimplePort < 0 ∨ ∃ i < ports.length, calls.setup.connectTo i = false)) ∨
    (finish.played = some (ports, nPlayReadyMidi calls.setup.createSimplePort) ∧
      ¬ calls.setup.createSimplePort < 0 ∧ ∀ i < ports.length, calls.setup.connectTo i = true) := by
  rcases serve_cases filled loaded count with ⟨silent, seq, -, served⟩ | ⟨created, every, served⟩
  · exact .inl ⟨cleanUp_played (served.symm.trans ended), silent⟩
  · refine .inr ⟨?_, created, every⟩
    rw [served] at ended
    dsimp only at ended
    split at ended
    · obtain rfl := Option.some.inj (Except.ok.inj ended)
      rfl
    · split at ended
      · cases ended
      · exact cleanUp_played ended

/-- A process that has not come past the check of its ports has not played. -/
theorem stopped_silent (stopped : ¬ PassesCheck state)
    (ended : (if state.nDoList then .ok (some (.left none))
      else serve calls (some 0) state [some ⟨[], []⟩] nSporeSocket openFds events) =
      .ok (some finish)) : finish.played = none := by
  split at ended
  · obtain rfl := Option.some.inj (Except.ok.inj ended)
    rfl
  · rename_i going
    have few : state.nPortCount < 1 := by
      by_contra enough
      exact stopped ⟨by simpa using going, enough⟩
    rw [serve, if_pos few] at ended
    exact cleanUp_played ended

/-- One that has come past it plays when the ports are those of a last `-p`, and all connected. -/
theorem passing_plays
    (read : optionLoop (mainVariables nPortCount []) options = .ok (some state))
    (passes : PassesCheck state)
    (ended : serve calls (some 0) state [some ⟨[], []⟩] nSporeSocket openFds events =
      .ok (some finish)) (thread : calls.commandThread = true)
    (initialised : calls.setup.Initialised) :
    (finish.played = none ∧ ∀ ports, ¬ Greets calls options ports) ∨
    ∃ ports, Greets calls options ports ∧
      finish.played = some (ports, nPlayReadyMidi calls.setup.createSimplePort) := by
  have accepted := starts_accepted ⟨state, read, passes⟩
  cases options using List.reverseRecOn with
  | nil =>
    obtain rfl := Option.some.inj (Except.ok.inj read)
    have held : 1 ≤ nPortCount := by
      have enough : ¬ nPortCount < 1 := passes.2
      omega
    rw [serve_unread held] at ended
    split at ended
    · refine .inl ⟨cleanUp_played ended, fun ports greets => ?_⟩
      obtain ⟨front, last, parse, split, -⟩ := greets.parsed
      simp at split
    · cases ended
  | append_singleton front option =>
    obtain ⟨last, parse, frame, wider, rfl, ⟨pPorts, leaves⟩, -, -, -⟩ :=
      optionLoop_outcome accepted read
    have enough := passes.2
    obtain ⟨ports, outcome⟩ := leaves.counted (by omega)
    rw [outcome] at leaves
    obtain ⟨filled, loaded, count⟩ := leaves.filled
    rcases serve_plays filled loaded count ended with ⟨silent, breaks⟩ | ⟨played, created, every⟩
    · refine .inl ⟨silent, fun others greets => ?_⟩
      obtain ⟨before, string, again, split, result⟩ := greets.parsed
      obtain ⟨rfl, rfl⟩ := MainOption.port.inj
        (List.singleton_inj.mp (List.append_inj' split rfl).2)
      obtain rfl := ParseOutcome.parsed.inj (outcome.symm.trans result)
      rcases breaks with uncreated | ⟨i, within, unconnected⟩
      · exact greets.created uncreated
      · rw [greets.connected i within] at unconnected
        cases unconnected
    · exact .inr ⟨ports, ⟨thread, initialised, accepted, ⟨front, last, parse, rfl, outcome⟩,
        created, every⟩, played⟩

/-- When `main` plays: its options lead to ports, and these are connected. -/
theorem mainProcess_plays
    (ended : mainProcess calls nPortCount argv nSporeSocket openFds events = .ok (some finish)) :
    (finish.played = none ∧ ∀ ports, ¬ Greets calls (mainOptions calls.parse argv) ports) ∨
    ∃ ports, Greets calls (mainOptions calls.parse argv) ports ∧
      finish.played = some (ports, nPlayReadyMidi calls.setup.createSimplePort) := by
  by_cases ready : calls.commandThread = true ∧ calls.setup.Initialised
  · obtain ⟨thread, initialised⟩ := ready
    rw [mainProcess, nInitSeq_initialised initialised] at ended
    simp only [thread, Bool.not_true, Bool.false_eq_true, if_false, bind, Except.bind,
      if_neg initialised.goesOn] at ended
    generalize mainOptions calls.parse argv = options at ended ⊢
    cases read : optionLoop (mainVariables nPortCount []) options with
    | error fault =>
      rw [read] at ended
      cases ended
    | ok result =>
      rw [read] at ended
      cases result with
      | none =>
        obtain rfl := Option.some.inj (Except.ok.inj ended)
        refine .inl ⟨rfl, fun ports greets => ?_⟩
        obtain ⟨state, other, -⟩ := greets.read nPortCount
        cases read.symm.trans other
      | some state =>
        by_cases passes : PassesCheck state
        · have going : ¬ state.nDoList = true := by simp [passes.1]
          exact passing_plays read passes ((if_neg going).symm.trans ended) thread initialised
        · refine .inl ⟨stopped_silent passes ended, fun ports greets => ?_⟩
          obtain ⟨other, same, listing, filled, -, count⟩ := greets.read nPortCount
          obtain rfl := Option.some.inj (Except.ok.inj (read.symm.trans same))
          have some_port := List.length_pos_of_ne_nil filled
          exact passes ⟨listing, by omega⟩
  · refine .inl ⟨?_, fun ports greets => ready ⟨greets.commandThread, greets.initialised⟩⟩
    obtain ⟨resources, stopped, -⟩ :=
      @mainProcess_unready calls nPortCount nSporeSocket argv openFds events ready
    obtain rfl := Option.some.inj (Except.ok.inj (ended.symm.trans stopped))
    rfl

/-- What `main` has played when it has ended: the records of `nPlayReadyMidi`, from its own port to
those of its last `-p`, exactly when the set-up succeeds up to there, and nothing otherwise. -/
theorem main_plays
    (ended : mainProcess calls nPortCount argv nSporeSocket openFds events = .ok (some finish))
    (ports : List SndSeqAddr) (records : List SndSeqEvent) :
    finish.played = some (ports, records) ↔ Greets calls (mainOptions calls.parse argv) ports ∧
      records = nPlayReadyMidi calls.setup.createSimplePort := by
  rcases mainProcess_plays ended with ⟨nothing, silent⟩ | ⟨heard, greets, played⟩
  · simp only [nothing, silent ports, false_and, reduceCtorEq]
  · rw [played, Option.some.injEq, Prod.mk.injEq]
    constructor
    · rintro ⟨rfl, rfl⟩
      exact ⟨greets, rfl⟩
    · rintro ⟨others, rfl⟩
      exact ⟨greets.unique others, rfl⟩

end MidiDaemon
