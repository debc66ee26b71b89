import MidiDaemon.BluetoothDecoding
import MidiDaemon.SequencerSetup
import MidiDaemon.SerialReader

/-!
# What the sequencer gets from a reader thread

Both reader threads fill one `snd_seq_event_t` before their loop and change its type and its note in
each round; a Bluetooth thread plays two notes first. The record is a union: the note stands in the
first bytes of a field in which other events have a parameter and a value.

From the string of ports to the records: a thread plays exactly when its sequencer is initialised,
the ports are parsed, a port is created and every port of the string is connected, and the sequencer
then gets, through these connections, one record for each frame in which nothing of an earlier one
is left (`session_plays`). The parameter and the value of a control change, a program change or a
pitch bend are zero in all of them, whatever the frame says.
-/

namespace MidiDaemon

open Heap Memory

/-! ## Records -/

/-- `snd_seq_event_t`. -/
structure SndSeqEvent where
  /-- `type`. -/
  type : UInt8
  /-- `flags`. -/
  flags : UInt8
  /-- `tag`. -/
  tag : UInt8
  /-- `queue`. -/
  queue : UInt8
  /-- The bytes of `time`. -/
  time : List UInt8
  /-- `source`. -/
  source : SndSeqAddr
  /-- `dest`. -/
  dest : SndSeqAddr
  /-- The bytes of the union `data`. -/
  data : List UInt8
deriving DecidableEq, Repr

/-- `SND_SEQ_EVENT_NOTEON`. -/
def sndSeqEventNoteOn : UInt8 := 6

/-- `SND_SEQ_EVENT_NOTEOFF`. -/
def sndSeqEventNoteOff : UInt8 := 7

/-- `SND_SEQ_EVENT_PGMCHANGE`. -/
def sndSeqEventPgmChange : UInt8 := 11

/-- `SND_SEQ_QUEUE_DIRECT`. -/
def sndSeqQueueDirect : UInt8 := 253

/-- `SND_SEQ_ADDRESS_SUBSCRIBERS`, with the port that goes with it. -/
def sndSeqAddressSubscribers : SndSeqAddr := ⟨254, 253⟩

/-- `SND_SEQ_EVENT_LENGTH_MASK`. -/
def sndSeqEventLengthMask : UInt8 := 12

namespace SndSeqEvent

/-- `snd_seq_ev_clear`. -/
def clear : SndSeqEvent :=
  ⟨0, 0, 0, 0, List.replicate 8 0, ⟨0, 0⟩, ⟨0, 0⟩, List.replicate 12 0⟩

/-- `snd_seq_ev_set_source`. -/
def setSource (event : SndSeqEvent) (nPort : Int) : SndSeqEvent :=
  { event with source.port := UInt8.ofInt nPort }

/-- `snd_seq_ev_set_subs`. -/
def setSubs (event : SndSeqEvent) : SndSeqEvent := { event with dest := sndSeqAddressSubscribers }

/-- `snd_seq_ev_set_direct`. -/
def setDirect (event : SndSeqEvent) : SndSeqEvent := { event with queue := sndSeqQueueDirect }

/-- `snd_seq_ev_set_fixed`. -/
def setFixed (event : SndSeqEvent) : SndSeqEvent :=
  { event with flags := event.flags &&& ~~~ sndSeqEventLengthMask }

/-- The five calls in front of every use of a record. -/
def prepared (nMyPortID : Int) : SndSeqEvent :=
  ((((clear.setSource nMyPortID).setSubs).setDirect).setFixed)

/-- `type`, `data.note.channel`, `data.note.note` and `data.note.velocity` are set. -/
def setNote (event : SndSeqEvent) (note : NoteEvent) : SndSeqEvent :=
  { event with
    type := note.type
    data := memcpy event.data 0 [note.channel, note.note, note.velocity] }

/-- `type`, `data.control.channel` and `data.control.value` are set. -/
def setProgram (event : SndSeqEvent) (channel : UInt8) (value : Int32) : SndSeqEvent :=
  { event with
    type := sndSeqEventPgmChange
    data := memcpy (memcpy event.data 0 [channel]) 8
      ((List.range 4).map fun place => UInt8.ofNat (value.toUInt32.toNat / 256 ^ place)) }

/-- A number in four bytes of the union. -/
def word (event : SndSeqEvent) (place : Nat) : Nat :=
  ((event.data.drop place).take 4).foldr (fun byte rest => byte.toNat + 256 * rest) 0

/-- `data.control.channel`. -/
def controlChannel (event : SndSeqEvent) : Option UInt8 := event.data[0]?

/-- `data.control.param`. -/
def controlParam (event : SndSeqEvent) : UInt32 := UInt32.ofNat (event.word 4)

/-- `data.control.value`. -/
def controlValue (event : SndSeqEvent) : Int32 := (UInt32.ofNat (event.word 8)).toInt32

/-- `nPlayReadyMidi` and `nPlayConnectedMidi`: a program, and a note that is played twice. -/
def playTwice (nMyPortID : Int) (value : Int32) (note : UInt8) : List SndSeqEvent :=
  let tEvent := (prepared nMyPortID).setProgram 0 value
  let noteOn : NoteEvent := ⟨sndSeqEventNoteOn, 0, note, 80⟩
  let noteOff : NoteEvent := ⟨sndSeqEventNoteOff, 0, note, 0⟩
  [tEvent, tEvent.setNote noteOn, (tEvent.setNote noteOn).setNote noteOff,
    ((tEvent.setNote noteOn).setNote noteOff).setNote noteOn,
    (((tEvent.setNote noteOn).setNote noteOff).setNote noteOn).setNote noteOff]

/-- `nPlayReadyMidi`. -/
def nPlayReadyMidi (nMyPortID : Int) : List SndSeqEvent := playTwice nMyPortID 1 100

/-- `nPlayConnectedMidi`. -/
def nPlayConnectedMidi (nMyPortID : Int) : List SndSeqEvent := playTwice nMyPortID 25 50

/-- The records that are output when one record is used for one note after the other. -/
def playNotes (tSndSeqEvent : SndSeqEvent) : List NoteEvent → List SndSeqEvent
  | [] => []
  | note :: rest =>
    let tSndSeqEvent := tSndSeqEvent.setNote note
    tSndSeqEvent :: playNotes tSndSeqEvent rest

/-- A record that holds nothing but a note: it comes from this port, and goes to those it is
connected to at once. -/
def ofNote (nMyPortID : Int) (note : NoteEvent) : SndSeqEvent where
  type := note.type
  flags := 0
  tag := 0
  queue := sndSeqQueueDirect
  time := List.replicate 8 0
  source := ⟨0, UInt8.ofInt nMyPortID⟩
  dest := sndSeqAddressSubscribers
  data := [note.channel, note.note, note.velocity] ++ List.replicate 9 0

/-- Nothing of an earlier note is left in a record. -/
theorem ofNote_setNote (nMyPortID : Int) (earlier note : NoteEvent) :
    (ofNote nMyPortID earlier).setNote note = ofNote nMyPortID note := rfl

/-- The first note of a record. -/
theorem prepared_setNote (nMyPortID : Int) (note : NoteEvent) :
    (prepared nMyPortID).setNote note = ofNote nMyPortID note := by
  have flags : (0 : UInt8) &&& ~~~ sndSeqEventLengthMask = 0 := by decide
  simp only [prepared, clear, setSource, setSubs, setDirect, setFixed, flags]
  rfl

/-- One record for one note, although it is the same one each time. -/
theorem playNotes_prepared (nMyPortID : Int) (notes : List NoteEvent) :
    playNotes (prepared nMyPortID) notes = notes.map (ofNote nMyPortID) := by
  have later : ∀ (rest : List NoteEvent) (earlier : NoteEvent),
      playNotes (ofNote nMyPortID earlier) rest = rest.map (ofNote nMyPortID) := by
    intro rest
    induction rest with
    | nil => exact fun _ => rfl
    | cons note rest ih =>
      intro earlier
      rw [playNotes, ofNote_setNote, ih, List.map_cons]
  cases notes with
  | nil => rfl
  | cons note rest => rw [playNotes, prepared_setNote, later, List.map_cons]

/-- The four bytes of a number are read back. -/
theorem word_bytes {number : Nat} (bound : number < 2 ^ 32) :
    ((List.range 4).map fun place => UInt8.ofNat (number / 256 ^ place)).foldr
      (fun byte rest => byte.toNat + 256 * rest) 0 = number := by
  have four : List.range 4 = [0, 1, 2, 3] := rfl
  simp only [four, List.map_cons, List.map_nil, List.foldr_cons, List.foldr_nil, UInt8.toNat_ofNat']
  omega

/-- A program change carries the channel and the value that were set. -/
theorem setProgram_control (nMyPortID : Int) (channel : UInt8) (value : Int32) :
    ((prepared nMyPortID).setProgram channel value).controlChannel = some channel ∧
      ((prepared nMyPortID).setProgram channel value).controlValue = value := by
  refine ⟨rfl, ?_⟩
  have number : ((prepared nMyPortID).setProgram channel value).word 8 = value.toUInt32.toNat := by
    exact word_bytes value.toUInt32.toNat_lt
  rw [controlValue, number, UInt32.ofNat_toNat]
  rfl

/-- A note leaves the parameter and the value of other events zero. -/
theorem ofNote_control (nMyPortID : Int) (note : NoteEvent) :
    (ofNote nMyPortID note).controlParam = 0 ∧ (ofNote nMyPortID note).controlValue = 0 :=
  ⟨rfl, rfl⟩

end SndSeqEvent

/-! ## Sessions -/

open SndSeqEvent

/-- A reader thread from its set-up to its end: the ports it is connected to and the records it
outputs, if it plays, and what it still has. -/
def ReaderThread.session (thread : ReaderThread) (calls : SetupCalls) (cSndPort : List UInt8)
    (play : Int → List SndSeqEvent) :
    Except Fault (Option (List SndSeqAddr × List SndSeqEvent) × SeqResources) := do
  let (nRc, tSeqInfo, resources) ←
    prepareSeqInforForThread calls cSndPort thread.tSeqInfo ⟨[], []⟩
  if nRc < 0 then
    return (none, ← exitBlock tSeqInfo resources)
  let seq ← load resources.handles tSeqInfo.pSeq
  return (some (seq.connections, play tSeqInfo.nMyPortID), ← exitBlock tSeqInfo resources)

/-- What a thread releases does not depend on what it plays. -/
theorem ReaderThread.session_run (thread : ReaderThread) (calls : SetupCalls)
    (cSndPort : List UInt8) (play : Int → List SndSeqEvent) :
    (thread.session calls cSndPort play).map Prod.snd = thread.run calls cSndPort := by
  rw [session, run]
  cases prepareSeqInforForThread calls cSndPort thread.tSeqInfo ⟨[], []⟩ with
  | error fault => rfl
  | ok result =>
    obtain ⟨nRc, tSeqInfo, resources⟩ := result
    by_cases failed : nRc < 0
    · have negative : ¬ 0 ≤ nRc := by omega
      simp only [bind, Except.bind, if_pos failed, if_neg negative]
      cases exitBlock tSeqInfo resources <;> rfl
    · have success : 0 ≤ nRc := by omega
      simp only [bind, Except.bind, if_neg failed, if_pos success]
      cases load resources.handles tSeqInfo.pSeq with
      | error fault => rfl
      | ok seq => cases exitBlock tSeqInfo resources <;> rfl

/-- `BT_clientService` on these results of `recv`, behind what its `tSeqInfo` holds. -/
def btClientService (tSeqInfo : SeqForThread) (calls : SetupCalls) (cSndPort : List UInt8)
    (residue : Nat → StackResidue) (results : List (List UInt8)) :=
  (ReaderThread.bluetooth tSeqInfo).session calls cSndPort fun nMyPortID =>
    nPlayConnectedMidi nMyPortID ++
      playNotes (prepared nMyPortID) (playFrames residue (BtReader.start.receiveAll results).2)

/-- `UART_clientService` on these results of `read`. -/
def uartClientService (calls : SetupCalls) (cSndPort : List UInt8) (residue : Nat → StackResidue)
    (reads : List (List UInt8)) :=
  ReaderThread.uart.session calls cSndPort fun nMyPortID =>
    playNotes (prepared nMyPortID) (uartEvents residue (List.replicate noteFrameLength 0) reads)

/-- Every call of the set-up succeeds, and these are the ports of the string. -/
def SetupCalls.Plays (calls : SetupCalls) (cSndPort : List UInt8)
    (ports : List SndSeqAddr) : Prop :=
  calls.Initialised ∧ parseOutcome calls.parse cSndPort = .parsed ports ∧
    0 ≤ calls.createSimplePort ∧ ∀ i < ports.length, calls.connectTo i = true

variable {calls : SetupCalls} {cSndPort : List UInt8} {tSeqInfo : SeqForThread}

/-- A set-up whose ports are not parsed does not play. -/
theorem unparsed_silent (initialised : calls.Initialised) {pPorts : Option Nat} {after : PortHeap}
    {nRc : Int} {info : SeqForThread} {resources : SeqResources}
    (unparsed : ∀ ports, parseOutcome calls.parse cSndPort ≠ .parsed ports)
    (parsed : nParsePorts calls.parse cSndPort tSeqInfo.pPorts [] = .ok (-1, pPorts, after))
    (prepared : prepareSeqInforForThread calls cSndPort tSeqInfo ⟨[], []⟩ =
      .ok (nRc, info, resources)) :
    nRc < 0 ∧ ∀ ports, ¬ calls.Plays cSndPort ports := by
  rw [prepare_unparsed initialised parsed] at prepared
  obtain ⟨rfl, -⟩ := Prod.mk.inj (Except.ok.inj prepared)
  exact ⟨by decide, fun ports plays => unparsed ports plays.2.1⟩

/-- Behind parsed ports it plays when a port is created and every one of them is connected. -/
theorem prepare_connects (initialised : calls.Initialised) {ports : List SndSeqAddr} {block : Nat}
    {arrays after : PortHeap} (filled : ports ≠ [])
    (loaded : load after (some block) = .ok (ports.map some))
    (outcome : parseOutcome calls.parse cSndPort = .parsed ports)
    (parsed : nParsePorts calls.parse cSndPort tSeqInfo.pPorts arrays =
      .ok (ports.length, some block, after)) :
    ∃ nRc info seq, prepareSeqInforForThread calls cSndPort tSeqInfo ⟨[], arrays⟩ =
        .ok (nRc, info, ⟨[some seq], after⟩) ∧ info.pSeq = some 0 ∧
      ((nRc < 0 ∧ ∀ other, ¬ calls.Plays cSndPort other) ∨
        (0 ≤ nRc ∧ calls.Plays cSndPort ports ∧ info.nMyPortID = calls.createSimplePort ∧
          seq.connections = ports)) := by
  have enough : ¬ ((ports.length : Int) < 1) := by
    have some_port := List.length_pos_of_ne_nil filled
    omega
  have alone : ∀ other, calls.Plays cSndPort other → other = ports := by
    intro other plays
    have same := plays.2.1
    rw [outcome] at same
    exact (ParseOutcome.parsed.inj same).symm
  rw [prepareSeqInforForThread, nInitSeq_initialised initialised]
  simp only [bind, Except.bind, if_neg initialised.goesOn]
  rw [parsed]
  obtain ⟨nRc, connected, connects, -, complete⟩ := nConnectPorts_full calls.connectTo loaded
  have result := connectFrom_result connects
  let info : SeqForThread :=
    ⟨some 0, some block, calls.clientId, ports.length, calls.createSimplePort⟩
  by_cases created : calls.createSimplePort < 0
  · refine ⟨-1, info, ⟨[], []⟩, ?_, rfl, .inl ⟨by decide, fun other plays => ?_⟩⟩
    · simp [info, load, pCreateSourcePort_failed created, pure, Except.pure, enough, created]
    · have positive := plays.2.2.1
      omega
  · by_cases failed : nRc < 0
    · refine ⟨-1, info, ⟨[calls.createSimplePort], connected⟩, ?_, rfl,
        .inl ⟨by decide, fun other plays => ?_⟩⟩
      · simp [info, load, store, pCreateSourcePort_created created, pure, Except.pure,
          Except.map, enough, created, connects, failed]
      · have every := plays.2.2.2
        rw [alone other plays] at every
        have success : 0 ≤ nRc := result.mpr fun entry _ before => every entry (by omega)
        omega
    · refine ⟨0, info, ⟨[calls.createSimplePort], connected⟩, ?_, rfl,
        .inr ⟨Int.le_refl 0, ⟨initialised, outcome, by omega, fun entry before => ?_⟩, rfl, ?_⟩⟩
      · simp [info, load, store, pCreateSourcePort_created created, pure, Except.pure,
          Except.map, enough, created, connects, failed]
      · exact result.mp (by omega) entry (Nat.zero_le _) (by omega)
      · exact complete (by omega)

/-- When a set-up succeeds, and what it has set up then. -/
theorem prepare_plays {nRc : Int} {info : SeqForThread} {resources : SeqResources}
    (prepared : prepareSeqInforForThread calls cSndPort tSeqInfo ⟨[], []⟩ =
      .ok (nRc, info, resources)) :
    (nRc < 0 ∧ ∀ ports, ¬ calls.Plays cSndPort ports) ∨
      (0 ≤ nRc ∧ ∃ seq, load resources.handles info.pSeq = .ok seq ∧
        calls.Plays cSndPort seq.connections ∧ info.nMyPortID = calls.createSimplePort) := by
  by_cases initialised : calls.Initialised
  · cases pointer : tSeqInfo.pPorts with
    | some block =>
      -- The pointer has never been that of an array.
      cases copied : calls.parse.strdup with
      | true =>
        have dead : nParsePorts calls.parse cSndPort tSeqInfo.pPorts [] = .error .dead := by
          rw [pointer]
          exact nParsePorts_dead copied cSndPort (empty_dead block)
        rw [prepare_fault initialised dead] at prepared
        cases prepared
      | false =>
        have uncopied : nParsePorts calls.parse cSndPort tSeqInfo.pPorts [] =
            .ok (-1, some block, []) := by
          rw [nParsePorts, copied, pointer]
          rfl
        refine .inl (unparsed_silent initialised (fun ports => ?_) uncopied prepared)
        rw [parseOutcome, copied]
        simp
    | none =>
      have unowned : Owns ([] : PortHeap) ∅ none := owns_nil
      obtain ⟨result, parsed, leaves⟩ := nParsePorts_parses calls.parse cSndPort unowned
      rw [← pointer] at parsed
      cases outcome : parseOutcome calls.parse cSndPort with
      | parsed ports =>
        rw [outcome] at leaves
        cases leaves with
        | parsed owns filled loaded =>
          obtain ⟨nResult, after, seq, set_up, opened, plays⟩ :=
            prepare_connects initialised filled loaded outcome parsed
          rw [set_up] at prepared
          obtain ⟨rfl, rest⟩ := Prod.mk.inj (Except.ok.inj prepared)
          obtain ⟨rfl, rfl⟩ := Prod.mk.inj rest
          rcases plays with silent | ⟨success, plays, port, connected⟩
          · exact .inl silent
          · refine .inr ⟨success, seq, ?_, connected ▸ plays, port⟩
            rw [opened]
            rfl
      | uncopied =>
        rw [outcome] at leaves
        cases leaves with
        | uncopied owns =>
          exact .inl (unparsed_silent initialised (by simp [outcome]) parsed prepared)
      | ungranted nEntry =>
        rw [outcome] at leaves
        cases leaves with
        | ungranted owns nothing =>
          exact .inl (unparsed_silent initialised (by simp [outcome]) parsed prepared)
      | unparsed nEntry =>
        rw [outcome] at leaves
        cases leaves with
        | unparsed owns released =>
          exact .inl (unparsed_silent initialised (by simp [outcome]) parsed prepared)
  · refine .inl ⟨?_, fun ports plays => initialised plays.1⟩
    by_cases opened : calls.seqOpen = true
    · rw [prepare_failed opened initialised] at prepared
      obtain ⟨rfl, -⟩ := Prod.mk.inj (Except.ok.inj prepared)
      decide
    · rw [prepare_unopened (by simpa using opened)] at prepared
      cases freed : free ([] : SeqHandles) tSeqInfo.pSeq with
      | error fault =>
        rw [freed] at prepared
        cases prepared
      | ok handles =>
        rw [freed] at prepared
        obtain ⟨rfl, -⟩ := Prod.mk.inj (Except.ok.inj prepared)
        decide

/-- A thread plays exactly when every call succeeds, to the ports of the string and from the port it
has created. -/
theorem session_plays {thread : ReaderThread} {play : Int → List SndSeqEvent}
    {heard : Option (List SndSeqAddr × List SndSeqEvent)} {resources : SeqResources}
    (returned : thread.session calls cSndPort play = .ok (heard, resources))
    (ports : List SndSeqAddr) (records : List SndSeqEvent) :
    heard = some (ports, records) ↔ calls.Plays cSndPort ports ∧
      records = play calls.createSimplePort := by
  obtain ⟨⟨nRc, tSeqInfo, acquired⟩, prepared, onward⟩ := bind_ok returned
  simp only at onward
  rcases prepare_plays prepared with ⟨failed, silent⟩ | ⟨success, seq, loaded, plays, port⟩
  · rw [if_pos failed] at onward
    obtain ⟨left, -, ended⟩ := bind_ok onward
    obtain ⟨rfl, -⟩ := Prod.mk.inj (Except.ok.inj ended)
    simp only [silent ports, false_and, reduceCtorEq]
  · rw [if_neg (show ¬ nRc < 0 by omega), loaded] at onward
    obtain ⟨handle, found, releasing⟩ := bind_ok onward
    obtain rfl := Except.ok.inj found
    obtain ⟨left, -, ended⟩ := bind_ok releasing
    obtain ⟨rfl, -⟩ := Prod.mk.inj (Except.ok.inj ended)
    rw [Option.some.injEq, Prod.mk.injEq, port]
    constructor
    · rintro ⟨rfl, rfl⟩
      exact ⟨plays, rfl⟩
    · rintro ⟨others, rfl⟩
      have same := plays.2.1
      rw [others.2.1] at same
      exact ⟨(ParseOutcome.parsed.inj same).symm, rfl⟩

/-- From the string of ports to the records: for every string, every pattern of failures, whatever
is in the fields that a Bluetooth thread does not set, and every course of its loop, a thread that
returns has played exactly when every call succeeded. It is then connected to the ports of the
string, in order, and it has output, from the port it has created, one record for each frame it was
sent, or line it has read, behind the greeting of a Bluetooth thread. No frame gives a record of
another type of event a parameter or a value, while the program changes of commands carry theirs. -/
theorem readers_play (calls : SetupCalls) (cSndPort : List UInt8) (residue : Nat → StackResidue) :
    (∀ tSeqInfo results heard resources, BtReader.start.AcceptsAll results →
      btClientService tSeqInfo calls cSndPort residue results = .ok (heard, resources) →
      ∀ ports records, heard = some (ports, records) ↔ calls.Plays cSndPort ports ∧
        records = nPlayConnectedMidi calls.createSimplePort ++
          (playFrames residue (framesOf results.flatten)).map (ofNote calls.createSimplePort)) ∧
    (∀ reads heard resources,
      uartClientService calls cSndPort residue reads = .ok (heard, resources) →
      ∀ ports records, heard = some (ports, records) ↔ calls.Plays cSndPort ports ∧
        records = (uartEvents residue (List.replicate noteFrameLength 0) reads).map
          (ofNote calls.createSimplePort)) ∧
    (∀ nMyPortID note, (ofNote nMyPortID note).controlParam = 0 ∧
      (ofNote nMyPortID note).controlValue = 0) ∧
    ∀ nMyPortID channel value,
      ((prepared nMyPortID).setProgram channel value).controlChannel = some channel ∧
        ((prepared nMyPortID).setProgram channel value).controlValue = value := by
  refine ⟨?_, ?_, ofNote_control, setProgram_control⟩
  · intro tSeqInfo results heard resources accepted returned ports records
    rw [session_plays returned, playNotes_prepared, BtReader.receiveAll_frames accepted]
    rfl
  · intro reads heard resources returned ports records
    rw [session_plays returned, playNotes_prepared]

/-- A Bluetooth client is greeted and heard at the port of the string, its program change with the
value `0`. -/
theorem readers_play_one :
    let calls : SetupCalls :=
      ⟨true, true, 128, ⟨true, fun _ => true, fun _ _ => some ⟨20, 0⟩⟩, 0, fun _ => true⟩
    let results := [ascii "0601AE2C\n", ascii "0B010", ascii "5FF\n"]
    ∃ resources, btClientService ⟨none, none, 0, 0, 0⟩ calls (ascii "synth")
        (fun _ => ⟨fun _ => 0, []⟩) results =
      .ok (some ([⟨20, 0⟩], nPlayConnectedMidi 0 ++
        [ofNote 0 ⟨0x06, 0x01, 0xAE, 0x2C⟩, ofNote 0 ⟨0x0B, 0x01, 0x05, 0xFF⟩]), resources) := by
  intro calls results
  have ends : (btClientService ⟨none, none, 0, 0, 0⟩ calls (ascii "synth")
      (fun _ => ⟨fun _ => 0, []⟩) results).toOption.isSome := by decide +kernel
  have plays : calls.Plays (ascii "synth") [⟨20, 0⟩] :=
    ⟨by decide, by decide, by decide, fun _ _ => rfl⟩
  cases returned : btClientService ⟨none, none, 0, 0, 0⟩ calls (ascii "synth")
      (fun _ => ⟨fun _ => 0, []⟩) results with
  | error fault =>
    rw [returned] at ends
    cases ends
  | ok outcome =>
    obtain ⟨heard, resources⟩ := outcome
    have bluetooth := (readers_play calls (ascii "synth") fun _ => ⟨fun _ => 0, []⟩).1
    have hears := bluetooth ⟨none, none, 0, 0, 0⟩ results heard resources (by decide) returned
    exact ⟨resources, by rw [(hears [⟨20, 0⟩] _).mpr ⟨plays, rfl⟩]; rfl⟩

end MidiDaemon
