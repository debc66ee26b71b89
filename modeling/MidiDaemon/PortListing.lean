import MidiDaemon.Library.Cursor
import MidiDaemon.Library.Machine
import MidiDaemon.Library.Scanf
import MidiDaemon.PortParsing

/-!
# The list of ports

`listPorts` asks the sequencer for one client after the other, and for one port of the client after
the other, and prints those that a program may write to. Between two queries clients and ports may
come and go, so each query is answered by a sequencer of its own.

The list has no address twice, and each of its lines is true of the sequencer that was asked for it.
A port that may be written to all the time is in it. Its end comes after a bounded number of queries
(`ports_listed`).
-/

namespace MidiDaemon

open Machine Scanf

/-- What a query reports of a port. -/
structure SeqPort where
  /-- `snd_seq_port_info_get_type`. -/
  type : UInt32
  /-- `snd_seq_port_info_get_capability`. -/
  capability : UInt32
  /-- `snd_seq_port_info_get_name`. -/
  name : List UInt8

/-- What a query reports of a client, and its ports. -/
structure SeqClient where
  /-- `snd_seq_client_info_get_name`. -/
  name : List UInt8
  /-- The ports by their numbers. -/
  ports : UInt8 → Option SeqPort

/-- The clients of the sequencer by their numbers. -/
abbrev Sequencer : Type := UInt8 → Option SeqClient

/-- `SND_SEQ_PORT_TYPE_MIDI_GENERIC`. -/
def midiGeneric : UInt32 := 2

/-- `SND_SEQ_PORT_CAP_WRITE | SND_SEQ_PORT_CAP_SUBS_WRITE`. -/
def writeCapability : UInt32 := 2 ||| 64

/-- The port understands messages, and may be written and subscribed to. -/
def SeqPort.writable (port : SeqPort) : Bool :=
  port.type &&& midiGeneric ≠ 0 && port.capability &&& writeCapability = writeCapability

/-- What is printed of a port. -/
structure ListedPort where
  /-- Its address. -/
  address : SndSeqAddr
  /-- The name of the client. -/
  clientName : List UInt8
  /-- The name of the port. -/
  portName : List UInt8
deriving DecidableEq, Repr

/-- A text printed in a field, with blanks in front of it. -/
def padLeft (width : Nat) (text : List UInt8) : List UInt8 :=
  List.replicate (width - text.length) 32 ++ text

/-- A text printed in a field, with blanks behind it. -/
def padRight (width : Nat) (text : List UInt8) : List UInt8 :=
  text ++ List.replicate (width - text.length) 32

/-- `printf("%3d:%-3d  %-32.32s %s\n", ...)`. -/
def ListedPort.line (listed : ListedPort) : List UInt8 :=
  padLeft 3 (printInteger listed.address.client.toNat) ++ ascii ":" ++
    padRight 3 (printInteger listed.address.port.toNat) ++ ascii "  " ++
    padRight 32 (listed.clientName.take 32) ++ ascii " " ++ listed.portName ++ ascii "\n"

/-- What `listPorts` asks for next. -/
inductive ListStage where
  /-- `snd_seq_query_next_client`. -/
  | clients
  /-- `snd_seq_query_next_port`, for this client. -/
  | ports (nClientID : UInt8)
  /-- Nothing more. -/
  | ended
deriving DecidableEq, Repr

/-- The variables of `listPorts`, and what it has printed. -/
structure PortListing where
  /-- The next query. -/
  stage : ListStage
  /-- The client number in `pClientInfo`. -/
  client : Int
  /-- The client name in `pClientInfo`. -/
  clientName : List UInt8
  /-- The port number in `pPortInfo`. -/
  port : Int
  /-- The lines printed. -/
  printed : List ListedPort
deriving DecidableEq, Repr

/-- The first number behind the cursor that has an entry; numbers are bytes. -/
def nextNumber {α : Type} (table : UInt8 → Option α) (cursor : Int) : Option UInt8 :=
  (Cursor.next 256 (fun number => table (UInt8.ofNat number)) cursor).map UInt8.ofNat

/-- The ports of a client, none of which are left when the client is gone. -/
def Sequencer.portsOf (sequencer : Sequencer) (nClientID nPort : UInt8) : Option SeqPort :=
  (sequencer nClientID).bind fun client => client.ports nPort

namespace PortListing

/-- `listPorts` in front of its loop. -/
def start : PortListing := ⟨.clients, -1, [], -1, []⟩

/-- One query, answered by this sequencer. -/
def step (listing : PortListing) (sequencer : Sequencer) : Option PortListing :=
  match listing.stage with
  | .clients =>
    match nextNumber sequencer listing.client with
    | some nClientID =>
      some { listing with
        stage := .ports nClientID
        client := nClientID.toNat
        clientName := ((sequencer nClientID).map SeqClient.name).getD []
        port := -1 }
    | none => some { listing with stage := .ended }
  | .ports nClientID =>
    match nextNumber (sequencer.portsOf nClientID) listing.port with
    | some nPort =>
      let printed := ((sequencer.portsOf nClientID nPort).filter SeqPort.writable).map fun port =>
        (⟨⟨nClientID, nPort⟩, listing.clientName, port.name⟩ : ListedPort)
      some { listing with port := nPort.toNat, printed := listing.printed ++ printed.toList }
    | none => some { listing with stage := .clients }
  | .ended => none

end PortListing

/-! ## Numbers and addresses -/

section Numbers

variable {α : Type} {table : UInt8 → Option α} {cursor : Int} {number other : UInt8}

/-- A query finds an entry behind the cursor. -/
theorem nextNumber_found (found : nextNumber table cursor = some number) :
    cursor < number.toNat ∧ (table number).isSome = true := by
  have ⟨place, first, same⟩ := Option.map_eq_some_iff.mp found
  have ⟨behind, within, present⟩ := Cursor.next_found first
  rw [← same]
  refine ⟨?_, present⟩
  rw [UInt8.toNat_ofNat_of_lt' within]
  exact behind

/-- A query passes over nothing that is there. -/
theorem nextNumber_first (found : nextNumber table cursor = some number)
    (behind : cursor < other.toNat) (present : (table other).isSome = true) :
    number.toNat ≤ other.toNat := by
  have ⟨place, first, same⟩ := Option.map_eq_some_iff.mp found
  have within := (Cursor.next_found first).2.1
  rw [← same, UInt8.toNat_ofNat_of_lt' within]
  apply Cursor.next_first first behind
  rw [UInt8.ofNat_toNat]
  exact present

/-- A query that finds nothing has nothing behind the cursor. -/
theorem nextNumber_none (ended : nextNumber table cursor = none)
    (present : (table other).isSome = true) : (other.toNat : Int) ≤ cursor := by
  have nothing := Option.map_eq_none_iff.mp ended
  apply Cursor.next_none nothing other.toNat_lt
  rw [UInt8.ofNat_toNat]
  exact present

end Numbers

/-- Addresses in the order of the list. -/
def SndSeqAddr.Before (address other : SndSeqAddr) : Prop :=
  address.client.toNat < other.client.toNat ∨
    address.client = other.client ∧ address.port.toNat < other.port.toNat

/-- The sequencer has a port that may be written to at this address. -/
def Sequencer.Offers (sequencer : Sequencer) (address : SndSeqAddr) : Prop :=
  ∃ port, sequencer.portsOf address.client address.port = some port ∧ port.writable = true

/-- A line tells what was asked: the port may be written to and has this name, and so has its
client. -/
structure ListedPort.ReadsFrom (asked : List Sequencer) (listed : ListedPort) : Prop where
  /-- The port. -/
  port : ∃ sequencer ∈ asked, ∃ port,
    sequencer.portsOf listed.address.client listed.address.port = some port ∧
      port.writable = true ∧ port.name = listed.portName
  /-- Its client. -/
  client : ∃ sequencer ∈ asked, ∃ client, sequencer listed.address.client = some client ∧
    client.name = listed.clientName

namespace PortListing

variable {listing next : PortListing} {sequencer : Sequencer} {asked : List Sequencer}
  {address : SndSeqAddr}

/-- The queries are behind an address. -/
def Passed (listing : PortListing) (address : SndSeqAddr) : Prop :=
  match listing.stage with
  | .clients => (address.client.toNat : Int) ≤ listing.client
  | .ports nClientID => address.client.toNat < nClientID.toNat ∨
    address.client = nClientID ∧ (address.port.toNat : Int) ≤ listing.port
  | .ended => True

/-- What is printed was asked for, in the order of the addresses. -/
structure InOrder (asked : List Sequencer) (listing : PortListing) : Prop where
  /-- The client that is asked for its ports. -/
  client : ∀ nClientID, listing.stage = .ports nClientID →
    listing.client = nClientID.toNat ∧
      ∃ sequencer ∈ asked, ∃ client, sequencer nClientID = some client ∧
        client.name = listing.clientName
  /-- What is printed is behind. -/
  passed : ∀ line ∈ listing.printed, listing.Passed line.address
  /-- It is in order. -/
  ascending : (listing.printed.map ListedPort.address).Pairwise SndSeqAddr.Before
  /-- It was asked for. -/
  reads : ∀ line ∈ listing.printed, line.ReadsFrom asked

/-- Nothing is printed in the beginning. -/
theorem start_inOrder (asked : List Sequencer) : start.InOrder asked where
  client _ stage := by cases stage
  passed _ member := absurd member List.not_mem_nil
  ascending := List.Pairwise.nil
  reads _ member := absurd member List.not_mem_nil

/-- What a step can do, all cases of it. -/
theorem step_cases (stepped : listing.step sequencer = some next) :
    (∃ nClientID client, listing.stage = .clients ∧
      nextNumber sequencer listing.client = some nClientID ∧ sequencer nClientID = some client ∧
      next = { listing with
        stage := .ports nClientID
        client := nClientID.toNat
        clientName := client.name
        port := -1 }) ∨
    (listing.stage = .clients ∧ nextNumber sequencer listing.client = none ∧
      next = { listing with stage := .ended }) ∨
    (∃ nClientID nPort port, listing.stage = .ports nClientID ∧
      nextNumber (sequencer.portsOf nClientID) listing.port = some nPort ∧
      sequencer.portsOf nClientID nPort = some port ∧
      next = { listing with
        port := nPort.toNat
        printed := listing.printed ++ if port.writable then
          [⟨⟨nClientID, nPort⟩, listing.clientName, port.name⟩] else [] }) ∨
    (∃ nClientID, listing.stage = .ports nClientID ∧
      nextNumber (sequencer.portsOf nClientID) listing.port = none ∧
      next = { listing with stage := .clients }) := by
  unfold step at stepped
  split at stepped
  · rename_i stage
    split at stepped
    · rename_i nClientID found
      have ⟨client, present⟩ := Option.isSome_iff_exists.mp (nextNumber_found found).2
      left
      refine ⟨nClientID, client, stage, found, present, ?_⟩
      rw [← Option.some.inj stepped, present]
      rfl
    · rename_i ended
      right; left
      exact ⟨stage, ended, (Option.some.inj stepped).symm⟩
  · rename_i nClientID stage
    split at stepped
    · rename_i nPort found
      have ⟨port, present⟩ := Option.isSome_iff_exists.mp (nextNumber_found found).2
      right; right; left
      refine ⟨nClientID, nPort, port, stage, found, present, ?_⟩
      rw [← Option.some.inj stepped, present]
      cases writable : port.writable <;> simp [Option.filter, writable]
    · rename_i ended
      right; right; right
      exact ⟨nClientID, stage, ended, (Option.some.inj stepped).symm⟩
  · cases stepped

/-- A query keeps the order, and what it prints was asked for. -/
theorem step_inOrder (inOrder : listing.InOrder asked) (member : sequencer ∈ asked)
    (stepped : listing.step sequencer = some next) : next.InOrder asked := by
  have behind := inOrder.passed
  rcases step_cases stepped with ⟨nClientID, client, stage, found, present, same⟩ |
    ⟨stage, _, same⟩ | ⟨nClientID, nPort, port, stage, found, present, same⟩ |
    ⟨nClientID, stage, _, same⟩
  · simp only [Passed, stage] at behind
    have beyond := (nextNumber_found found).1
    rw [same]
    refine ⟨fun other turned => ?_, fun line printed => ?_, inOrder.ascending, inOrder.reads⟩
    · have one : nClientID = other := ListStage.ports.inj turned
      rw [← one]
      exact ⟨rfl, sequencer, member, client, present, rfl⟩
    · have before := behind line printed
      left
      show line.address.client.toNat < nClientID.toNat
      omega
  · rw [same]
    exact ⟨fun _ turned => (by cases turned), fun _ _ => trivial, inOrder.ascending, inOrder.reads⟩
  · have ⟨_, asked_client⟩ := inOrder.client nClientID stage
    have beyond := (nextNumber_found found).1
    simp only [Passed, stage] at behind
    have kept : ∀ line ∈ listing.printed, Passed next line.address := by
      intro line printed
      simp only [Passed, same, stage]
      rcases behind line printed with below | ⟨here, port_behind⟩
      · exact .inl below
      · exact .inr ⟨here, by omega⟩
    cases writable : port.writable with
    | false =>
      rw [writable] at same
      simp only [Bool.false_eq_true, if_false, List.append_nil] at same
      rw [same] at kept ⊢
      exact ⟨inOrder.client, kept, inOrder.ascending, inOrder.reads⟩
    | true =>
      rw [writable, if_pos rfl] at same
      have last : Passed next ⟨nClientID, nPort⟩ := by
        simp only [Passed, same, stage]
        exact .inr ⟨trivial, Int.le_refl _⟩
      rw [same] at kept last ⊢
      refine ⟨inOrder.client, fun line printed => ?_, ?_, fun line printed => ?_⟩
      · rcases List.mem_append.mp printed with before | new
        · exact kept line before
        · rw [List.mem_singleton.mp new]
          exact last
      · rw [List.map_append]
        apply List.pairwise_append.mpr
        refine ⟨inOrder.ascending, List.pairwise_singleton _ _, fun first before second new => ?_⟩
        have ⟨line, printed, one⟩ := List.mem_map.mp before
        rw [List.mem_singleton.mp new, ← one]
        rcases behind line printed with below | ⟨here, port_behind⟩
        · exact .inl below
        · right
          refine ⟨here, ?_⟩
          show line.address.port.toNat < nPort.toNat
          omega
      · rcases List.mem_append.mp printed with before | new
        · exact inOrder.reads line before
        · rw [List.mem_singleton.mp new]
          exact ⟨⟨sequencer, member, port, present, writable, rfl⟩, asked_client⟩
  · have ⟨client, _⟩ := inOrder.client nClientID stage
    simp only [Passed, stage] at behind
    rw [same]
    refine ⟨fun _ turned => (by cases turned), fun line printed => ?_, inOrder.ascending,
      inOrder.reads⟩
    show (line.address.client.toNat : Int) ≤ listing.client
    rw [client]
    rcases behind line printed with below | ⟨here, _⟩
    · omega
    · rw [here]

/-- A query passes over no port that is there, and prints it. -/
theorem step_covers (inOrder : listing.InOrder asked) (offered : sequencer.Offers address)
    (covers : listing.Passed address → address ∈ listing.printed.map ListedPort.address)
    (stepped : listing.step sequencer = some next) :
    next.Passed address → address ∈ next.printed.map ListedPort.address := by
  have ⟨offer, found_offer, writable⟩ := offered
  have ⟨owner, owned, has_port⟩ := Option.bind_eq_some_iff.mp found_offer
  have client_there : (sequencer address.client).isSome = true := by rw [owned]; rfl
  have port_there : (sequencer.portsOf address.client address.port).isSome = true := by
    rw [found_offer]
    rfl
  rcases step_cases stepped with ⟨nClientID, client, stage, found, present, same⟩ |
    ⟨stage, ended, same⟩ | ⟨nClientID, nPort, port, stage, found, present, same⟩ |
    ⟨nClientID, stage, ended, same⟩
  · simp only [Passed, stage] at covers
    rw [same]
    rintro (below | ⟨_, impossible⟩)
    · apply covers
      by_contra ahead
      have first := nextNumber_first found (by omega) client_there
      omega
    · have early : (address.port.toNat : Int) ≤ -1 := impossible
      omega
  · simp only [Passed, stage] at covers
    rw [same]
    intro _
    exact covers (nextNumber_none ended client_there)
  · simp only [Passed, stage] at covers
    rw [same]
    intro passed
    simp only [Passed, stage] at passed
    rw [List.map_append]
    rcases passed with below | ⟨here, reached⟩
    · exact List.mem_append_left _ (covers (.inl below))
    · by_cases before : (address.port.toNat : Int) ≤ listing.port
      · exact List.mem_append_left _ (covers (.inr ⟨here, before⟩))
      · rw [here] at found_offer port_there
        have first := nextNumber_first found (by omega) port_there
        have one : nPort = address.port := by
          apply UInt8.toNat_inj.mp
          omega
        rw [one, found_offer] at present
        rw [← Option.some.inj present, writable, if_pos rfl, one, ← here]
        exact List.mem_append_right _ (List.mem_singleton.mpr rfl)
  · have ⟨client, _⟩ := inOrder.client nClientID stage
    simp only [Passed, stage] at covers
    rw [same]
    intro passed
    have within : (address.client.toNat : Int) ≤ listing.client := passed
    rw [client] at within
    by_cases here : address.client = nClientID
    · rw [← here] at ended
      exact covers (.inr ⟨here, nextNumber_none ended port_there⟩)
    · apply covers
      left
      have apart : address.client.toNat ≠ nClientID.toNat :=
        fun one => here (UInt8.toNat_inj.mp one)
      omega

/-- A bound of the queries that are left. -/
def queriesLeft (listing : PortListing) : Nat :=
  match listing.stage with
  | .clients => (255 - listing.client).toNat * 258 + 1
  | .ports _ => (255 - listing.client).toNat * 258 + (255 - listing.port).toNat + 2
  | .ended => 0

/-- A query is one less. -/
theorem step_queriesLeft (stepped : listing.step sequencer = some next) :
    1 + next.queriesLeft ≤ listing.queriesLeft := by
  rcases step_cases stepped with ⟨nClientID, client, stage, found, present, same⟩ |
    ⟨stage, ended, same⟩ | ⟨nClientID, nPort, port, stage, found, present, same⟩ |
    ⟨nClientID, stage, ended, same⟩
  · have beyond := (nextNumber_found found).1
    have small := nClientID.toNat_lt
    rw [same]
    simp only [queriesLeft, stage]
    omega
  · rw [same]
    simp only [queriesLeft, stage]
    omega
  · have beyond := (nextNumber_found found).1
    have small := nPort.toNat_lt
    rw [same]
    simp only [queriesLeft, stage]
    omega
  · rw [same]
    simp only [queriesLeft, stage]
    omega

end PortListing

/-- Blanks are white space. -/
theorem blanks_space {count : Nat} {byte : UInt8} (member : byte ∈ List.replicate count 32) :
    isSpace byte = true := by
  rw [(List.mem_replicate.mp member).2]
  decide

/-- A line is read back as the address it was printed for, whatever the names are. -/
theorem ListedPort.line_address (listed : ListedPort) :
    scanFormat (directives (ascii "%d:%d")) listed.line =
      [(listed.address.client.toNat : Int), (listed.address.port.toNat : Int)] := by
  let client : Int := listed.address.client.toNat
  let port : Int := listed.address.port.toNat
  let front := List.replicate (3 - (printInteger client).length) (32 : UInt8)
  let names := ascii "  " ++ padRight 32 (listed.clientName.take 32) ++ ascii " " ++
    listed.portName ++ ascii "\n"
  let behind := List.replicate (3 - (printInteger port).length) (32 : UInt8) ++ names
  have format : directives (ascii "%d:%d") = [.integer, .literal 58, .integer] := by decide
  have whole : listed.line =
      front ++ (printInteger client ++ (58 :: (printInteger port ++ behind))) := by
    simp [ListedPort.line, padLeft, padRight, front, behind, names, client, port, ascii]
  have parted : Undigited (58 :: (printInteger port ++ behind)) := by
    intro byte first
    rw [← Option.some.inj first]
    decide
  have ended : Undigited behind := by
    intro byte first
    have blank : byte = 32 := by
      cases count : 3 - (printInteger port).length with
      | zero =>
        simp only [behind, count, List.replicate_zero, List.nil_append] at first
        exact (Option.some.inj first).symm
      | succ more =>
        simp only [behind, count, List.replicate_succ] at first
        exact (Option.some.inj first).symm
    rw [blank]
    decide
  rw [format, whole]
  simp only [scanFormat]
  rw [scanInteger_blanks 10 _ (fun _ member => blanks_space member),
    scanInteger_print client (by simp; omega) parted]
  simp only [if_true]
  rw [scanInteger_print port (by simp) ended]

namespace PortListing

/-- What is kept of a port that is there all the time: the queries do not get behind it without
printing it. -/
def Covers (asked : List Sequencer) (address : SndSeqAddr) (listing : PortListing) : Prop :=
  listing.InOrder asked ∧
    (listing.Passed address → address ∈ listing.printed.map ListedPort.address)

/-- In the beginning the queries are in front of every port. -/
theorem start_covers (asked : List Sequencer) (address : SndSeqAddr) :
    start.Covers asked address := by
  refine ⟨start_inOrder asked, fun passed => ?_⟩
  have early : (address.client.toNat : Int) ≤ -1 := passed
  omega

/-- The list of ports: however clients and ports come and go between the queries, the addresses are
in order, so that none is listed twice; each line tells what the sequencer was asked for; once the
list has ended, every port that could be written to at every query is in it; it ends after a bounded
number of queries; and the address of each line is read back from its text. -/
theorem ports_listed (asked : List Sequencer) (final : PortListing)
    (listed : run step start asked = some final) :
    (final.printed.map ListedPort.address).Pairwise SndSeqAddr.Before ∧
      (∀ line ∈ final.printed, line.ReadsFrom asked) ∧
      (final.stage = .ended → ∀ address, (∀ sequencer ∈ asked, sequencer.Offers address) →
        address ∈ final.printed.map ListedPort.address) ∧
      asked.length ≤ 256 * 258 + 1 ∧
      ∀ line ∈ final.printed, scanFormat (directives (ascii "%d:%d")) line.line =
        [(line.address.client.toNat : Int), (line.address.port.toNat : Int)] := by
  have among : EachStep step (fun _ sequencer => sequencer ∈ asked ∧ True) start asked :=
    eachStep_and_mem (eachStep_of_forall (fun _ _ => trivial) start asked) fun _ member => member
  have inOrder : final.InOrder asked :=
    run_invariant (fun _ _ _ inOrder member stepped => step_inOrder inOrder member.1 stepped)
      (start_inOrder asked) among listed
  refine ⟨inOrder.ascending, inOrder.reads, fun ended address offered => ?_, ?_, fun line _ => ?_⟩
  · have covers : final.Covers asked address :=
      run_invariant (fun _ sequencer _ before member stepped =>
        ⟨step_inOrder before.1 member.1 stepped,
          step_covers before.1 (offered sequencer member.1) before.2 stepped⟩)
        (start_covers asked address) among listed
    apply covers.2
    simp only [Passed, ended]
  · have pays : ∀ (listing : PortListing) (sequencer : Sequencer) (next : PortListing), True →
        listing.step sequencer = some next →
        (if (true : Bool) then 1 else 0) + next.queriesLeft ≤ listing.queriesLeft :=
      fun _ _ _ _ stepped => step_queriesLeft stepped
    have counted := run_countP (fun _ _ _ _ _ => trivial) pays trivial listed
    have every : asked.countP (fun _ => true) = asked.length := by rw [List.countP_true]
    have initially : start.queriesLeft = 256 * 258 + 1 := by decide
    omega
  · exact line.line_address

/-- A client with one port that may be written to. -/
def through : SeqClient where
  name := ascii "Midi Through"
  ports number := if number = 0 then some ⟨2, 127, ascii "Midi Through Port-0"⟩ else none

/-- A sequencer with this client alone. -/
def quiet : Sequencer := fun number => if number = 14 then some through else none

/-- A sequencer with another client behind it. -/
def crowded : Sequencer := fun number =>
  if number = 20 then some ⟨ascii "keyboard", fun _ => none⟩ else quiet number

/-- The rule where a client goes away before it is asked for its ports. -/
theorem ports_listed_quiet :
    ∃ final, run step start [crowded, quiet, quiet, crowded, quiet, quiet] = some final ∧
      final.stage = .ended ∧ (⟨14, 0⟩ : SndSeqAddr) ∈ final.printed.map ListedPort.address := by
  let asked : List Sequencer := [crowded, quiet, quiet, crowded, quiet, quiet]
  have evaluated : (run step start asked).map PortListing.stage = some .ended := by decide +kernel
  have ⟨final, listed, ended⟩ := Option.map_eq_some_iff.mp evaluated
  have whole := (ports_listed asked final listed).2.2.1 ended ⟨14, 0⟩
  refine ⟨final, listed, ended, whole fun sequencer member => ?_⟩
  have either : sequencer = crowded ∨ sequencer = quiet := by
    simp only [asked, List.mem_cons, List.not_mem_nil, or_false] at member
    tauto
  refine ⟨⟨2, 127, ascii "Midi Through Port-0"⟩, ?_, by decide⟩
  rcases either with same | same
  · rw [same]
    rfl
  · rw [same]
    rfl

end PortListing

end MidiDaemon
