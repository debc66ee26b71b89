import MidiDaemon.Library.Framing
import MidiDaemon.Library.Heap
import MidiDaemon.Strings

/-!
# Lists of ports

`nParsePorts` copies a string, cuts the copy at its commas, and puts the address of each name
into an array that it resizes for every entry. The array belongs to the caller, through the
pointer `*pPorts`. The copy is freed on every way out and known to nobody else, so it is a value
here. `ParseOutcome` says what the calls that can fail make of a string, and `Parses` what each
outcome returns and leaves: when an address is refused, the array is freed and the pointer of the
caller still points to it.
-/

namespace MidiDaemon

open Framing Heap

/-- `snd_seq_addr_t`. -/
structure SndSeqAddr where
  /-- `client`. -/
  client : UInt8
  /-- `port`. -/
  port : UInt8
deriving DecidableEq, Repr

/-- The separator of port names, a comma. -/
def comma : UInt8 := 44

/-- The arrays of ports. A place that has not been written yet holds nothing. -/
abbrev PortHeap : Type := List (Option (List (Option SndSeqAddr)))

/-- What the calls return that one run of `nParsePorts` makes. -/
structure ParseCalls where
  /-- `strdup` returns a copy. -/
  strdup : Bool
  /-- `realloc` has room for this entry. -/
  realloc : Nat → Bool
  /-- `snd_seq_parse_address` for this entry finds an address of the name. -/
  address : Nat → List UInt8 → Option SndSeqAddr

/-- One round of the loop in `nParsePorts`, from `++nPortCount` on: whether the entry was filled,
the pointer `*pPorts`, and the arrays. -/
def parseEntry (calls : ParseCalls) (nEntry : Nat) (pPortName : List UInt8) (pPorts : Option Nat)
    (heap : PortHeap) : Except Fault (Bool × Option Nat × PortHeap) := do
  let (pPorts, heap) ← realloc heap pPorts (nEntry + 1) (calls.realloc nEntry)
  if pPorts = none then
    return (false, none, heap)
  match calls.address nEntry pPortName with
  | none => return (false, pPorts, ← free heap pPorts)
  | some address =>
    let ports ← load heap pPorts
    return (true, pPorts, ← store heap pPorts (ports.set nEntry (some address)))

/-- The loop in `nParsePorts`, from the place of a name in the copy on. -/
def nParsePortsLoop (calls : ParseCalls) (pBuffer : List UInt8) (pPortName nPortCount : Nat)
    (pPorts : Option Nat) (heap : PortHeap) : Except Fault (Int × Option Nat × PortHeap) :=
  match _ : strchr pBuffer pPortName comma with
  | some pStr =>
    let pBuffer := pBuffer.set pStr 0
    match parseEntry calls nPortCount (cString (pBuffer.drop pPortName)) pPorts heap with
    | .ok (true, pPorts, heap) =>
      nParsePortsLoop calls pBuffer (pStr + 1) (nPortCount + 1) pPorts heap
    | .ok (false, pPorts, heap) => .ok (-1, pPorts, heap)
    | .error fault => .error fault
  | none =>
    -- The last name ends at the terminator of the copy.
    match parseEntry calls nPortCount (cString (pBuffer.drop pPortName)) pPorts heap with
    | .ok (true, pPorts, heap) => .ok ((nPortCount + 1 : Nat), pPorts, heap)
    | .ok (false, pPorts, heap) => .ok (-1, pPorts, heap)
    | .error fault => .error fault
termination_by pBuffer.length - pPortName
decreasing_by
  have bounds := strchr_bounds (by assumption)
  rw [List.length_set]
  omega

/-- `nParsePorts`: its result, the pointer `*pPorts`, and the arrays. -/
def nParsePorts (calls : ParseCalls) (arg : List UInt8) (pPorts : Option Nat) (heap : PortHeap) :
    Except Fault (Int × Option Nat × PortHeap) :=
  if calls.strdup then nParsePortsLoop calls (cString arg ++ [0]) 0 0 pPorts heap
  else .ok (-1, pPorts, heap)

/-! ## Outcomes -/

/-- The names in a text: what stands between its commas. -/
def namesOf (text : List UInt8) : List (List UInt8) := lines comma text ++ [openLine comma text]

/-- What becomes of a string of port names. -/
inductive ParseOutcome where
  /-- It is not copied. -/
  | uncopied
  /-- There is no room for this entry. -/
  | ungranted (nEntry : Nat)
  /-- The name of this entry has no address. -/
  | unparsed (nEntry : Nat)
  /-- The addresses of all names. -/
  | parsed (ports : List SndSeqAddr)
deriving DecidableEq, Repr

/-- The outcome for names that follow ports found already. -/
def entriesOutcome (calls : ParseCalls) (ports : List SndSeqAddr) : List (List UInt8) → ParseOutcome
  | [] => .parsed ports
  | name :: names =>
    if calls.realloc ports.length then
      match calls.address ports.length name with
      | some address => entriesOutcome calls (ports ++ [address]) names
      | none => .unparsed ports.length
    else .ungranted ports.length

/-- The outcome for a string. -/
def parseOutcome (calls : ParseCalls) (arg : List UInt8) : ParseOutcome :=
  if calls.strdup then entriesOutcome calls [] (namesOf (cString arg)) else .uncopied

/-- What `nParsePorts` returns and leaves in `*pPorts` and among the arrays, for each outcome;
before the call `*pPorts` was `pPorts`, and the arrays of the frame are not touched. -/
inductive Parses (frame : Set Nat) (pPorts : Option Nat) :
    ParseOutcome → Int × Option Nat × PortHeap → Prop
  /-- Nothing has changed. -/
  | uncopied {heap : PortHeap} (owns : Owns heap frame pPorts) :
      Parses frame pPorts .uncopied (-1, pPorts, heap)
  /-- The array so far is lost, if there was one. -/
  | ungranted {nEntry : Nat} {heap : PortHeap} {lost : Option Nat} (owns : Owns heap frame lost)
      (nothing : lost = none ↔ nEntry = 0 ∧ pPorts = none) :
      Parses frame pPorts (.ungranted nEntry) (-1, none, heap)
  /-- The array is freed, and the pointer is not null. -/
  | unparsed {nEntry block : Nat} {heap : PortHeap} (owns : Owns heap frame none)
      (released : block ∉ frame) : Parses frame pPorts (.unparsed nEntry) (-1, some block, heap)
  /-- The pointer points to the array of the addresses. -/
  | parsed {ports : List SndSeqAddr} {block : Nat} {heap : PortHeap}
      (owns : Owns heap frame (some block)) (filled : ports ≠ [])
      (loaded : load heap (some block) = .ok (ports.map some)) :
      Parses frame pPorts (.parsed ports) (ports.length, some block, heap)

/-! ## Names -/

/-- A text without a comma is one name. -/
theorem namesOf_last {text : List UInt8} (unstopped : comma ∉ text) : namesOf text = [text] := by
  rw [namesOf, lines_open unstopped, openLine_open unstopped]
  rfl

/-- The first name ends at the first comma. -/
theorem namesOf_cons {name : List UInt8} (rest : List UInt8) (unstopped : comma ∉ name) :
    namesOf (name ++ comma :: rest) = name :: namesOf rest := by
  rw [namesOf, lines_stop rest unstopped, openLine_stop rest unstopped]
  rfl

/-! ## One entry -/

/-- The array of a pointer, which has no places when it is null. -/
def Holds (heap : PortHeap) (pPorts : Option Nat) (array : List (Option SndSeqAddr)) : Prop :=
  pPorts = none ∧ array = [] ∨ load heap pPorts = .ok array

variable {calls : ParseCalls} {frame : Set Nat} {pPorts : Option Nat} {heap : PortHeap}
  {ports : List SndSeqAddr} {array : List (Option SndSeqAddr)} {name : List UInt8}

/-- The pointer that is owned has an array. -/
theorem owned_holds (owns : Owns heap frame pPorts) : ∃ array, Holds heap pPorts array := by
  cases pPorts with
  | none => exact ⟨[], .inl ⟨rfl, rfl⟩⟩
  | some block =>
    obtain ⟨array, loaded⟩ := owns.readable
    exact ⟨array, .inr loaded⟩

/-- Without room for it, the entry is not filled and the pointer is lost. -/
theorem parseEntry_ungranted (owns : Owns heap frame pPorts) {nEntry : Nat}
    (ungranted : calls.realloc nEntry = false) :
    parseEntry calls nEntry name pPorts heap = .ok (false, none, heap) := by
  rw [parseEntry, ungranted, owns.realloc_refused]
  rfl

/-- An entry without an address frees the array and keeps the pointer to it. -/
theorem parseEntry_unparsed (owns : Owns heap frame pPorts) {nEntry : Nat}
    (granted : calls.realloc nEntry = true) (unparsed : calls.address nEntry name = none) :
    ∃ block after, parseEntry calls nEntry name pPorts heap = .ok (false, some block, after) ∧
      Owns after frame none ∧ block ∉ frame := by
  obtain ⟨array, holds⟩ := owned_holds owns
  obtain ⟨block, moved, resized, owned, -⟩ := owns.realloc_granted holds (nEntry + 1)
  obtain ⟨after, freed, left⟩ := owned.freed
  refine ⟨block, after, ?_, left, owned.apart block rfl⟩
  rw [parseEntry, granted, resized]
  simp [bind, Except.bind, pure, Except.pure, unparsed, freed]

/-- An entry is filled behind those in use. -/
theorem parseEntry_parsed (owns : Owns heap frame pPorts) (holds : Holds heap pPorts array)
    (used : array.take ports.length = ports.map some) {address : SndSeqAddr}
    (granted : calls.realloc ports.length = true)
    (parsed : calls.address ports.length name = some address) :
    ∃ block after, parseEntry calls ports.length name pPorts heap = .ok (true, some block, after) ∧
      Owns after frame (some block) ∧
        load after (some block) = .ok ((ports ++ [address]).map some) := by
  obtain ⟨block, moved, resized, owned, read⟩ := owns.realloc_granted holds (ports.length + 1)
  have front : array.take (ports.map some).length = ports.map some := by rwa [List.length_map]
  have entry := resized_set front (some address)
  rw [List.length_map] at entry
  have whole : ports.map some ++ [some address] = (ports ++ [address]).map some := by simp
  rw [whole] at entry
  obtain ⟨after, stored, kept, loaded⟩ := owned.written ((ports ++ [address]).map some)
  refine ⟨block, after, ?_, kept, loaded⟩
  rw [parseEntry, granted, resized]
  simp only [bind, Except.bind, pure, Except.pure, parsed, read, entry, stored,
    reduceCtorEq, if_false]

/-- An entry is not filled through a pointer to nothing. -/
theorem parseEntry_dead {block nEntry : Nat} (released : ¬ Live heap block) :
    parseEntry calls nEntry name (some block) heap = .error .dead := by
  rw [parseEntry, realloc_dead released]
  rfl

/-! ## The loop -/

/-- The loop at a name in front of a comma. -/
theorem nParsePortsLoop_found {pBuffer : List UInt8} {pPortName pStr : Nat}
    (found : strchr pBuffer pPortName comma = some pStr) (nPortCount : Nat) :
    nParsePortsLoop calls pBuffer pPortName nPortCount pPorts heap =
      match parseEntry calls nPortCount (cString ((pBuffer.set pStr 0).drop pPortName))
        pPorts heap with
      | .ok (true, pPorts, heap) =>
        nParsePortsLoop calls (pBuffer.set pStr 0) (pStr + 1) (nPortCount + 1) pPorts heap
      | .ok (false, pPorts, heap) => .ok (-1, pPorts, heap)
      | .error fault => .error fault := by
  rw [nParsePortsLoop]
  split
  · rename_i other same
    obtain rfl := Option.some.inj (found.symm.trans same)
    rfl
  · rename_i none_found
    cases found.symm.trans none_found

/-- The loop at the last name. -/
theorem nParsePortsLoop_unfound {pBuffer : List UInt8} {pPortName : Nat}
    (unfound : strchr pBuffer pPortName comma = none) (nPortCount : Nat) :
    nParsePortsLoop calls pBuffer pPortName nPortCount pPorts heap =
      match parseEntry calls nPortCount (cString (pBuffer.drop pPortName)) pPorts heap with
      | .ok (true, pPorts, heap) => .ok ((nPortCount + 1 : Nat), pPorts, heap)
      | .ok (false, pPorts, heap) => .ok (-1, pPorts, heap)
      | .error fault => .error fault := by
  rw [nParsePortsLoop]
  split
  · rename_i other found
    cases unfound.symm.trans found
  · rfl

/-- The last name is what is left of the text. -/
theorem nParsePortsLoop_last (front : List UInt8) {text : List UInt8} (unterminated : 0 ∉ text)
    (unstopped : comma ∉ text) (nPortCount : Nat) :
    nParsePortsLoop calls (front ++ (text ++ [0])) front.length nPortCount pPorts heap =
      match parseEntry calls nPortCount text pPorts heap with
      | .ok (true, pPorts, heap) => .ok ((nPortCount + 1 : Nat), pPorts, heap)
      | .ok (false, pPorts, heap) => .ok (-1, pPorts, heap)
      | .error fault => .error fault := by
  have left : cString ((front ++ (text ++ [0])).drop front.length) = text := by
    rw [List.drop_left, cString_text unterminated]
  have absent : strchr (front ++ (text ++ [0])) front.length comma = none :=
    strchr_none (by rwa [left])
  rw [nParsePortsLoop_unfound absent, left]

/-- A name in front of a comma is cut off, and the loop goes on behind it. -/
theorem nParsePortsLoop_cons (front : List UInt8) {name rest : List UInt8}
    (unterminated : 0 ∉ name ++ comma :: rest) (unstopped : comma ∉ name) (nPortCount : Nat) :
    nParsePortsLoop calls (front ++ (name ++ comma :: rest ++ [0])) front.length nPortCount pPorts
        heap =
      match parseEntry calls nPortCount name pPorts heap with
      | .ok (true, pPorts, heap) => nParsePortsLoop calls (front ++ name ++ [0] ++ (rest ++ [0]))
          (front ++ name ++ [0]).length (nPortCount + 1) pPorts heap
      | .ok (false, pPorts, heap) => .ok (-1, pPorts, heap)
      | .error fault => .error fault := by
  have left : cString ((front ++ (name ++ comma :: rest ++ [0])).drop front.length) =
      name ++ comma :: rest := by
    rw [List.drop_left, cString_text unterminated]
  have present := strchr_found left unstopped
  have cut : (front ++ (name ++ comma :: rest ++ [0])).set (front.length + name.length) 0 =
      front ++ name ++ [0] ++ (rest ++ [0]) := by
    simp
  have first : cString ((front ++ name ++ [0] ++ (rest ++ [0])).drop front.length) = name := by
    have unended : 0 ∉ name := fun member => unterminated (List.mem_append_left _ member)
    rw [List.append_assoc, List.append_assoc, List.drop_left]
    exact cString_text unended _
  have behind : front.length + name.length + 1 = (front ++ name ++ [0]).length := by
    simp [Nat.add_assoc]
  rw [nParsePortsLoop_found present]
  simp only [cut, first, behind]

/-- What the loop makes of a text: with the entries in use so far it goes on to the outcome for
the names of the text, and leaves what belongs to that outcome. -/
theorem nParsePortsLoop_parses {start : Option Nat} {text : List UInt8} (unterminated : 0 ∉ text)
    (front : List UInt8) (owns : Owns heap frame pPorts) (holds : Holds heap pPorts array)
    (used : array.take ports.length = ports.map some)
    (begun : pPorts = none ↔ ports.length = 0 ∧ start = none) :
    ∃ result, nParsePortsLoop calls (front ++ (text ++ [0])) front.length ports.length pPorts heap =
        .ok result ∧
      Parses frame start (entriesOutcome calls ports (namesOf text)) result := by
  induction text using line_induction comma generalizing front ports pPorts heap array with
  | tail text unstopped =>
    rw [nParsePortsLoop_last front unterminated unstopped, namesOf_last unstopped, entriesOutcome]
    cases granted : calls.realloc ports.length with
    | false =>
      rw [parseEntry_ungranted owns granted]
      exact ⟨_, rfl, .ungranted owns begun⟩
    | true =>
      cases found : calls.address ports.length text with
      | none =>
        obtain ⟨block, after, freed, left, released⟩ := parseEntry_unparsed owns granted found
        rw [freed]
        exact ⟨_, rfl, .unparsed left released⟩
      | some address =>
        obtain ⟨block, after, filled, owned, loaded⟩ :=
          parseEntry_parsed owns holds used granted found
        have one_more : ports.length + 1 = (ports ++ [address]).length := by simp
        rw [filled, if_pos rfl, one_more]
        exact ⟨_, rfl, .parsed owned (by simp) loaded⟩
  | line name rest unstopped ih =>
    rw [nParsePortsLoop_cons front unterminated unstopped, namesOf_cons rest unstopped,
      entriesOutcome]
    cases granted : calls.realloc ports.length with
    | false =>
      rw [parseEntry_ungranted owns granted]
      exact ⟨_, rfl, .ungranted owns begun⟩
    | true =>
      cases found : calls.address ports.length name with
      | none =>
        obtain ⟨block, after, freed, left, released⟩ := parseEntry_unparsed owns granted found
        rw [freed]
        exact ⟨_, rfl, .unparsed left released⟩
      | some address =>
        obtain ⟨block, after, filled, owned, loaded⟩ :=
          parseEntry_parsed owns holds used granted found
        have one_more : ports.length + 1 = (ports ++ [address]).length := by simp
        have unended : 0 ∉ rest := fun member =>
          unterminated (List.mem_append_right _ (.tail _ member))
        have whole : ((ports ++ [address]).map some).take (ports ++ [address]).length =
            (ports ++ [address]).map some := List.take_of_length_le (by simp)
        have later := ih unended (front ++ name ++ [0]) owned (.inr loaded) whole (by simp)
        rw [filled, if_pos rfl, one_more]
        exact later

/-- What `nParsePorts` does with a pointer that is null or owns its array. -/
theorem nParsePorts_parses (calls : ParseCalls) (arg : List UInt8) (owns : Owns heap frame pPorts) :
    ∃ result, nParsePorts calls arg pPorts heap = .ok result ∧
      Parses frame pPorts (parseOutcome calls arg) result := by
  rw [nParsePorts, parseOutcome]
  cases calls.strdup with
  | false => exact ⟨_, rfl, .uncopied owns⟩
  | true =>
    obtain ⟨array, holds⟩ := owned_holds owns
    have none_used : array.take ([] : List SndSeqAddr).length =
      ([] : List SndSeqAddr).map some := rfl
    exact nParsePortsLoop_parses (cString_unterminated arg) [] owns holds none_used (by simp)

/-- A count is returned only when all names were parsed. -/
theorem Parses.counted {outcome : ParseOutcome} {result : Int × Option Nat × PortHeap}
    (parses : Parses frame pPorts outcome result) (enough : 1 ≤ result.1) :
    ∃ ports, outcome = .parsed ports := by
  cases parses with
  | @parsed ports => exact ⟨ports, rfl⟩
  | uncopied | ungranted | unparsed => exact absurd enough (show ¬ (1 : Int) ≤ -1 by decide)

/-- Then it is that of the ports, and the array is theirs. -/
theorem Parses.filled {result : Int × Option Nat × PortHeap}
    (parses : Parses frame pPorts (.parsed ports) result) :
    ports ≠ [] ∧ load result.2.2 result.2.1 = .ok (ports.map some) ∧ result.1 = ports.length := by
  cases parses with
  | parsed owns filled loaded => exact ⟨filled, loaded, rfl⟩

/-- A pointer to nothing is passed to `realloc` as soon as the string is copied. -/
theorem nParsePorts_dead {block : Nat} (copied : calls.strdup = true) (arg : List UInt8)
    (released : ¬ Live heap block) : nParsePorts calls arg (some block) heap = .error .dead := by
  have unterminated := cString_unterminated arg
  rw [nParsePorts, if_pos copied]
  by_cases stopped : comma ∈ cString arg
  · obtain ⟨name, rest, text, unstopped⟩ := List.eq_append_cons_of_mem stopped
    rw [text] at unterminated ⊢
    refine (nParsePortsLoop_cons [] unterminated unstopped 0).trans ?_
    rw [parseEntry_dead released]
  · refine (nParsePortsLoop_last [] unterminated stopped 0).trans ?_
    rw [parseEntry_dead released]

/-! ## The list of ports -/

/-- The addresses of the names in a string, if all of them have one. -/
def portList (find : List UInt8 → Option SndSeqAddr) (arg : List UInt8) :
    Option (List SndSeqAddr) :=
  (namesOf (cString arg)).mapM find

/-- The entries behind those found already are the addresses of the names. -/
theorem entriesOutcome_parsed {find : List UInt8 → Option SndSeqAddr}
    (finds : ∀ nEntry name, calls.address nEntry name = find name) {names : List (List UInt8)}
    {all : List SndSeqAddr} (parsed : entriesOutcome calls ports names = .parsed all) :
    ∃ more, names.mapM find = some more ∧ all = ports ++ more := by
  induction names generalizing ports with
  | nil => exact ⟨[], rfl, by rw [List.append_nil, ParseOutcome.parsed.inj parsed]⟩
  | cons name names ih =>
    rw [entriesOutcome, finds] at parsed
    split at parsed
    · cases found : find name with
      | none =>
        rw [found] at parsed
        cases parsed
      | some address =>
        rw [found] at parsed
        obtain ⟨more, rest, rfl⟩ := ih parsed
        refine ⟨address :: more, ?_, by rw [List.append_assoc, List.singleton_append]⟩
        rw [List.mapM_cons, found, rest]
        rfl
    · cases parsed

/-- What is parsed is the list of ports that the string names. -/
theorem parseOutcome_parsed {find : List UInt8 → Option SndSeqAddr}
    (finds : ∀ nEntry name, calls.address nEntry name = find name) {arg : List UInt8}
    {all : List SndSeqAddr} (parsed : parseOutcome calls arg = .parsed all) :
    portList find arg = some all := by
  unfold parseOutcome at parsed
  split at parsed
  · obtain ⟨more, list, rfl⟩ := entriesOutcome_parsed finds parsed
    exact list
  · cases parsed

/-- A count that `nParsePorts` returns is that of the ports the string names, and they are in the
array. -/
theorem nParsePorts_ports {find : List UInt8 → Option SndSeqAddr}
    (finds : ∀ nEntry name, calls.address nEntry name = find name) {arg : List UInt8}
    (owns : Owns heap frame pPorts) {nPortCount : Int} {after : Option Nat} {arrays : PortHeap}
    (returned : nParsePorts calls arg pPorts heap = .ok (nPortCount, after, arrays))
    (enough : 1 ≤ nPortCount) :
    ∃ ports, portList find arg = some ports ∧ load arrays after = .ok (ports.map some) ∧
      nPortCount = ports.length := by
  obtain ⟨result, parsed, leaves⟩ := nParsePorts_parses calls arg owns
  rw [returned] at parsed
  obtain rfl := Except.ok.inj parsed
  obtain ⟨ports, outcome⟩ := leaves.counted enough
  rw [outcome] at leaves
  obtain ⟨-, loaded, count⟩ := leaves.filled
  exact ⟨ports, parseOutcome_parsed finds outcome, loaded, count⟩

/-! ## Connecting -/

/-- The loop in `nConnectPorts`, with this many ports left: its result, and the ports that were
connected. `connectTo` says whether `snd_seq_connect_to` succeeds for an entry. -/
def connectFrom (connectTo : Nat → Bool) (pPorts : Option Nat) (heap : PortHeap) (i : Nat) :
    Nat → Except Fault (Int × List SndSeqAddr)
  | 0 => .ok (0, [])
  | left + 1 => do
    let address ← readPlace heap pPorts i
    if connectTo i then
      let (nRc, connected) ← connectFrom connectTo pPorts heap (i + 1) left
      return (nRc, address :: connected)
    else return (-1, [])

/-- `nConnectPorts`: its result, and the ports that were connected. -/
def nConnectPorts (connectTo : Nat → Bool) (nPortCount : Int) (pPorts : Option Nat)
    (heap : PortHeap) : Except Fault (Int × List SndSeqAddr) :=
  connectFrom connectTo pPorts heap 0 nPortCount.toNat

/-- From an entry on, the ports of a full array are connected, all of them unless one fails. -/
theorem connectFrom_full {connectTo : Nat → Bool}
    (loaded : load heap pPorts = .ok (ports.map some)) (i left : Nat)
    (whole : i + left = ports.length) :
    ∃ nRc connected, connectFrom connectTo pPorts heap i left = .ok (nRc, connected) ∧
      connected <+: ports.drop i ∧ (0 ≤ nRc → connected = ports.drop i) := by
  induction left generalizing i with
  | zero =>
    have behind : ports.drop i = [] := List.drop_of_length_le (by omega)
    exact ⟨0, [], rfl, List.nil_prefix, fun _ => behind.symm⟩
  | succ left ih =>
    have inside : i < ports.length := by omega
    rw [connectFrom, readPlace_full loaded inside, List.drop_eq_getElem_cons inside]
    cases succeeds : connectTo i with
    | false => exact ⟨-1, [], rfl, List.nil_prefix, fun success => absurd success (by decide)⟩
    | true =>
      obtain ⟨nRc, connected, later, begins, complete⟩ := ih (i + 1) (by omega)
      refine ⟨nRc, ports[i] :: connected, ?_, (List.prefix_cons_inj _).mpr begins,
        fun success => ?_⟩
      · simp only [bind, Except.bind, pure, Except.pure, later, if_true]
      · rw [complete success]

/-- Connecting from a port on succeeds exactly when every call does. -/
theorem connectFrom_result {connectTo : Nat → Bool} {pPorts : Option Nat} {heap : PortHeap}
    {i left : Nat} {nRc : Int} {connected : List SndSeqAddr}
    (connects : connectFrom connectTo pPorts heap i left = .ok (nRc, connected)) :
    0 ≤ nRc ↔ ∀ entry, i ≤ entry → entry < i + left → connectTo entry = true := by
  induction left generalizing i connected with
  | zero =>
    obtain ⟨rfl, -⟩ := Prod.mk.inj (Except.ok.inj connects)
    exact ⟨fun _ entry from_here before => by omega, fun _ => Int.le_refl 0⟩
  | succ left ih =>
    rw [connectFrom] at connects
    cases place : readPlace heap pPorts i with
    | error fault =>
      rw [place] at connects
      cases connects
    | ok address =>
      rw [place] at connects
      cases succeeds : connectTo i with
      | false =>
        simp only [succeeds, bind, Except.bind, pure, Except.pure] at connects
        obtain ⟨rfl, -⟩ := Prod.mk.inj (Except.ok.inj connects)
        refine ⟨fun success => absurd success (by decide), fun every => ?_⟩
        have here := every i (Nat.le_refl i) (by omega)
        rw [succeeds] at here
        cases here
      | true =>
        simp only [succeeds, bind, Except.bind, pure, Except.pure, if_true] at connects
        cases later : connectFrom connectTo pPorts heap (i + 1) left with
        | error fault =>
          rw [later] at connects
          cases connects
        | ok result =>
          rw [later] at connects
          obtain ⟨rfl, -⟩ := Prod.mk.inj (Except.ok.inj connects)
          rw [ih later]
          constructor
          · intro every entry from_here before
            rcases Nat.lt_or_eq_of_le from_here with behind | rfl
            · exact every entry behind (by omega)
            · exact succeeds
          · intro every entry from_here before
            exact every entry (by omega) (by omega)

/-- The ports of a full array are connected, all of them unless one fails. -/
theorem nConnectPorts_full (connectTo : Nat → Bool)
    (loaded : load heap pPorts = .ok (ports.map some)) :
    ∃ nRc connected, nConnectPorts connectTo ports.length pPorts heap = .ok (nRc, connected) ∧
      connected <+: ports ∧ (0 ≤ nRc → connected = ports) :=
  connectFrom_full loaded 0 ports.length (Nat.zero_add _)

end MidiDaemon
