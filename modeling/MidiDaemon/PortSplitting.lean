import MidiDaemon.PortParsing

/-!
# Splitting at commas

`nParsePorts` is given the place of a string. It copies the string, writes terminators over the
commas of the copy, and frees the copy on every way out; the string itself stays as it is. That is
`nParsePortsInMemory`, of which `nParsePorts` is what happens to the ports
(`nParsePortsInMemory_eq`). The counter has 32 bits, which the commas of an argument of a process do
not exceed.

When no allocation fails, the result is that of splitting at commas, with one name more than there
are commas, and it does not matter what the pointer of the caller had before (`nParsePorts_splits`).
-/

namespace MidiDaemon

open Framing Heap

/-- The arrays of characters. -/
abbrev StringHeap : Type := List (Option (List UInt8))

/-- The size of an array, which is none when it is not live. -/
def sizeOfString (strings : StringHeap) (pBuffer : Nat) : Nat :=
  match load strings (some pBuffer) with
  | .ok array => array.length
  | .error _ => 0

/-- Storing an array of the same size keeps the size. -/
theorem sizeOfString_set {strings : StringHeap} {pBuffer : Nat} {array : List UInt8}
    (loaded : load strings (some pBuffer) = .ok array) (place : Nat) (byte : UInt8) :
    sizeOfString (strings.set pBuffer (some (array.set place byte))) pBuffer = array.length := by
  have live : Live strings pBuffer := load_ok_iff.mp ⟨array, loaded⟩
  rw [sizeOfString, load_set live]
  exact List.length_set

/-- The loop in `nParsePorts` on a copy in memory, from the place of a name on: its result, the
pointer `*pPorts`, and both kinds of arrays. -/
def nParsePortsLoopInMemory (calls : ParseCalls) (pBuffer pPortName nPortCount : Nat)
    (pPorts : Option Nat) (strings : StringHeap) (heap : PortHeap) :
    Except Fault (Int × Option Nat × StringHeap × PortHeap) :=
  match _ : load strings (some pBuffer) with
  | .error fault => .error fault
  | .ok array =>
    match _ : strchr array pPortName comma with
    | some pStr =>
      let terminated := array.set pStr 0
      let strings := strings.set pBuffer (some terminated)
      match parseEntry calls nPortCount (cString (terminated.drop pPortName)) pPorts heap with
      | .ok (true, pPorts, heap) =>
        nParsePortsLoopInMemory calls pBuffer (pStr + 1) (nPortCount + 1) pPorts strings heap
      | .ok (false, pPorts, heap) =>
        (free strings (some pBuffer)).map fun strings => (-1, pPorts, strings, heap)
      | .error fault => .error fault
    | none =>
      match parseEntry calls nPortCount (cString (array.drop pPortName)) pPorts heap with
      | .ok (true, pPorts, heap) =>
        (free strings (some pBuffer)).map fun strings =>
          ((nPortCount + 1 : Nat), pPorts, strings, heap)
      | .ok (false, pPorts, heap) =>
        (free strings (some pBuffer)).map fun strings => (-1, pPorts, strings, heap)
      | .error fault => .error fault
termination_by sizeOfString strings pBuffer - pPortName
decreasing_by
  rename_i loaded found
  have bounds := strchr_bounds found
  rw [sizeOfString_set loaded, sizeOfString, loaded]
  dsimp only
  omega

/-- `nParsePorts` with its string in memory. -/
def nParsePortsInMemory (calls : ParseCalls) (arg : Nat) (pPorts : Option Nat)
    (strings : StringHeap) (heap : PortHeap) :
    Except Fault (Int × Option Nat × StringHeap × PortHeap) :=
  match load strings (some arg) with
  | .error fault => .error fault
  | .ok text =>
    if calls.strdup then
      nParsePortsLoopInMemory calls strings.length 0 0 pPorts (alloc strings (cString text ++ [0]))
        heap
    else .ok (-1, pPorts, strings, heap)

/-! ## The copy -/

variable {calls : ParseCalls} {pPorts : Option Nat} {heap : PortHeap}

/-- The copy is freed, and the other strings are as they were. -/
theorem free_copy (strings : StringHeap) (pBuffer : List UInt8) :
    free (alloc strings pBuffer) (some strings.length) = .ok (strings ++ [none]) := by
  rw [free, load_alloc]
  exact congrArg Except.ok (alloc_set strings pBuffer none)

/-- The loop on the copy at a name in front of a comma. -/
theorem nParsePortsLoopInMemory_found (strings : StringHeap) {pBuffer : List UInt8}
    {pPortName pStr : Nat} (found : strchr pBuffer pPortName comma = some pStr) (nPortCount : Nat) :
    nParsePortsLoopInMemory calls strings.length pPortName nPortCount pPorts
        (alloc strings pBuffer) heap =
      match parseEntry calls nPortCount (cString ((pBuffer.set pStr 0).drop pPortName))
        pPorts heap with
      | .ok (true, pPorts, heap) => nParsePortsLoopInMemory calls strings.length (pStr + 1)
          (nPortCount + 1) pPorts (alloc strings (pBuffer.set pStr 0)) heap
      | .ok (false, pPorts, heap) => .ok (-1, pPorts, strings ++ [none], heap)
      | .error fault => .error fault := by
  have written : (alloc strings pBuffer).set strings.length (some (pBuffer.set pStr 0)) =
      alloc strings (pBuffer.set pStr 0) := alloc_set strings pBuffer _
  rw [nParsePortsLoopInMemory]
  split
  · rename_i fault unloaded
    cases load_alloc.symm.trans unloaded
  · rename_i array loaded
    obtain rfl := Except.ok.inj (load_alloc.symm.trans loaded)
    split
    · rename_i other same
      obtain rfl := Option.some.inj (found.symm.trans same)
      simp only [written, free_copy]
      rfl
    · rename_i none_found
      cases found.symm.trans none_found

/-- The loop on the copy at the last name. -/
theorem nParsePortsLoopInMemory_unfound (strings : StringHeap) {pBuffer : List UInt8}
    {pPortName : Nat} (unfound : strchr pBuffer pPortName comma = none) (nPortCount : Nat) :
    nParsePortsLoopInMemory calls strings.length pPortName nPortCount pPorts
        (alloc strings pBuffer) heap =
      match parseEntry calls nPortCount (cString (pBuffer.drop pPortName)) pPorts heap with
      | .ok (true, pPorts, heap) => .ok ((nPortCount + 1 : Nat), pPorts, strings ++ [none], heap)
      | .ok (false, pPorts, heap) => .ok (-1, pPorts, strings ++ [none], heap)
      | .error fault => .error fault := by
  rw [nParsePortsLoopInMemory]
  split
  · rename_i fault unloaded
    cases load_alloc.symm.trans unloaded
  · rename_i array loaded
    obtain rfl := Except.ok.inj (load_alloc.symm.trans loaded)
    split
    · rename_i other found
      cases unfound.symm.trans found
    · simp only [free_copy]
      rfl

/-- The loop works on its copy alone, and frees it: what happens to the ports is what the loop on
the copy as a value makes of them. -/
theorem nParsePortsLoopInMemory_eq (strings : StringHeap) (pBuffer : List UInt8)
    (pPortName nPortCount : Nat) :
    nParsePortsLoopInMemory calls strings.length pPortName nPortCount pPorts
        (alloc strings pBuffer) heap =
      (nParsePortsLoop calls pBuffer pPortName nPortCount pPorts heap).map
        fun (nPortCount, pPorts, heap) => (nPortCount, pPorts, strings ++ [none], heap) := by
  induction pBuffer, pPortName, nPortCount, pPorts, heap using nParsePortsLoop.induct calls with
  | case1 pBuffer pPortName nPortCount pPorts heap pStr found terminated after arrays entered ih =>
    rw [nParsePortsLoopInMemory_found strings found, nParsePortsLoop_found found, entered]
    exact ih
  | case2 pBuffer pPortName nPortCount pPorts heap pStr found terminated after arrays entered =>
    rw [nParsePortsLoopInMemory_found strings found, nParsePortsLoop_found found, entered]
    rfl
  | case3 pBuffer pPortName nPortCount pPorts heap pStr found terminated fault entered =>
    rw [nParsePortsLoopInMemory_found strings found, nParsePortsLoop_found found, entered]
    rfl
  | case4 pBuffer pPortName nPortCount pPorts heap unfound after arrays entered =>
    rw [nParsePortsLoopInMemory_unfound strings unfound, nParsePortsLoop_unfound unfound, entered]
    rfl
  | case5 pBuffer pPortName nPortCount pPorts heap unfound after arrays entered =>
    rw [nParsePortsLoopInMemory_unfound strings unfound, nParsePortsLoop_unfound unfound, entered]
    rfl
  | case6 pBuffer pPortName nPortCount pPorts heap unfound fault entered =>
    rw [nParsePortsLoopInMemory_unfound strings unfound, nParsePortsLoop_unfound unfound, entered]
    rfl

/-- The string is not modified, and the copy is freed: in memory, `nParsePorts` does to the ports
what it does to them with the string as a value, and leaves the strings as they were. -/
theorem nParsePortsInMemory_eq {strings : StringHeap} {arg : Nat} {text : List UInt8}
    (given : load strings (some arg) = .ok text) :
    nParsePortsInMemory calls arg pPorts strings heap = (nParsePorts calls text pPorts heap).map
      fun (nPortCount, pPorts, heap) =>
        (nPortCount, pPorts, if calls.strdup then strings ++ [none] else strings, heap) := by
  rw [nParsePortsInMemory, given, nParsePorts]
  cases calls.strdup with
  | false => rfl
  | true => exact nParsePortsLoopInMemory_eq strings (cString text ++ [0]) 0 0

/-! ## The names -/

/-- The names are the pieces between the commas. -/
theorem namesOf_eq_splitOn (text : List UInt8) : namesOf text = text.splitOn comma := by
  induction text using line_induction comma with
  | tail text unstopped => rw [namesOf_last unstopped, List.splitOn_eq_singleton unstopped]
  | line name rest unstopped ih =>
    rw [namesOf_cons rest unstopped, ih, List.splitOn_append_cons_self_of_not_mem unstopped]

/-- There is one more of them than there are commas. -/
theorem splitOn_length (text : List UInt8) :
    (text.splitOn comma).length = text.count comma + 1 := by
  induction text using line_induction comma with
  | tail text unstopped =>
    rw [List.splitOn_eq_singleton unstopped, List.count_eq_zero.mpr unstopped]
    rfl
  | line name rest unstopped ih =>
    rw [List.splitOn_append_cons_self_of_not_mem unstopped, List.length_cons, ih,
      List.count_append, List.count_eq_zero.mpr unstopped, List.count_cons_self, Nat.zero_add]

variable {find : List UInt8 → Option SndSeqAddr}

/-- The calls when no allocation fails and names have these addresses. -/
def granting (find : List UInt8 → Option SndSeqAddr) : ParseCalls :=
  ⟨true, fun _ => true, fun _ => find⟩

/-- Names that all have an address have a list of addresses. -/
theorem addresses_of_all {names : List (List UInt8)} (all : ∀ name ∈ names, (find name).isSome) :
    ∃ addresses : List SndSeqAddr, names.map find = addresses.map some := by
  induction names with
  | nil => exact ⟨[], rfl⟩
  | cons name names ih =>
    obtain ⟨address, found⟩ := Option.isSome_iff_exists.mp (all name List.mem_cons_self)
    obtain ⟨addresses, rest⟩ := ih fun other member => all other (.tail _ member)
    exact ⟨address :: addresses, by rw [List.map_cons, List.map_cons, found, rest]⟩

/-- They are what is parsed. -/
theorem entriesOutcome_all {names : List (List UInt8)} {addresses : List SndSeqAddr}
    (all : names.map find = addresses.map some) (ports : List SndSeqAddr) :
    entriesOutcome (granting find) ports names = .parsed (ports ++ addresses) := by
  induction names generalizing ports addresses with
  | nil =>
    obtain rfl : addresses = [] := List.map_eq_nil_iff.mp all.symm
    rw [List.append_nil]
    rfl
  | cons name names ih =>
    cases addresses with
    | nil => cases all
    | cons address addresses =>
      obtain ⟨found, rest⟩ := List.cons.inj all
      have granted : (granting find).realloc ports.length = true := rfl
      have parsed : (granting find).address ports.length name = some address := found
      rw [entriesOutcome, if_pos granted, parsed]
      dsimp only
      rw [ih rest, List.append_assoc, List.singleton_append]

/-- A name without an address is refused. -/
theorem entriesOutcome_some {names : List (List UInt8)}
    (unparsed : ∃ name ∈ names, find name = none) (ports : List SndSeqAddr) :
    ∃ nEntry, entriesOutcome (granting find) ports names = .unparsed nEntry := by
  induction names generalizing ports with
  | nil =>
    obtain ⟨name, member, -⟩ := unparsed
    exact absurd member List.not_mem_nil
  | cons name names ih =>
    have granted : (granting find).realloc ports.length = true := rfl
    have asked : (granting find).address ports.length name = find name := rfl
    rw [entriesOutcome, if_pos granted, asked]
    cases found : find name with
    | none => exact ⟨ports.length, rfl⟩
    | some address =>
      apply ih
      obtain ⟨other, member, missing⟩ := unparsed
      rcases List.mem_cons.mp member with rfl | later
      · cases found.symm.trans missing
      · exact ⟨other, later, missing⟩

/-- What splitting a text at its commas comes to: the count, and the array of the caller. -/
def splitResult (find : List UInt8 → Option SndSeqAddr) (text : List UInt8) :
    Int × Except Fault (List (Option SndSeqAddr)) :=
  if ∀ name ∈ text.splitOn comma, (find name).isSome then
    ((text.splitOn comma).length, .ok ((text.splitOn comma).map find))
  else (-1, .error .dead)

/-- When no allocation fails, the count and the array are those of splitting at commas. -/
theorem nParsePorts_splitResult {frame : Set Nat} (owns : Owns heap frame pPorts)
    (find : List UInt8 → Option SndSeqAddr) (text : List UInt8) :
    ∃ after arrays, nParsePorts (granting find) text pPorts heap =
        .ok ((splitResult find (cString text)).1, after, arrays) ∧
      load arrays after = (splitResult find (cString text)).2 := by
  obtain ⟨result, parsed, leaves⟩ := nParsePorts_parses (granting find) text owns
  have outcome : parseOutcome (granting find) text =
      entriesOutcome (granting find) [] ((cString text).splitOn comma) := by
    rw [← namesOf_eq_splitOn]
    rfl
  rw [outcome] at leaves
  by_cases all : ∀ name ∈ (cString text).splitOn comma, (find name).isSome
  · obtain ⟨addresses, found⟩ := addresses_of_all all
    have count : addresses.length = ((cString text).splitOn comma).length := by
      have lengths := congrArg List.length found
      rw [List.length_map, List.length_map] at lengths
      exact lengths.symm
    rw [entriesOutcome_all found, List.nil_append] at leaves
    rw [splitResult, if_pos all, found, ← count]
    cases leaves with
    | parsed owns filled loaded => exact ⟨_, _, parsed, loaded⟩
  · have unparsed : ∃ name ∈ (cString text).splitOn comma, find name = none := by
      simpa using all
    obtain ⟨nEntry, refused⟩ := entriesOutcome_some unparsed []
    rw [refused] at leaves
    rw [splitResult, if_neg all]
    cases leaves with
    | unparsed owns released =>
      exact ⟨_, _, parsed, load_dead (owns.dead released (by simp))⟩

/-- The count and the array of a caller are those of splitting a text at its commas. -/
structure SplitsAtCommas (find : List UInt8 → Option SndSeqAddr) (text : List UInt8)
    (nPortCount : Int) (pPorts : Option Nat) (heap : PortHeap) : Prop where
  /-- When all pieces have an address, there is one more than commas, and each is in its place. -/
  all : (∀ name ∈ text.splitOn comma, (find name).isSome) → nPortCount = 1 + text.count comma ∧
    ∀ place name, (text.splitOn comma)[place]? = some name →
      ∃ address, find name = some address ∧ readPlace heap pPorts place = .ok address
  /-- Otherwise the list is refused. -/
  refused : nPortCount = -1 ↔ ∃ name ∈ text.splitOn comma, find name = none

/-- The result of splitting is that of splitting at commas. -/
theorem splitsAtCommas {text : List UInt8}
    (loaded : load heap pPorts = (splitResult find text).2) :
    SplitsAtCommas find text (splitResult find text).1 pPorts heap := by
  by_cases all : ∀ name ∈ text.splitOn comma, (find name).isSome
  · rw [splitResult, if_pos all] at loaded ⊢
    constructor
    · intro _
      constructor
      · dsimp only
        rw [splitOn_length]
        omega
      · intro place name found
        have member := List.mem_of_getElem? found
        obtain ⟨address, parsed⟩ := Option.isSome_iff_exists.mp (all name member)
        refine ⟨address, parsed, ?_⟩
        rw [readPlace, loaded]
        simp only [List.getElem?_map, found, Option.map_some, parsed]
    · constructor
      · intro negative
        have positive : (0 : Int) ≤ (text.splitOn comma).length := Int.natCast_nonneg _
        dsimp only at negative
        omega
      · rintro ⟨name, member, missing⟩
        have found := all name member
        rw [missing] at found
        cases found
  · have unparsed : ∃ name ∈ text.splitOn comma, find name = none := by simpa using all
    rw [splitResult, if_neg all]
    exact ⟨fun every => absurd every all, fun _ => unparsed, fun _ => rfl⟩

/-- `nParsePorts` splits at commas. For every string in memory, every pointer of the caller that
is null or to a live array, and any addresses of names, when no allocation fails: it comes to an
end, its copy is freed and its string unchanged, and the count and the ports are those of the pieces
between the commas, whatever the pointer and the arrays were before. -/
theorem nParsePorts_splits (find : List UInt8 → Option SndSeqAddr) (strings : StringHeap)
    (arg : Nat) (text : List UInt8) (given : load strings (some arg) = .ok text)
    (pPorts : Option Nat) (heap : PortHeap)
    (live : ∀ block, pPorts = some block → Live heap block) :
    ∃ nPortCount after arrays,
      nParsePortsInMemory (granting find) arg pPorts strings heap =
        .ok (nPortCount, after, strings ++ [none], arrays) ∧
      load (strings ++ [none]) (some arg) = .ok text ∧
      SplitsAtCommas find (cString text) nPortCount after arrays ∧
      ∀ (otherPorts : Option Nat) (otherHeap : PortHeap),
        (∀ block, otherPorts = some block → Live otherHeap block) →
        ∃ otherAfter otherArrays,
          nParsePortsInMemory (granting find) arg otherPorts strings otherHeap =
            .ok (nPortCount, otherAfter, strings ++ [none], otherArrays) ∧
          ∀ place, readPlace otherArrays otherAfter place = readPlace arrays after place := by
  obtain ⟨after, arrays, parsed, loaded⟩ := nParsePorts_splitResult (owns_live live) find text
  refine ⟨(splitResult find (cString text)).1, after, arrays, ?_, load_append given _,
    splitsAtCommas loaded, ?_⟩
  · rw [nParsePortsInMemory_eq given, parsed]
    rfl
  · intro otherPorts otherHeap otherLive
    obtain ⟨otherAfter, otherArrays, otherParsed, otherLoaded⟩ :=
      nParsePorts_splitResult (owns_live otherLive) find text
    refine ⟨otherAfter, otherArrays, ?_, fun place => ?_⟩
    · rw [nParsePortsInMemory_eq given, otherParsed]
      rfl
    · rw [readPlace, readPlace, otherLoaded, loaded]

/-- The rule at a string with a leading, a doubled and a trailing comma, and an array left over. -/
theorem nParsePorts_splits_commas :
    let find : List UInt8 → Option SndSeqAddr := fun name => some ⟨20, UInt8.ofNat name.length⟩
    let text := ascii ",20:0,,Synth 1," ++ [0]
    ∃ nPortCount after arrays,
      nParsePortsInMemory (granting find) 0 (some 0) [some text] [some [none]] =
        .ok (nPortCount, after, [some text, none], arrays) ∧
      load [some text, none] (some 0) = .ok text ∧
      SplitsAtCommas find (cString text) nPortCount after arrays ∧
      ∀ (otherPorts : Option Nat) (otherHeap : PortHeap),
        (∀ block, otherPorts = some block → Live otherHeap block) →
        ∃ otherAfter otherArrays,
          nParsePortsInMemory (granting find) 0 otherPorts [some text] otherHeap =
            .ok (nPortCount, otherAfter, [some text, none], otherArrays) ∧
          ∀ place, readPlace otherArrays otherAfter place = readPlace arrays after place := by
  intro find text
  apply nParsePorts_splits find [some text] 0 text rfl (some 0) [some [none]]
  intro block same
  rw [← Option.some.inj same]
  exact ⟨[none], rfl⟩

end MidiDaemon
