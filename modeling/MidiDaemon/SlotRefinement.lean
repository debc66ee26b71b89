import MidiDaemon.Library.BoundedSet
import MidiDaemon.Library.Machine
import MidiDaemon.SlotTable

/-!
# What is the slot table?

Used by one thread the slot table is a set of socket numbers with room for as many as it has slots.
`main` registers a number in the slot that `getFreeClient` finds, and `setSocketSlotFree` releases
one. The scan of `setSocketSlotFree` empties every slot that has the number, and empties one slot,
because the numbers in the table are distinct as long as each is registered while it is not in the
table (`slots_refine`).
-/

namespace MidiDaemon

open BoundedSet Machine

/-- An operation on the slot table. -/
inductive SlotOperation where
  /-- `main` stores a number in the slot that `getFreeClient` finds. -/
  | register (nSporeSocket : Int)
  /-- `setSocketSlotFree` of a number. -/
  | release (nSporeSocket : Int)

/-- The slots that `setSocketSlotFree` writes, one after the other. -/
def slotsSetFree (pSocketList : List Int) : Nat → Int → List Nat
  | 0, _ => []
  | nSocketListLen + 1, nSporeSocket =>
    if pSocketList[nSocketListLen]? = some nSporeSocket then
      nSocketListLen ::
        slotsSetFree (pSocketList.set nSocketListLen emptySocket) nSocketListLen nSporeSocket
    else slotsSetFree pSocketList nSocketListLen nSporeSocket

namespace SlotOperation

/-- The indexes that an operation writes in a table of this length. -/
def written (nSocketListLen : Nat) (pSocketList : List Int) : SlotOperation → List Int
  | .register _ =>
    let nFreeSocketSlot := getFreeClient pSocketList nSocketListLen
    if nFreeSocketSlot = -1 then [] else [nFreeSocketSlot]
  | .release nSporeSocket =>
    (slotsSetFree pSocketList nSocketListLen nSporeSocket).map fun (nSlot : Nat) => (nSlot : Int)

/-- What an operation writes there. -/
def value : SlotOperation → Int
  | .register nSporeSocket => nSporeSocket
  | .release _ => emptySocket

/-- The table behind an operation. -/
def perform (nSocketListLen : Nat) (pSocketList : List Int) : SlotOperation → List Int
  | .register nSporeSocket =>
    let nFreeSocketSlot := getFreeClient pSocketList nSocketListLen
    if nFreeSocketSlot = -1 then pSocketList
    else pSocketList.set nFreeSocketSlot.toNat nSporeSocket
  | .release nSporeSocket => setSocketSlotFree pSocketList nSocketListLen nSporeSocket

/-- The set of numbers behind an operation. -/
def specified {count : Nat} (registered : BoundedSet Int count) :
    SlotOperation → BoundedSet Int count
  | .register nSporeSocket => registered.add nSporeSocket
  | .release nSporeSocket => registered.remove nSporeSocket

end SlotOperation

/-- A table of this length, and the numbers that are registered and not released. -/
structure SlotRun (count : Nat) where
  /-- `nSocketList`. -/
  nSocketList : List Int
  /-- The set that it stands for. -/
  registered : BoundedSet Int count

namespace SlotRun

variable {count : Nat}

/-- `main` begins with an empty table. -/
def start (count : Nat) : SlotRun count := ⟨List.replicate count emptySocket, .empty⟩

/-- An operation on the table and on the set, each by itself. -/
def step (run : SlotRun count) (operation : SlotOperation) : Option (SlotRun count) :=
  some ⟨operation.perform count run.nSocketList, operation.specified run.registered⟩

/-- A number is registered that is not in the table and is not `EMPTY_SOCKET`. -/
def Admissible (run : SlotRun count) : SlotOperation → Prop
  | .register nSporeSocket => nSporeSocket ≠ emptySocket ∧ nSporeSocket ∉ run.nSocketList
  | .release _ => True

instance (run : SlotRun count) (operation : SlotOperation) :
    Decidable (run.Admissible operation) :=
  match operation with
  | .register nSporeSocket =>
    inferInstanceAs (Decidable (nSporeSocket ≠ emptySocket ∧ nSporeSocket ∉ run.nSocketList))
  | .release _ => inferInstanceAs (Decidable True)

/-- The entries that are not empty are distinct, and are the numbers of the set. -/
structure Refines (run : SlotRun count) : Prop where
  /-- The table keeps its length. -/
  size : run.nSocketList.length = count
  /-- Each number of the set has one slot, and every other slot is empty. -/
  represents : Represents emptySocket run.nSocketList run.registered.elements

/-- What an operation does to the table. -/
structure Serves (run : SlotRun count) (operation : SlotOperation) : Prop where
  /-- It is its writes. -/
  writes : operation.perform count run.nSocketList =
    (operation.written count run.nSocketList).foldl
      (fun table index => table.set index.toNat operation.value) run.nSocketList
  /-- Every index that is written is one of the table. -/
  inside : ∀ index ∈ operation.written count run.nSocketList, 0 ≤ index ∧ index < count
  /-- A registration fails when the set has as many numbers as the table has slots. -/
  fails : ∀ nSporeSocket, operation = .register nSporeSocket →
    (getFreeClient run.nSocketList count = -1 ↔ run.registered.elements.card = count)
  /-- A registration that does not fail stores its number in an empty slot. -/
  stores : ∀ nSporeSocket, operation = .register nSporeSocket →
    ∀ index ∈ operation.written count run.nSocketList,
      run.nSocketList[index.toNat]? = some emptySocket
  /-- A release empties the slots of its number, and no other slot changes. -/
  removes : ∀ nSporeSocket, operation = .release nSporeSocket → ∀ nSlot : Nat,
    (operation.perform count run.nSocketList)[nSlot]? =
      if run.nSocketList[nSlot]? = some nSporeSocket then some emptySocket
      else run.nSocketList[nSlot]?
  /-- The number has one slot at most. -/
  alone : ∀ nSporeSocket, operation = .release nSporeSocket → nSporeSocket ≠ emptySocket →
    ∀ index ∈ operation.written count run.nSocketList,
      ∀ other ∈ operation.written count run.nSocketList, index = other

end SlotRun

/-! ## The writes of a release -/

/-- `setSocketSlotFree` is its writes. -/
theorem setSocketSlotFree_writes (pSocketList : List Int) (nSocketListLen : Nat)
    (nSporeSocket : Int) :
    setSocketSlotFree pSocketList nSocketListLen nSporeSocket =
      (slotsSetFree pSocketList nSocketListLen nSporeSocket).foldl
        (fun table nSlot => table.set nSlot emptySocket) pSocketList := by
  induction nSocketListLen generalizing pSocketList with
  | zero => rfl
  | succ nSocketListLen ih =>
    rw [setSocketSlotFree, slotsSetFree]
    split
    · rw [ih, List.foldl_cons]
    · exact ih pSocketList

/-- They are in the slots that hold the number. -/
theorem mem_slotsSetFree {pSocketList : List Int} {nSocketListLen : Nat} {nSporeSocket : Int}
    {nSlot : Nat} (written : nSlot ∈ slotsSetFree pSocketList nSocketListLen nSporeSocket) :
    nSlot < nSocketListLen ∧ pSocketList[nSlot]? = some nSporeSocket := by
  induction nSocketListLen generalizing pSocketList with
  | zero => exact absurd written List.not_mem_nil
  | succ nSocketListLen ih =>
    rw [slotsSetFree] at written
    split at written
    · rename_i held
      rcases List.mem_cons.mp written with rfl | later
      · exact ⟨Nat.lt_succ_self _, held⟩
      · obtain ⟨below, entry⟩ := ih later
        rw [List.getElem?_set_ne (by omega)] at entry
        exact ⟨by omega, entry⟩
    · obtain ⟨below, entry⟩ := ih written
      exact ⟨by omega, entry⟩

namespace SlotRun

variable {count : Nat} {run next : SlotRun count}

/-- The search fails when no slot is empty. -/
theorem Refines.lost_iff (refines : run.Refines) :
    getFreeClient run.nSocketList count = -1 ↔ emptySocket ∉ run.nSocketList := by
  rw [getFreeClient_full]
  constructor
  · intro full member
    obtain ⟨nSlot, entry⟩ := List.mem_iff_getElem?.mp member
    obtain ⟨inside, -⟩ := List.getElem?_eq_some_iff.mp entry
    have size := refines.size
    exact full nSlot (by omega) entry
  · intro full nSlot _ entry
    exact full (List.mem_of_getElem? entry)

/-- The table is empty at the start. -/
theorem start_refines (count : Nat) : (start count).Refines where
  size := List.length_replicate
  represents := represents_vacant emptySocket count

/-- An admissible operation keeps the table a set, and does to it what it does to the set. -/
theorem step_refines {operation : SlotOperation} (refines : run.Refines)
    (admissible : run.Admissible operation) (stepped : run.step operation = some next) :
    next.Refines := by
  obtain rfl := Option.some.inj stepped
  cases operation with
  | register nSporeSocket =>
    obtain ⟨number, fresh⟩ := admissible
    show Refines ⟨if getFreeClient run.nSocketList count = -1 then run.nSocketList
      else run.nSocketList.set (getFreeClient run.nSocketList count).toNat nSporeSocket,
      run.registered.add nSporeSocket⟩
    by_cases lost : getFreeClient run.nSocketList count = -1
    · rw [if_pos lost]
      exact ⟨refines.size, refines.represents.add_none refines.size (refines.lost_iff.mp lost)⟩
    · rw [if_neg lost]
      obtain ⟨-, empty⟩ := getFreeClient_free lost
      refine ⟨?_, refines.represents.add refines.size empty number fresh⟩
      rw [List.length_set]
      exact refines.size
  | release nSporeSocket =>
    constructor
    · show (setSocketSlotFree run.nSocketList count nSporeSocket).length = count
      rw [setSocketSlotFree_length]
      exact refines.size
    · apply refines.represents.remove
      exact setSocketSlotFree_all refines.size nSporeSocket

/-- The index that a registration writes is that of an empty slot. -/
theorem register_written {nSporeSocket index : Int}
    (written : index ∈ (SlotOperation.register nSporeSocket).written count run.nSocketList) :
    0 ≤ index ∧ index < count ∧ run.nSocketList[index.toNat]? = some emptySocket := by
  rw [SlotOperation.written] at written
  by_cases lost : getFreeClient run.nSocketList count = -1
  · rw [if_pos lost] at written
    exact absurd written List.not_mem_nil
  · rw [if_neg lost, List.mem_singleton] at written
    obtain ⟨below, empty⟩ := getFreeClient_free lost
    rcases getFreeClient_cases run.nSocketList count with ⟨nSlot, -, found, -⟩ | ⟨none_found, -⟩
    · rw [written]
      exact ⟨by omega, by omega, empty⟩
    · exact absurd none_found lost

/-- An index that a release writes is that of a slot which holds the number. -/
theorem release_written {nSporeSocket index : Int}
    (written : index ∈ (SlotOperation.release nSporeSocket).written count run.nSocketList) :
    0 ≤ index ∧ index < count ∧ run.nSocketList[index.toNat]? = some nSporeSocket := by
  rw [SlotOperation.written] at written
  obtain ⟨nSlot, member, rfl⟩ := List.mem_map.mp written
  obtain ⟨below, held⟩ := mem_slotsSetFree member
  exact ⟨by omega, by omega, held⟩

/-- An operation is its writes. -/
theorem perform_writes (operation : SlotOperation) :
    operation.perform count run.nSocketList =
      (operation.written count run.nSocketList).foldl
        (fun table index => table.set index.toNat operation.value) run.nSocketList := by
  cases operation with
  | register nSporeSocket =>
    rw [SlotOperation.perform, SlotOperation.written]
    by_cases lost : getFreeClient run.nSocketList count = -1
    · rw [if_pos lost, if_pos lost]
      rfl
    · rw [if_neg lost, if_neg lost]
      rfl
  | release nSporeSocket =>
    show setSocketSlotFree run.nSocketList count nSporeSocket = _
    rw [setSocketSlotFree_writes, SlotOperation.written, List.foldl_map]
    rfl

/-- What one operation does to a table that stands for a set. -/
theorem refines_serves (refines : run.Refines) (operation : SlotOperation) :
    run.Serves operation where
  writes := perform_writes operation
  inside index written := by
    cases operation with
    | register nSporeSocket =>
      obtain ⟨first, last, -⟩ := register_written written
      exact ⟨first, last⟩
    | release nSporeSocket =>
      obtain ⟨first, last, -⟩ := release_written written
      exact ⟨first, last⟩
  fails _ _ := refines.lost_iff.trans (refines.represents.full_iff refines.size).symm
  stores nSporeSocket register index written := by
    subst register
    exact (register_written written).2.2
  removes nSporeSocket release nSlot := by
    subst release
    exact setSocketSlotFree_all refines.size nSporeSocket nSlot
  alone nSporeSocket release number index written other otherWritten := by
    subst release
    obtain ⟨first, -, held⟩ := release_written written
    obtain ⟨otherFirst, -, otherHeld⟩ := release_written otherWritten
    have same := refines.represents.distinct _ _ nSporeSocket held otherHeld number
    omega

/-- The slot table is a bounded set. For every length and every sequence of operations that
registers only numbers which are not `EMPTY_SOCKET` and not in the table: behind every operation the
entries that are not empty are distinct, and are the numbers registered and not released; and every
operation writes inside the table, a registration fails when the set is full, and a release removes
its number and changes no other entry. -/
theorem slots_refine (count : Nat) (operations : List SlotOperation)
    (admissible : EachStep step Admissible (start count) operations) :
    EachState step Refines (start count) operations ∧
      EachStep step Serves (start count) operations := by
  have kept : ∀ (run : SlotRun count) operation next, run.Refines → run.Admissible operation →
      run.step operation = some next → next.Refines :=
    fun run operation next refines met stepped => step_refines refines met stepped
  constructor
  · exact eachState_of_invariant (fun _ refines => refines) kept (start_refines count) admissible
  · exact eachStep_of_invariant (fun _ operation refines _ => refines_serves refines operation) kept
      (start_refines count) admissible

/-- Two slots, and a third number that finds none until one is released. -/
theorem slots_refine_two :
    EachState step Refines (start 2)
        [.register 7, .register 9, .register 8, .release 9, .register 8] ∧
      EachStep step Serves (start 2)
        [.register 7, .register 9, .register 8, .release 9, .register 8] :=
  slots_refine 2 _ (by decide)

end SlotRun

end MidiDaemon
