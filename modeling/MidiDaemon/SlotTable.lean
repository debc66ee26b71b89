import Mathlib.Data.Finset.Card
import Mathlib.Data.List.Basic

/-!
# The slot table of Bluetooth clients

`nSocketList` has one entry for each client thread: the number of its socket, or
`EMPTY_SOCKET`. `getFreeClient` searches the entries from the last to the first for an empty
one. `setSocketSlotFree` empties every entry that holds a number, by its value.
-/

namespace MidiDaemon

/-- `MAX_CLIENT_SOCKET_CNT`. -/
def maxClientSocketCnt : Nat := 10

/-- `EMPTY_SOCKET`. -/
def emptySocket : Int := 0

/-- `getFreeClient`: the last empty slot among the first `nSocketListLen`, or `-1`. -/
def getFreeClient (pSocketList : List Int) : Nat → Int
  | 0 => -1
  | nSocketListLen + 1 =>
    if pSocketList[nSocketListLen]? = some emptySocket then nSocketListLen
    else getFreeClient pSocketList nSocketListLen

/-- `setSocketSlotFree`: every slot among the first `nSocketListLen` that holds the number is
emptied. -/
def setSocketSlotFree (pSocketList : List Int) : Nat → Int → List Int
  | 0, _ => pSocketList
  | nSocketListLen + 1, nSporeSocket =>
    if pSocketList[nSocketListLen]? = some nSporeSocket then
      setSocketSlotFree (pSocketList.set nSocketListLen emptySocket) nSocketListLen nSporeSocket
    else setSocketSlotFree pSocketList nSocketListLen nSporeSocket

/-- A search succeeds with an empty slot or there is none. -/
theorem getFreeClient_cases (pSocketList : List Int) (nSocketListLen : Nat) :
    (∃ nSlot, nSlot < nSocketListLen ∧ getFreeClient pSocketList nSocketListLen = nSlot ∧
      pSocketList[nSlot]? = some emptySocket) ∨
    (getFreeClient pSocketList nSocketListLen = -1 ∧
      ∀ nSlot, nSlot < nSocketListLen → pSocketList[nSlot]? ≠ some emptySocket) := by
  induction nSocketListLen with
  | zero => exact .inr ⟨rfl, fun _ below => absurd below (Nat.not_lt_zero _)⟩
  | succ nSocketListLen ih =>
    by_cases empty : pSocketList[nSocketListLen]? = some emptySocket
    · exact .inl ⟨nSocketListLen, Nat.lt_succ_self _, if_pos empty, empty⟩
    · have onward : getFreeClient pSocketList (nSocketListLen + 1) =
          getFreeClient pSocketList nSocketListLen := if_neg empty
      rw [onward]
      rcases ih with ⟨nSlot, below, found, free⟩ | ⟨none_found, occupied⟩
      · exact .inl ⟨nSlot, Nat.lt_succ_of_lt below, found, free⟩
      · refine .inr ⟨none_found, fun nSlot below => ?_⟩
        rcases Nat.lt_succ_iff_lt_or_eq.mp below with lower | same
        · exact occupied nSlot lower
        · rw [same]
          exact empty

/-- A number that is a slot is an empty slot of the table. -/
theorem getFreeClient_free {pSocketList : List Int} {nSocketListLen : Nat}
    (found : getFreeClient pSocketList nSocketListLen ≠ -1) :
    (getFreeClient pSocketList nSocketListLen).toNat < nSocketListLen ∧
      pSocketList[(getFreeClient pSocketList nSocketListLen).toNat]? = some emptySocket := by
  rcases getFreeClient_cases pSocketList nSocketListLen with ⟨nSlot, below, same, free⟩ | ⟨lost, -⟩
  · rw [same, Int.toNat_natCast]
    exact ⟨below, free⟩
  · exact absurd lost found

/-- No slot is found exactly when every slot is occupied. -/
theorem getFreeClient_full {pSocketList : List Int} {nSocketListLen : Nat} :
    getFreeClient pSocketList nSocketListLen = -1 ↔
      ∀ nSlot, nSlot < nSocketListLen → pSocketList[nSlot]? ≠ some emptySocket := by
  rcases getFreeClient_cases pSocketList nSocketListLen with
    ⟨nSlot, below, same, free⟩ | ⟨lost, full⟩
  · constructor
    · intro lost
      rw [lost] at same
      omega
    · exact fun full => absurd free (full nSlot below)
  · exact ⟨fun _ => full, fun _ => lost⟩

/-- An entry after slots have been set free: emptied when it held the number, else unchanged. -/
theorem getElem?_setSocketSlotFree (pSocketList : List Int) (nSocketListLen : Nat)
    (nSporeSocket : Int) (nSlot : Nat) :
    (setSocketSlotFree pSocketList nSocketListLen nSporeSocket)[nSlot]? =
      if nSlot < nSocketListLen ∧ pSocketList[nSlot]? = some nSporeSocket then some emptySocket
      else pSocketList[nSlot]? := by
  induction nSocketListLen generalizing pSocketList with
  | zero => simp [setSocketSlotFree]
  | succ nSocketListLen ih =>
    rw [setSocketSlotFree]
    by_cases held : pSocketList[nSocketListLen]? = some nSporeSocket
    · obtain ⟨inside, -⟩ := List.getElem?_eq_some_iff.mp held
      rw [if_pos held, ih]
      by_cases here : nSlot = nSocketListLen
      · subst here
        rw [if_neg (fun both => absurd both.1 (Nat.lt_irrefl _)),
          if_pos ⟨Nat.lt_succ_self _, held⟩, List.getElem?_set_self inside]
      · have elsewhere : (pSocketList.set nSocketListLen emptySocket)[nSlot]? =
          pSocketList[nSlot]? :=
          List.getElem?_set_ne (Ne.symm here)
        have below : nSlot < nSocketListLen + 1 ↔ nSlot < nSocketListLen := by omega
        simp only [elsewhere, below]
    · rw [if_neg held, ih]
      by_cases here : nSlot = nSocketListLen
      · subst here
        rw [if_neg (fun both => held both.2), if_neg (fun both => held both.2)]
      · have below : nSlot < nSocketListLen + 1 ↔ nSlot < nSocketListLen := by omega
        simp only [below]

/-- Setting slots free keeps the size of the table. -/
@[simp] theorem setSocketSlotFree_length (pSocketList : List Int) (nSocketListLen : Nat)
    (nSporeSocket : Int) :
    (setSocketSlotFree pSocketList nSocketListLen nSporeSocket).length = pSocketList.length := by
  induction nSocketListLen generalizing pSocketList with
  | zero => rfl
  | succ nSocketListLen ih =>
    rw [setSocketSlotFree]
    split
    · rw [ih, List.length_set]
    · exact ih pSocketList

/-- Setting a whole table free replaces the number by `EMPTY_SOCKET` wherever it stands. -/
theorem setSocketSlotFree_all {pSocketList : List Int} {nSocketListLen : Nat}
    (size : pSocketList.length = nSocketListLen) (nSporeSocket : Int) (nSlot : Nat) :
    (setSocketSlotFree pSocketList nSocketListLen nSporeSocket)[nSlot]? =
      if pSocketList[nSlot]? = some nSporeSocket then some emptySocket
      else pSocketList[nSlot]? := by
  rw [getElem?_setSocketSlotFree]
  by_cases held : pSocketList[nSlot]? = some nSporeSocket
  · obtain ⟨inside, -⟩ := List.getElem?_eq_some_iff.mp held
    rw [if_pos ⟨size ▸ inside, held⟩, if_pos held]
  · rw [if_neg (fun both => held both.2), if_neg held]

/-! ## Registrations -/

/-- Each occupied slot is the slot of a registration of the number it holds. A registration is
named by a key, and is a number and a slot. -/
def SlotsOwned (registered : Nat → Option (Int × Nat)) (pSocketList : List Int) : Prop :=
  ∀ (nSlot : Nat) (nSporeSocket : Int), pSocketList[nSlot]? = some nSporeSocket →
    nSporeSocket ≠ emptySocket → ∃ key, registered key = some (nSporeSocket, nSlot)

/-- The table records the registrations: each registration has a slot of its own, which holds
its number, and each occupied slot is that of a registration. -/
structure SlotsExact (registered : Nat → Option (Int × Nat)) (pSocketList : List Int) : Prop where
  /-- The slot of a registration holds its number, and is occupied. -/
  stored : ∀ key nSporeSocket nSlot, registered key = some (nSporeSocket, nSlot) →
    pSocketList[nSlot]? = some nSporeSocket ∧ nSporeSocket ≠ emptySocket
  /-- No two registrations have the same slot. -/
  apart : ∀ key other nSporeSocket otherSocket nSlot,
    registered key = some (nSporeSocket, nSlot) → registered other = some (otherSocket, nSlot) →
    key = other
  /-- An occupied slot is the slot of a registration of the number it holds. -/
  owned : SlotsOwned registered pSocketList

/-- The empty table records no registration. -/
theorem slotsExact_empty (count : Nat) :
    SlotsExact (fun _ => none) (List.replicate count emptySocket) where
  stored _ _ _ none_registered := by cases none_registered
  apart _ _ _ _ _ none_registered := by cases none_registered
  owned nSlot nSporeSocket held occupied := by
    rw [List.getElem?_replicate] at held
    split at held
    · exact absurd (Option.some.inj held).symm occupied
    · cases held

variable {registered : Nat → Option (Int × Nat)} {pSocketList : List Int}
  {nSporeSocket : Int} {nSlot key : Nat}

/-- Storing the number of a new registration in its slot leaves every occupied slot owned. -/
theorem SlotsOwned.store (owned : SlotsOwned registered pSocketList)
    (unregistered : registered key = none) (inside : nSlot < pSocketList.length) :
    SlotsOwned (Function.update registered key (some (nSporeSocket, nSlot)))
      (pSocketList.set nSlot nSporeSocket) := by
  intro slot held_number held occupied
  by_cases here : slot = nSlot
  · subst here
    rw [List.getElem?_set_self inside] at held
    refine ⟨key, ?_⟩
    rw [Function.update_self, Option.some.inj held]
  · rw [List.getElem?_set_ne (Ne.symm here)] at held
    obtain ⟨other, entry⟩ := owned slot held_number held occupied
    have old : other ≠ key := by
      intro same
      rw [same, unregistered] at entry
      cases entry
    refine ⟨other, ?_⟩
    rw [Function.update_of_ne old]
    exact entry

/-- Setting the number of a registration free leaves every occupied slot owned without it. -/
theorem SlotsOwned.free (owned : SlotsOwned registered pSocketList)
    (entry : registered key = some (nSporeSocket, nSlot)) :
    SlotsOwned (Function.update registered key none)
      (setSocketSlotFree pSocketList pSocketList.length nSporeSocket) := by
  intro slot held_number held occupied
  rw [setSocketSlotFree_all rfl] at held
  split at held
  · exact absurd (Option.some.inj held).symm occupied
  · rename_i unlike
    obtain ⟨other, otherEntry⟩ := owned slot held_number held occupied
    have differ : other ≠ key := by
      intro same
      rw [same, entry] at otherEntry
      obtain ⟨number, -⟩ := Prod.mk.inj (Option.some.inj otherEntry)
      exact unlike (by rw [number, held])
    refine ⟨other, ?_⟩
    rw [Function.update_of_ne differ]
    exact otherEntry

/-- When every slot is owned and there are fewer registrations than slots, a slot is found. -/
theorem SlotsOwned.room (owned : SlotsOwned registered pSocketList) {keys : Finset Nat}
    (all_keys : ∀ key, (registered key).isSome → key ∈ keys)
    (fewer : keys.card < pSocketList.length) :
    getFreeClient pSocketList pSocketList.length ≠ -1 := by
  intro lost
  have full := getFreeClient_full.mp lost
  have reached : Set.SurjOn (fun key => ((registered key).getD (0, 0)).2) keys
      (Finset.range pSocketList.length) := by
    intro slot inside
    have below : slot < pSocketList.length := by simpa using inside
    have held : pSocketList[slot]? = some pSocketList[slot] := List.getElem?_eq_getElem below
    have occupied : pSocketList[slot] ≠ emptySocket := by
      intro empty
      exact full slot below (by rw [held, empty])
    obtain ⟨key, entry⟩ := owned slot _ held occupied
    refine ⟨key, all_keys key (by rw [entry]; rfl), ?_⟩
    simp only [entry, Option.getD_some]
  have count := Finset.card_le_card_of_surjOn _ reached
  rw [Finset.card_range] at count
  omega

namespace SlotsExact

/-- Storing a number in an empty slot registers it. -/
theorem store (slots : SlotsExact registered pSocketList) (unregistered : registered key = none)
    (empty : pSocketList[nSlot]? = some emptySocket) (number : nSporeSocket ≠ emptySocket) :
    SlotsExact (Function.update registered key (some (nSporeSocket, nSlot)))
      (pSocketList.set nSlot nSporeSocket) := by
  obtain ⟨inside, -⟩ := List.getElem?_eq_some_iff.mp empty
  -- No registration has the slot, for the slot is empty.
  have vacant : ∀ other otherSocket otherSlot, registered other = some (otherSocket, otherSlot) →
      otherSlot ≠ nSlot := by
    intro other otherSocket otherSlot entry same
    obtain ⟨held, occupied⟩ := slots.stored other otherSocket otherSlot entry
    rw [same, empty] at held
    exact occupied (Option.some.inj held).symm
  constructor
  · intro other otherSocket otherSlot entry
    by_cases new : other = key
    · subst new
      rw [Function.update_self] at entry
      obtain ⟨rfl, rfl⟩ := Prod.mk.inj (Option.some.inj entry)
      exact ⟨List.getElem?_set_self inside, number⟩
    · rw [Function.update_of_ne new] at entry
      rw [List.getElem?_set_ne (Ne.symm (vacant other otherSocket otherSlot entry))]
      exact slots.stored other otherSocket otherSlot entry
  · intro first second firstSocket secondSocket slot firstEntry secondEntry
    by_cases new : first = key
    · subst new
      rw [Function.update_self] at firstEntry
      obtain ⟨rfl, rfl⟩ := Prod.mk.inj (Option.some.inj firstEntry)
      by_contra differ
      rw [Function.update_of_ne (Ne.symm differ)] at secondEntry
      exact vacant second secondSocket _ secondEntry rfl
    · rw [Function.update_of_ne new] at firstEntry
      by_cases also : second = key
      · subst also
        rw [Function.update_self] at secondEntry
        obtain ⟨-, same⟩ := Prod.mk.inj (Option.some.inj secondEntry)
        exact absurd same.symm (vacant first firstSocket slot firstEntry)
      · rw [Function.update_of_ne also] at secondEntry
        exact slots.apart first second firstSocket secondSocket slot firstEntry secondEntry
  · exact slots.owned.store unregistered inside

/-- Setting the number of a registration free ends it, when no other has the same number. -/
theorem free (slots : SlotsExact registered pSocketList)
    (entry : registered key = some (nSporeSocket, nSlot))
    (alone : ∀ other otherSlot, other ≠ key → registered other ≠ some (nSporeSocket, otherSlot)) :
    SlotsExact (Function.update registered key none)
      (setSocketSlotFree pSocketList pSocketList.length nSporeSocket) := by
  constructor
  · intro other otherSocket otherSlot otherEntry
    have differ : other ≠ key := by
      intro same
      rw [same, Function.update_self] at otherEntry
      cases otherEntry
    rw [Function.update_of_ne differ] at otherEntry
    obtain ⟨held, occupied⟩ := slots.stored other otherSocket otherSlot otherEntry
    have unlike : pSocketList[otherSlot]? ≠ some nSporeSocket := by
      intro same
      rw [held] at same
      rw [Option.some.inj same] at otherEntry
      exact alone other otherSlot differ otherEntry
    rw [setSocketSlotFree_all rfl, if_neg unlike]
    exact ⟨held, occupied⟩
  · intro first second firstSocket secondSocket slot firstEntry secondEntry
    have old : ∀ other entry, Function.update registered key none other = some entry →
        registered other = some entry := by
      intro other entry found
      have differ : other ≠ key := by
        intro same
        rw [same, Function.update_self] at found
        cases found
      rwa [Function.update_of_ne differ] at found
    exact slots.apart first second firstSocket secondSocket slot (old _ _ firstEntry)
      (old _ _ secondEntry)
  · exact slots.owned.free entry

/-- Setting a number free that another registration has loses that registration's slot. -/
theorem free_loses {after : Nat → Option (Int × Nat)}
    (slots : SlotsExact registered pSocketList)
    (entry : registered key = some (nSporeSocket, nSlot))
    (remains : after key = some (nSporeSocket, nSlot)) :
    ¬ SlotsExact after (setSocketSlotFree pSocketList pSocketList.length nSporeSocket) := by
  intro kept
  obtain ⟨held, -⟩ := slots.stored key nSporeSocket nSlot entry
  obtain ⟨holds, occupied⟩ := kept.stored key nSporeSocket nSlot remains
  rw [setSocketSlotFree_all rfl, if_pos held] at holds
  exact occupied (Option.some.inj holds).symm

/-- There are no more registrations than slots. -/
theorem card_le (slots : SlotsExact registered pSocketList) (keys : Finset Nat)
    (all_registered : ∀ key ∈ keys, (registered key).isSome) : keys.card ≤ pSocketList.length := by
  have slot_of : ∀ key ∈ keys, ∃ entry, registered key = some entry := fun key member =>
    Option.isSome_iff_exists.mp (all_registered key member)
  have inside : ∀ key ∈ keys,
    ((registered key).getD (0, 0)).2 ∈ Finset.range pSocketList.length := by
    intro key member
    obtain ⟨⟨number, slot⟩, entry⟩ := slot_of key member
    obtain ⟨bound, -⟩ := List.getElem?_eq_some_iff.mp (slots.stored key number slot entry).1
    rw [entry]
    exact Finset.mem_range.mpr bound
  have injective : Set.InjOn (fun key => ((registered key).getD (0, 0)).2) keys := by
    intro first firstMember second secondMember same
    obtain ⟨⟨number, slot⟩, entry⟩ := slot_of first firstMember
    obtain ⟨⟨otherNumber, otherSlot⟩, otherEntry⟩ := slot_of second secondMember
    simp only [entry, otherEntry, Option.getD_some] at same
    subst same
    exact slots.apart first second number otherNumber slot entry otherEntry
  have count := Finset.card_le_card_of_injOn _ inside injective
  rwa [Finset.card_range] at count

end SlotsExact

end MidiDaemon
