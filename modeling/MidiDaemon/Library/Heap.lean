import Mathlib.Data.Set.Insert
import Mathlib.Data.List.Basic

/-!
# Blocks of a heap

A heap is the list of the blocks ever allocated in it. A block is known by its place, has a
content as long as it is live, and its place is not given to another block. A pointer is null or
the place of a block, and using one that is null, or whose block is not live, is a fault.

`Owns` says which blocks are live: those of a frame and, apart from them, the block that a pointer
points to. Each operation on that pointer has a rule that leaves the frame as it is.
-/

namespace Heap

variable {α β : Type*}

/-- What goes wrong with a pointer that is used. -/
inductive Fault where
  /-- It is null. -/
  | null
  /-- Its block is not live: it was released before, or never allocated. -/
  | dead
  /-- The place that is read in its array has not been written, or there is no such place. -/
  | unwritten
deriving DecidableEq, Repr

/-- A computation with a result has come through each of its steps. -/
theorem bind_ok {γ δ : Type*} {value : Except Fault γ} {next : γ → Except Fault δ} {result : δ}
    (ran : (value.bind next) = .ok result) : ∃ step, value = .ok step ∧ next step = .ok result := by
  cases value with
  | error fault => cases ran
  | ok step => exact ⟨step, rfl, ran⟩

/-- The block has a content. -/
def Live (heap : List (Option α)) (block : Nat) : Prop :=
  ∃ content, heap[block]? = some (some content)

/-- Read the content that a pointer points to. -/
def load (heap : List (Option α)) : Option Nat → Except Fault α
  | none => .error .null
  | some block =>
    match heap[block]? with
    | some (some content) => .ok content
    | _ => .error .dead

/-- A new block behind the others. -/
def alloc (heap : List (Option α)) (content : α) : List (Option α) := heap ++ [some content]

/-- Replace the content that a pointer points to. -/
def store (heap : List (Option α)) (pointer : Option Nat) (content : α) :
    Except Fault (List (Option α)) :=
  (load heap pointer).map fun _ => heap.set (pointer.getD 0) (some content)

/-- Release a block; releasing null does nothing. -/
def free (heap : List (Option α)) : Option Nat → Except Fault (List (Option α))
  | none => .ok heap
  | some block => (load heap (some block)).map fun _ => heap.set block none

/-- The places of an array after its size is changed; new places have never been written. -/
def resized (array : List (Option β)) (count : Nat) : List (Option β) :=
  array.take count ++ List.replicate (count - array.length) none

/-- Read a place of the array that a pointer points to. -/
def readPlace (heap : List (Option (List (Option β)))) (pointer : Option Nat) (place : Nat) :
    Except Fault β :=
  match load heap pointer with
  | .ok array =>
    match array[place]? with
    | some (some entry) => .ok entry
    | _ => .error .unwritten
  | .error fault => .error fault

/-- Change the size of an array: its places move to a new block, or nothing changes and the result
is null. A null pointer asks for a new array. -/
def realloc (heap : List (Option (List (Option β)))) (pointer : Option Nat) (count : Nat)
    (granted : Bool) : Except Fault (Option Nat × List (Option (List (Option β)))) :=
  match pointer with
  | none =>
    .ok (if granted then (some heap.length, alloc heap (resized [] count)) else (none, heap))
  | some block =>
    (load heap (some block)).map fun array =>
      if granted then (some heap.length, alloc (heap.set block none) (resized array count))
      else (none, heap)

/-- An array that gets a place behind those in use, and this place written. -/
theorem resized_set {array used : List (Option β)} (front : array.take used.length = used)
    (entry : Option β) :
    (resized array (used.length + 1)).set used.length entry = used ++ [entry] := by
  have enough : used.length ≤ array.length := by
    rw [← front, List.length_take]
    exact Nat.min_le_right _ _
  have whole : (resized array (used.length + 1)).length = used.length + 1 := by
    rw [resized, List.length_append, List.length_take, List.length_replicate]
    omega
  have kept : (resized array (used.length + 1)).take used.length = used := by
    have room : used.length ≤ (array.take (used.length + 1)).length := by
      rw [List.length_take]
      omega
    rw [resized, List.take_append_of_le_length room, List.take_take,
      Nat.min_eq_left (Nat.le_succ _), front]
  rw [List.set_eq_take_append_cons_drop, if_pos (by omega), kept,
    List.drop_of_length_le (Nat.le_of_eq whole)]

/-! ## Live blocks -/

variable {heap : List (Option α)} {block other : Nat} {content : α}

/-- A block can be read exactly when it is live. -/
theorem load_ok_iff : (∃ content, load heap (some block) = .ok content) ↔ Live heap block := by
  constructor
  · rintro ⟨content, loaded⟩
    simp only [load] at loaded
    split at loaded
    · rename_i found
      exact ⟨_, found⟩
    · cases loaded
  · rintro ⟨content, found⟩
    exact ⟨content, by rw [load, found]⟩

/-- A block that is not live is not read. -/
theorem load_dead (released : ¬ Live heap block) : load heap (some block) = .error .dead := by
  rw [load]
  split
  · rename_i found
    exact absurd ⟨_, found⟩ released
  · rfl

/-- Nothing is live behind the last block. -/
theorem not_live_length : ¬ Live heap heap.length := by
  rintro ⟨content, found⟩
  rw [List.getElem?_eq_none (Nat.le_refl _)] at found
  cases found

/-- The new block is live, and the others are as before. -/
theorem live_alloc : Live (alloc heap content) other ↔ Live heap other ∨ other = heap.length := by
  unfold Live alloc
  rcases Nat.lt_trichotomy other heap.length with below | rfl | above
  · rw [List.getElem?_append_left below]
    exact ⟨.inl, fun live => live.resolve_right (Nat.ne_of_lt below)⟩
  · rw [List.getElem?_concat_length]
    exact ⟨fun _ => .inr rfl, fun _ => ⟨content, rfl⟩⟩
  · have outside : heap.length + 1 ≤ other := above
    rw [List.getElem?_eq_none (by simpa using outside), List.getElem?_eq_none (Nat.le_of_lt above)]
    constructor
    · rintro ⟨_, found⟩
      cases found
    · rintro (⟨_, found⟩ | same)
      · cases found
      · omega

/-- The new block has its content. -/
theorem load_alloc : load (alloc heap content) (some heap.length) = .ok content := by
  rw [load, alloc, List.getElem?_concat_length]

/-- More blocks behind the others do not matter to a live one. -/
theorem load_append (loaded : load heap (some block) = .ok content) (more : List (Option α)) :
    load (heap ++ more) (some block) = .ok content := by
  obtain ⟨other, found⟩ := load_ok_iff.mp ⟨content, loaded⟩
  obtain ⟨inside, -⟩ := List.getElem?_eq_some_iff.mp found
  rw [← loaded, load, load, List.getElem?_append_left inside]

/-- What is stored into a live block is read back. -/
theorem load_set (live : Live heap block) (content : α) :
    load (heap.set block (some content)) (some block) = .ok content := by
  obtain ⟨_, found⟩ := live
  obtain ⟨inside, -⟩ := List.getElem?_eq_some_iff.mp found
  rw [load, List.getElem?_set_self inside]

/-- A new block that is replaced is as if it had been new with the other content. -/
theorem alloc_set (heap : List (Option α)) (content : α) (other : Option α) :
    (alloc heap content).set heap.length other = heap ++ [other] := by
  rw [alloc, List.set_append_right _ _ (Nat.le_refl _), Nat.sub_self]
  rfl

/-- A block that is released is not live, and the others are as before. -/
theorem live_release : Live (heap.set block none) other ↔ Live heap other ∧ other ≠ block := by
  unfold Live
  by_cases same : other = block
  · subst same
    rw [List.getElem?_set_self']
    constructor
    · rintro ⟨content, found⟩
      obtain ⟨_, -, same⟩ := Option.map_eq_some_iff.mp found
      cases same
    · exact fun ⟨_, apart⟩ => absurd rfl apart
  · rw [List.getElem?_set_ne (Ne.symm same)]
    exact ⟨fun live => ⟨live, same⟩, And.left⟩

/-- Storing into a live block changes nothing in what is live. -/
theorem live_store (live : Live heap block) :
    Live (heap.set block (some content)) other ↔ Live heap other := by
  by_cases same : other = block
  · subst same
    obtain ⟨_, found⟩ := live
    obtain ⟨inside, -⟩ := List.getElem?_eq_some_iff.mp found
    exact ⟨fun _ => ⟨_, found⟩, fun _ => ⟨content, List.getElem?_set_self inside⟩⟩
  · unfold Live
    rw [List.getElem?_set_ne (Ne.symm same)]

/-! ## Ownership -/

/-- The live blocks are those of a frame and, apart from them, the one that a pointer points to. -/
structure Owns (heap : List (Option α)) (frame : Set Nat) (pointer : Option Nat) : Prop where
  /-- Nothing else is live. -/
  live : ∀ block, Live heap block ↔ block ∈ frame ∨ pointer = some block
  /-- The frame does not contain the block of the pointer. -/
  apart : ∀ block, pointer = some block → block ∉ frame

/-- In an empty heap nothing is live. -/
theorem owns_nil : Owns ([] : List (Option α)) ∅ none where
  live block := by simp [Live]
  apart block same := by cases same

/-- What is live is a frame of its own. -/
theorem owns_frame (heap : List (Option α)) : Owns heap {block | Live heap block} none where
  live block := by simp
  apart block same := by cases same

/-- A pointer that is null or to a live block owns it, and the others are the frame. -/
theorem owns_live {pointer : Option Nat} (live : ∀ block, pointer = some block → Live heap block) :
    Owns heap {block | Live heap block ∧ pointer ≠ some block} pointer where
  live block := by
    constructor
    · intro here
      by_cases same : pointer = some block
      · exact .inr same
      · exact .inl ⟨here, same⟩
    · rintro (framed | same)
      · exact framed.1
      · exact live block same
  apart block same framed := framed.2 same

namespace Owns

variable {frame : Set Nat} {pointer : Option Nat}

/-- The block that is owned is live. -/
theorem owned (owns : Owns heap frame (some block)) : Live heap block :=
  (owns.live block).mpr (.inr rfl)

/-- A block that is neither owned nor in the frame is not live. -/
theorem dead (owns : Owns heap frame pointer) (unframed : block ∉ frame)
    (apart : pointer ≠ some block) : ¬ Live heap block := fun live =>
  ((owns.live block).mp live).elim unframed apart

/-- An owned block that is given up belongs to the frame. -/
theorem forget (owns : Owns heap frame (some block)) : Owns heap (insert block frame) none where
  live other := by
    rw [owns.live, Set.mem_insert_iff, Option.some.injEq]
    simp only [reduceCtorEq, or_false]
    exact or_comm.trans (or_congr_left eq_comm)
  apart other same := by cases same

/-- A new block is owned. -/
theorem allocated (owns : Owns heap frame none) (content : α) :
    Owns (alloc heap content) frame (some heap.length) where
  live other := by
    rw [live_alloc, owns.live, Option.some.injEq]
    simp only [reduceCtorEq, or_false]
    exact or_congr_right eq_comm
  apart other same framed := by
    rw [← Option.some.inj same] at framed
    exact not_live_length ((owns.live _).mpr (.inl framed))

/-- The owned block can be read. -/
theorem readable (owns : Owns heap frame (some block)) :
    ∃ content, load heap (some block) = .ok content :=
  load_ok_iff.mpr owns.owned

/-- Releasing the owned block leaves the frame. -/
theorem release (owns : Owns heap frame (some block)) : Owns (heap.set block none) frame none where
  live other := by
    rw [live_release, owns.live, Option.some.injEq]
    simp only [reduceCtorEq, or_false]
    constructor
    · rintro ⟨framed | same, apart⟩
      · exact framed
      · exact absurd same.symm apart
    · intro framed
      refine ⟨.inl framed, fun same => ?_⟩
      rw [same] at framed
      exact owns.apart block rfl framed
  apart other same := by cases same

/-- What is owned can be freed, and the frame is left. -/
theorem freed (owns : Owns heap frame pointer) :
    ∃ after, free heap pointer = .ok after ∧ Owns after frame none := by
  cases pointer with
  | none => exact ⟨heap, rfl, owns⟩
  | some block =>
    obtain ⟨content, loaded⟩ := owns.readable
    exact ⟨heap.set block none, by rw [free, loaded]; rfl, owns.release⟩

/-- What is owned can be written, and read back. -/
theorem written (owns : Owns heap frame (some block)) (content : α) :
    ∃ after, store heap (some block) content = .ok after ∧ Owns after frame (some block) ∧
      load after (some block) = .ok content := by
  obtain ⟨old, loaded⟩ := owns.readable
  have live := owns.owned
  refine ⟨heap.set block (some content), by rw [store, loaded]; rfl, ⟨fun other => ?_, owns.apart⟩,
    load_set live content⟩
  rw [live_store live, owns.live]

end Owns

/-! ## Pointers to nothing -/

/-- A block that is not live cannot be freed. -/
theorem free_dead (released : ¬ Live heap block) : free heap (some block) = .error .dead := by
  rw [free, load_dead released]
  rfl

section Arrays

variable {arrays : List (Option (List (Option β)))} {frame : Set Nat} {pointer : Option Nat}

/-- Nor can its size be changed. -/
theorem realloc_dead (released : ¬ Live arrays block) (count : Nat) (granted : Bool) :
    realloc arrays (some block) count granted = .error .dead := by
  rw [realloc, load_dead released]
  rfl

/-- An array that is owned is resized into another that is owned; a null pointer is that of an
array without places. -/
theorem Owns.realloc_granted (owns : Owns arrays frame pointer) {array : List (Option β)}
    (holds : pointer = none ∧ array = [] ∨ load arrays pointer = .ok array) (count : Nat) :
    ∃ block after, realloc arrays pointer count true = .ok (some block, after) ∧
      Owns after frame (some block) ∧ load after (some block) = .ok (resized array count) := by
  cases pointer with
  | none =>
    obtain ⟨-, rfl⟩ : none = none ∧ array = [] := by
      rcases holds with empty | loaded
      · exact empty
      · cases loaded
    exact ⟨arrays.length, _, rfl, owns.allocated _, load_alloc⟩
  | some block =>
    have loaded : load arrays (some block) = .ok array := by
      rcases holds with ⟨null, -⟩ | loaded
      · cases null
      · exact loaded
    have moved := owns.release.allocated (resized array count)
    have read : load (alloc (arrays.set block none) (resized array count))
        (some (arrays.set block none).length) = .ok (resized array count) := load_alloc
    rw [List.length_set] at moved read
    exact ⟨arrays.length, _, by rw [realloc, loaded]; rfl, moved, read⟩

/-- When it is refused, the pointer is lost and the array is not. -/
theorem Owns.realloc_refused (owns : Owns arrays frame pointer) (count : Nat) :
    realloc arrays pointer count false = .ok (none, arrays) := by
  cases pointer with
  | none => rfl
  | some block =>
    obtain ⟨array, loaded⟩ := owns.readable
    rw [realloc, loaded]
    rfl

/-- A place of an array that is full is read. -/
theorem readPlace_full {entries : List β} (loaded : load arrays pointer = .ok (entries.map some))
    {place : Nat} (inside : place < entries.length) :
    readPlace arrays pointer place = .ok entries[place] := by
  rw [readPlace, loaded]
  simp only [List.getElem?_map, List.getElem?_eq_getElem inside, Option.map_some]

end Arrays

end Heap
