import Mathlib.Data.List.Basic
import Mathlib.Logic.Function.Basic

/-!
# Channels that move

A channel has a key, and carries what is sent on it to one end. Its end may move from place to
place, and may be lost, with what is in flight; a channel has one end at most. Nothing is lost,
doubled, reordered or mixed as long as the channel has an end: what was sent is what was taken and,
behind it, what is in flight.
-/

namespace Channels

variable {ι κ α : Type*}

/-- The ends of the channels: each place has a key and what is in flight, or nothing. -/
structure Conserves (ends : ι → Option (κ × List α)) (sent taken : κ → List α) : Prop where
  /-- What was sent is what was taken and what is in flight, in this order. -/
  balanced : ∀ place key flight, ends place = some (key, flight) →
    sent key = taken key ++ flight
  /-- No channel has two ends. -/
  apart : ∀ place other key flight another, ends place = some (key, flight) →
    ends other = some (key, another) → place = other
  /-- What was taken was sent. -/
  delivered : ∀ key, taken key <+: sent key

/-- Nothing is sent and taken in the beginning. -/
theorem conserves_none : Conserves (fun _ : ι => none) (fun _ : κ => ([] : List α))
    (fun _ => []) where
  balanced _ _ _ held := by cases held
  apart _ _ _ _ _ held := by cases held
  delivered _ := List.prefix_rfl

namespace Conserves

variable {ends after : ι → Option (κ × List α)} {sent taken : κ → List α}
  {place : ι} {key : κ} {flight : List α}

/-- Ends move, or are lost. -/
theorem move (conserves : Conserves ends sent taken) (origin : ι → ι)
    (from_origin : ∀ place entry, after place = some entry → ends (origin place) = some entry)
    (injective : ∀ place other, (after place).isSome → (after other).isSome →
      origin place = origin other → place = other) : Conserves after sent taken where
  balanced place key flight held :=
    conserves.balanced (origin place) key flight (from_origin place _ held)
  apart place other key flight another held also := by
    apply injective place other
    · rw [held]
      exact Option.isSome_some
    · rw [also]
      exact Option.isSome_some
    · exact conserves.apart _ _ key flight another (from_origin place _ held)
        (from_origin other _ also)
  delivered := conserves.delivered

/-- No other place has the key of an end. -/
theorem alone (conserves : Conserves ends sent taken) (held : ends place = some (key, flight))
    (other : ι) (entry : κ × List α) (differ : other ≠ place) (also : ends other = some entry) :
    entry.1 ≠ key := by
  intro same
  apply differ
  exact conserves.apart other place key entry.2 flight (by rw [also, ← same]) held

variable [DecidableEq ι]

/-- An end is lost. -/
theorem lose (conserves : Conserves ends sent taken) (place : ι) :
    Conserves (Function.update ends place none) sent taken := by
  apply conserves.move id
  · intro other entry held
    by_cases same : other = place
    · rw [same, Function.update_self] at held
      cases held
    · rw [Function.update_of_ne same] at held
      exact held
  · intro _ _ _ _ same
    exact same

/-- What an end has is replaced, where no other place has its key. -/
theorem put (conserves : Conserves ends sent taken) {sentAfter takenAfter : κ → List α}
    (alone : ∀ other entry, other ≠ place → ends other = some entry → entry.1 ≠ key)
    (balance : sentAfter key = takenAfter key ++ flight)
    (others : ∀ other, other ≠ key → sentAfter other = sent other ∧
      takenAfter other = taken other) :
    Conserves (Function.update ends place (some (key, flight))) sentAfter takenAfter := by
  -- An end behind the replacement is the new one, or an old one of another channel.
  have ends_after : ∀ other found carried,
      Function.update ends place (some (key, flight)) other = some (found, carried) →
      (other = place ∧ found = key ∧ carried = flight) ∨
        (other ≠ place ∧ found ≠ key ∧ ends other = some (found, carried)) := by
    intro other found carried held
    by_cases same : other = place
    · rw [same, Function.update_self] at held
      have ⟨one, two⟩ := Prod.mk.inj (Option.some.inj held)
      exact .inl ⟨same, one.symm, two.symm⟩
    · rw [Function.update_of_ne same] at held
      exact .inr ⟨same, alone other _ same held, held⟩
  constructor
  · intro other found carried held
    rcases ends_after other found carried held with ⟨_, rfl, rfl⟩ | ⟨_, differ, before⟩
    · exact balance
    · have ⟨sent_kept, taken_kept⟩ := others found differ
      rw [sent_kept, taken_kept]
      exact conserves.balanced other found carried before
  · intro first second found carried another held also
    rcases ends_after first found carried held with ⟨here, same, _⟩ | ⟨_, differ, before⟩
    · rcases ends_after second found another also with ⟨there, _, _⟩ | ⟨_, differ, _⟩
      · rw [here, there]
      · exact absurd same differ
    · rcases ends_after second found another also with ⟨_, same, _⟩ | ⟨_, _, old⟩
      · exact absurd same differ
      · exact conserves.apart first second found carried another before old
  · intro found
    by_cases same : found = key
    · rw [same, balance]
      exact List.prefix_append _ _
    · have ⟨sent_kept, taken_kept⟩ := others found same
      rw [sent_kept, taken_kept]
      exact conserves.delivered found

/-- A channel is opened on which nothing was sent. -/
theorem opens (conserves : Conserves ends sent taken) (place : ι)
    (unused : ∀ other entry, ends other = some entry → entry.1 ≠ key) (silent : sent key = []) :
    Conserves (Function.update ends place (some (key, []))) sent taken := by
  apply conserves.put (fun other entry _ held => unused other entry held)
  · have delivered := conserves.delivered key
    rw [silent] at delivered ⊢
    rw [List.prefix_nil.mp delivered, List.append_nil]
  · exact fun _ _ => ⟨rfl, rfl⟩

variable [DecidableEq κ]

/-- What is sent is put behind what is in flight. -/
theorem send (conserves : Conserves ends sent taken) (held : ends place = some (key, flight))
    (more : List α) :
    Conserves (Function.update ends place (some (key, flight ++ more)))
      (Function.update sent key (sent key ++ more)) taken := by
  apply conserves.put (conserves.alone held)
  · rw [Function.update_self, conserves.balanced place key flight held, List.append_assoc]
  · exact fun other differ => ⟨Function.update_of_ne differ .., rfl⟩

/-- What is taken is taken off the front of what is in flight. -/
theorem take (conserves : Conserves ends sent taken) {front back : List α}
    (held : ends place = some (key, front ++ back)) :
    Conserves (Function.update ends place (some (key, back))) sent
      (Function.update taken key (taken key ++ front)) := by
  apply conserves.put (conserves.alone held)
  · rw [Function.update_self, conserves.balanced place key _ held, List.append_assoc]
  · exact fun other differ => ⟨rfl, Function.update_of_ne differ ..⟩

end Conserves

end Channels
