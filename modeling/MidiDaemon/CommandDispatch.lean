import MidiDaemon.Commands

/-!
# Texts that are commands, and others

The loop of `executeCmdFromUnixSocket` counts to the size of the table of formats in bytes, so
the branch that returns `-1` stands behind more rounds than the table has entries. A text that
follows a format leaves the loop before the table ends; any other text makes the loop read
behind it (`dispatched_iff`).
-/

namespace MidiDaemon

open Scanf

/-- A text follows a format: `sscanf` converts all four integers. -/
def Matches (pBuff : List UInt8) (nIndex : Fin midiEventCount) : Prop :=
  (scanFormat (directives (midiEventUnixFormat nIndex)) pBuff).length = 4

instance (pBuff : List UInt8) (nIndex : Fin midiEventCount) : Decidable (Matches pBuff nIndex) :=
  inferInstanceAs (Decidable (_ = 4))

/-- A text is dispatched inside the tables, to one handler at most, and rejected cleanly. -/
structure Dispatched (pBuff : List UInt8) (state : MidiState) : Prop where
  /-- Neither table is read behind its end. -/
  inside : ∃ result, executeCmdFromUnixSocket pBuff state = .ok result
  /-- At most one handler is called. -/
  once : ∀ result, executeCmdFromUnixSocket pBuff state = .ok result →
    ∃ calls : List Command, calls.length ≤ 1 ∧ result.1.calls = state.calls ++ calls
  /-- A text that follows no format returns `-1` and changes nothing. -/
  rejects : (∀ nIndex, ¬ Matches pBuff nIndex) →
    executeCmdFromUnixSocket pBuff state = .ok (state, -1)

/-- A text that follows a format calls a handler, once. -/
theorem executeCmdFromUnixSocket_matches {pBuff : List UInt8} {nIndex : Fin midiEventCount}
    (follows : Matches pBuff nIndex) (state : MidiState) :
    ∃ command : Command, executeCmdFromUnixSocket pBuff state = .ok (command.call state) := by
  rw [executeCmdFromUnixSocket_eq]
  split
  · exact ⟨_, rfl⟩
  · rename_i apart_first
    split
    · exact ⟨_, rfl⟩
    · rename_i apart_second
      exfalso
      obtain ⟨first, second, third, fourth, scanned⟩ := List.length_eq_four.mp follows
      match nIndex with
      | 0 => exact apart_first _ _ _ _ scanned
      | 1 => exact apart_second _ _ _ _ scanned

/-- A text that follows no format makes the loop read behind the table. -/
theorem executeCmdFromUnixSocket_overruns {pBuff : List UInt8}
    (apart : ∀ nIndex, ¬ Matches pBuff nIndex) (state : MidiState) :
    executeCmdFromUnixSocket pBuff state = .error .tableOverrun := by
  rw [executeCmdFromUnixSocket_eq]
  split
  · rename_i scanned
    exact absurd (show Matches pBuff 0 by rw [Matches, scanned]; rfl) (apart 0)
  · split
    · rename_i scanned
      exact absurd (show Matches pBuff 1 by rw [Matches, scanned]; rfl) (apart 1)
    · rfl

/-- When a text is dispatched: whatever the state, the tables are read inside their bounds and
the text is executed by one handler or rejected cleanly, exactly when it follows a format. -/
theorem dispatched_iff (pBuff : List UInt8) (state : MidiState) :
    Dispatched pBuff state ↔ ∃ nIndex, Matches pBuff nIndex := by
  constructor
  · rintro ⟨⟨result, executed⟩, -, -⟩
    by_contra none_matches
    have apart : ∀ nIndex, ¬ Matches pBuff nIndex :=
      fun nIndex follows => none_matches ⟨nIndex, follows⟩
    rw [executeCmdFromUnixSocket_overruns apart] at executed
    cases executed
  · rintro ⟨nIndex, follows⟩
    obtain ⟨command, called⟩ := executeCmdFromUnixSocket_matches follows state
    refine ⟨⟨_, called⟩, fun result executed => ?_, fun apart => absurd follows (apart nIndex)⟩
    rw [called] at executed
    rw [← Except.ok.inj executed]
    exact ⟨[command], Nat.le_refl 1, rfl⟩

/-- The text `help` is rejected behind the end of the table. -/
theorem help_undispatched :
    ¬ ∀ (pBuff : List UInt8) (state : MidiState), Dispatched pBuff state := by
  intro always
  obtain ⟨result, executed⟩ := (always (ascii "help") ⟨50, [], []⟩).inside
  rw [executeCmdFromUnixSocket_overruns (by decide)] at executed
  cases executed

end MidiDaemon
