import Mathlib.Data.Set.List
import MidiDaemon.CommandSessions

/-!
# Commands of many clients

The clients of the command socket send commands at the same time, and the server receives from
one after the other. Once all that was sent has been received, the handlers have been called with
the commands of every client, once each and in its order, exactly when each result of `recv` was
the whole text of one command (`clients_served_iff`).
-/

namespace MidiDaemon

open Machine Blocks Interference

/-- The text of a command tells it from every other. -/
theorem Command.text_injective {command other : Command} (same : command.text = other.text) :
    command = other := by
  have executed := executeCmdFromUnixSocket_text command [] ⟨0, [], []⟩
  rw [same, executeCmdFromUnixSocket_text other []] at executed
  have called := congrArg (fun result => result.1.calls) (Except.ok.inj executed)
  have calls : [other] = [command] := called
  exact (List.singleton_inj.mp calls).symm

namespace CommandSession

/-- The handlers have been called with the commands of each client, once each and in its order; the
calls were made by the results of `recv`, one by each. -/
def ServedAs (script : Nat → List Command) (midi : MidiState) (session : CommandSession) : Prop :=
  ∃ calls : List (Nat × Command), calls.map Prod.fst = session.executed.map Prod.fst ∧
    session.midi = .ok ((calls.map Prod.snd).foldl Command.run midi) ∧
    ∀ number, own number calls = script number

variable {session : CommandSession} {cBuff : List UInt8} {midi : MidiState}
  {script : Nat → List Command}

/-- Texts of commands are marked. -/
theorem texts_marked (commands : List Command) :
    ∀ text ∈ commands.map Command.text, Marked isMark text := by
  intro text member
  have ⟨command, _, same⟩ := List.mem_map.mp member
  rw [← same]
  exact command.text_marked

/-- Results that are whole commands serve every client. -/
theorem servedAs_of_whole (kept : session.Kept cBuff midi)
    (size : cBuff.length = commandBufferLength) (idle : session.inHand = none)
    (arrived : ∀ number, session.received number = (script number).flatMap Command.text)
    (whole : ∀ entry ∈ session.executed, ∃ command : Command, entry.2 = command.text) :
    session.ServedAs script midi := by
  have among : session.executed ∈ Set.range
      (List.map fun call : Nat × Command => (call.1, call.2.text)) := by
    rw [Set.range_list_map]
    intro entry member
    have ⟨command, same⟩ := whole entry member
    exact ⟨(entry.1, command), Prod.ext rfl same.symm⟩
  have ⟨calls, made⟩ := among
  refine ⟨calls, ?_, ?_, ?_⟩
  · rw [← made, List.map_map]
    rfl
  · rw [kept.2.handlers, ← made, List.map_map]
    have texts : (Prod.snd ∘ fun call : Nat × Command => (call.1, call.2.text)) =
        Command.text ∘ Prod.snd := rfl
    rw [texts, ← List.map_map]
    exact receiveCommands_texts (calls.map Prod.snd) midi size
  · intro number
    have results := arrived number
    rw [received_idle idle, ← made, own_map, List.flatMap_def] at results
    have same : (own number calls).map Command.text = (script number).map Command.text :=
      marked_injective (texts_marked _) (texts_marked _) results
    exact List.map_injective_iff.mpr (fun _ _ => Command.text_injective) same

/-- Only whole commands serve every client: as many results as commands, each beginning with a
mark, cut what the client has sent at its marks. -/
theorem whole_of_servedAs (kept : session.Kept cBuff midi)
    (size : cBuff.length = commandBufferLength) (idle : session.inHand = none)
    (arrived : ∀ number, session.received number = (script number).flatMap Command.text)
    (served : session.ServedAs script midi) :
    ∀ entry ∈ session.executed, ∃ command : Command, entry.2 = command.text := by
  have ⟨calls, tagged, ran, each⟩ := served
  have handlers := kept.2.handlers
  have begins : ∀ result ∈ session.executed.map Prod.snd, Begins isMark result := by
    cases outcome : receiveCommands cBuff midi (session.executed.map Prod.snd) with
    | error fault =>
      rw [outcome, ran] at handlers
      cases handlers
    | ok after => exact (receiveCommands_ok size outcome).1
  intro entry member
  have results : own entry.1 session.executed = (script entry.1).map Command.text := by
    have sent := arrived entry.1
    rw [received_idle idle, List.flatMap_def] at sent
    apply begins_injective _ (texts_marked (script entry.1)) sent
    · rw [List.length_map, ← each, own_length entry.1 tagged]
    · intro result among
      have labelled := mem_own.mp among
      exact begins result (List.mem_map.mpr ⟨_, labelled, rfl⟩)
  have mine : entry.2 ∈ own entry.1 session.executed := mem_own.mpr member
  rw [results] at mine
  have ⟨command, _, same⟩ := List.mem_map.mp mine
  exact ⟨command, same.symm⟩

/-- When many clients are served: for any number of clients, each with its own list of commands,
that connect, send and close in any order, when all that they have sent has been received and
executed, the handlers have been called with the commands of every client, once each and in its
order, exactly when each result of `recv` was the whole text of one command. -/
theorem clients_served_iff (inherits : Bool) (nServerSocket : Nat) (cBuff : List UInt8)
    (midi : MidiState) (size : cBuff.length = commandBufferLength) (events : List HostEvent)
    (final : CommandSession) (script : Nat → List Command)
    (reached : run (step inherits) (start nServerSocket cBuff midi) events = some final)
    (sent : ∀ number, final.sent number = (script number).flatMap Command.text)
    (arrived : ∀ number, final.received number = final.sent number)
    (idle : final.inHand = none) :
    final.ServedAs script midi ↔
      ∀ entry ∈ final.executed, ∃ command : Command, entry.2 = command.text := by
  have kept : final.Kept cBuff midi :=
    run_invariant (fun _ _ _ kept _ stepped => step_kept kept stepped)
      (start_kept nServerSocket midi size)
      (eachStep_of_forall (fun _ _ => trivial) _ events) reached
  have all : ∀ number, final.received number = (script number).flatMap Command.text :=
    fun number => (arrived number).trans (sent number)
  constructor
  · exact whole_of_servedAs kept size idle all
  · exact servedAs_of_whole kept size idle all

/-- A volume. -/
def quieter : Command :=
  let zero := Int32.ofNat 0
  ⟨setVolumePlace, Int32.ofNat 20, zero, zero, zero⟩

/-- The commands of two clients. -/
def twoScripts : Nat → List Command
  | 0 => channelAndVolume
  | 1 => [quieter]
  | _ => []

/-- The second client is served between the commands of the first. -/
def twoClients : List HostEvent :=
  let receive (command : Command) : List HostEvent :=
    [.server (.recv (.data command.text)), .server .execute, .server (.recv .wouldBlock)]
  [.connect, .server (.select (some {1})), .server .scan, .server .scan,
    .server (.accept (.connection 2)), .connect, .server (.accept (.connection 3)),
    .server (.accept .wouldBlock), .server .scan, .server .check] ++
  (channelAndVolume.take 1).map (fun command => .send (.accepted 2) command.text) ++
  [.send (.accepted 3) quieter.text, .server (.select (some {2, 3})), .server .scan,
    .server .scan, .server .scan] ++
  (channelAndVolume.take 1).flatMap receive ++ [.server .scan] ++ receive quieter ++
  (channelAndVolume.drop 1).map (fun command => .send (.accepted 2) command.text) ++
  [.server .scan, .server .check, .server (.select (some {2})), .server .scan, .server .scan,
    .server .scan] ++
  (channelAndVolume.drop 1).flatMap receive

/-- Where `recv` blocks, the second client is served when the first has closed its end. -/
def twoClientsBlocking : List HostEvent :=
  let receive (command : Command) : List HostEvent :=
    [.server (.recv (.data command.text)), .server .execute]
  [.connect, .connect, .server (.select (some {1})), .server .scan, .server .scan,
    .server (.accept (.connection 2)), .server (.accept (.connection 3)),
    .server (.accept .wouldBlock), .server .scan, .server .check] ++
  (channelAndVolume.take 1).map (fun command => .send (.accepted 2) command.text) ++
  [.send (.accepted 3) quieter.text, .server (.select (some {2, 3})), .server .scan,
    .server .scan, .server .scan] ++
  (channelAndVolume.take 1).flatMap receive ++
  (channelAndVolume.drop 1).map (fun command => .send (.accepted 2) command.text) ++
  (channelAndVolume.drop 1).flatMap receive ++
  [.shut (.accepted 2), .server (.recv (.data [])), .server .close, .server .scan] ++
  receive quieter

/-- The rule at these clients, with sockets of both kinds. -/
theorem clients_served_two :
    let started := start 1 (List.replicate 128 0) ⟨50, [], []⟩
    (∃ final, run (step true) started twoClients = some final ∧
      final.ServedAs twoScripts ⟨50, [], []⟩) ∧
    ∃ final, run (step false) started twoClientsBlocking = some final ∧
      final.ServedAs twoScripts ⟨50, [], []⟩ := by
  intro started
  have served : ∀ inherits events (commands : List Command),
      (run (step inherits) started events).map
        (fun session => (session.connected, session.inHand,
          [session.sent 0, session.received 0, session.sent 1, session.received 1],
          session.executed.map Prod.snd)) =
        some (2, none,
          [channelAndVolume.flatMap Command.text, channelAndVolume.flatMap Command.text,
            quieter.text, quieter.text], commands.map Command.text) →
      ∃ final, run (step inherits) started events = some final ∧
        final.ServedAs twoScripts ⟨50, [], []⟩ := by
    intro inherits events commands evaluated
    have ⟨final, reached, fields⟩ := Option.map_eq_some_iff.mp evaluated
    simp only [Prod.mk.injEq, List.cons.injEq, and_true] at fields
    have ⟨connected, idle, ⟨sent0, received0, sent1, received1⟩, executed⟩ := fields
    have kept : final.Kept (List.replicate 128 0) ⟨50, [], []⟩ :=
      run_invariant (fun _ _ _ kept _ stepped => step_kept kept stepped)
        (start_kept 1 ⟨50, [], []⟩ rfl) (eachStep_of_forall (fun _ _ => trivial) _ events) reached
    have nothing : ∀ number, 2 ≤ number → final.sent number = [] := by
      intro number later
      exact kept.1.silent number (by omega)
    have sent : ∀ number, final.sent number = (twoScripts number).flatMap Command.text := by
      intro number
      match number with
      | 0 => exact sent0
      | 1 => exact sent1.trans (List.append_nil _).symm
      | number + 2 => exact nothing (number + 2) (by omega)
    have arrived : ∀ number, final.received number = final.sent number := by
      intro number
      match number with
      | 0 => rw [received0, sent0]
      | 1 => rw [received1, sent1]
      | number + 2 =>
        have delivered := kept.1.conserves.delivered (number + 2)
        rw [nothing (number + 2) (by omega)] at delivered ⊢
        exact List.prefix_nil.mp delivered
    refine ⟨final, reached, (clients_served_iff inherits 1 (List.replicate 128 0) ⟨50, [], []⟩ rfl
      events final twoScripts reached sent arrived idle).mpr ?_⟩
    intro entry member
    have among : entry.2 ∈ commands.map Command.text := executed ▸ List.mem_map_of_mem member
    have ⟨command, _, same⟩ := List.mem_map.mp among
    exact ⟨command, same.symm⟩
  constructor
  · apply served true twoClients (channelAndVolume.take 1 ++ quieter :: channelAndVolume.drop 1)
    decide +kernel
  · apply served false twoClientsBlocking (channelAndVolume ++ [quieter])
    decide +kernel

end CommandSession

end MidiDaemon
