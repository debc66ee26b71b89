import Mathlib.Algebra.BigOperators.Group.List.Basic
import MidiDaemon.BluetoothServer
import MidiDaemon.Library.Simulation

/-!
# The end of the Bluetooth server

`SIGINT` sets `__io_canceled`, which `main` and every client thread test at the heads of their
loops. What they are in the middle of goes on: `main` may still be inside `accept`, and a thread
inside `recv`. From the signal on each takes a bounded number of steps: `main` accepts and registers
one more connection at most, and each thread receives once more at most (`shutdown_bounded`).
Nothing bounds how long a single call waits.
-/

namespace MidiDaemon

open Machine

/-- How many steps a thread has left once `__io_canceled` is set. -/
def BtStage.stepsLeft : BtStage → Nat
  | .registered => 6
  | .created => 5
  | .preparing | .receiving => 4
  | .looping => 3
  | .closing => 2
  | .freeing => 1
  | .released => 0

/-- How many steps `main` has left, with those of the thread it may yet create. -/
def MainStage.stepsLeft : MainStage → Nat
  | .accepting => 12
  | .searching => 11
  | .storing _ => 10
  | .creating _ => 3
  | .sleeping | .rejecting => 2
  | .looping => 1
  | .exited => 0

/-- `main` may still register the connection it is about. -/
def MainStage.registers : MainStage → Bool
  | .accepting | .searching | .storing _ => true
  | _ => false

namespace BtServer

/-- How many steps the server has left. -/
def stepsLeft (server : BtServer) : Nat :=
  server.main.stepsLeft + (server.clients.map fun client => client.stage.stepsLeft).sum

/-- A step that is none of the signal. -/
def isOwnStep : BtEvent → Bool
  | .signal => false
  | _ => true

/-- `accept` returns. -/
def isAccept : BtEvent → Bool
  | .main (.accept _) => true
  | _ => false

/-- `recv` returns in a thread. -/
def isRecv (index : Nat) : BtEvent → Bool
  | .client other (.recv _) => other = index
  | _ => false

/-- The sum over a list with one entry replaced. -/
theorem sum_set {α : Type*} {list : List α} {index : Nat} {before : α} (after : α)
    (weight : α → Nat) (found : list[index]? = some before) :
    ((list.set index after).map weight).sum + weight before =
      (list.map weight).sum + weight after := by
  induction list generalizing index with
  | nil => cases found
  | cons head rest ih =>
    cases index with
    | zero =>
      have same : head = before := Option.some.inj found
      simp only [List.set_cons_zero, List.map_cons, List.sum_cons, same]
      omega
    | succ index =>
      have later := @ih index found
      simp only [List.set_cons_succ, List.map_cons, List.sum_cons]
      omega

/-- A thread is inside `recv`. -/
def receives (server : BtServer) (index : Nat) : Bool :=
  server.clients[index]?.any fun client => client.stage = .receiving

/-- What a step behind the signal brings the server nearer to. -/
structure Nearer (server : BtServer) (event : BtEvent) (next : BtServer) : Prop where
  /-- There is a step less to go. -/
  fewer : (if isOwnStep event then 1 else 0) + next.stepsLeft ≤ server.stepsLeft
  /-- `main` calls `accept` no more. -/
  accepts : (if isAccept event then 1 else 0) + (next.main = .accepting : Bool).toNat ≤
    (server.main = .accepting : Bool).toNat
  /-- It registers what it is about, and nothing else. -/
  registers : next.clients.length + next.main.registers.toNat ≤
    server.clients.length + server.main.registers.toNat
  /-- No thread calls `recv` again. -/
  receives : ∀ index, (if isRecv index event then 1 else 0) + (next.receives index).toNat ≤
    (server.receives index).toNat
  /-- The signal is not forgotten. -/
  canceled : next.ioCanceled = true

variable {server next : BtServer} {index : Nat}

/-! ## One step behind the signal -/

/-- What a thread does when it finds `__io_canceled` set: it has one step less to go, and does not
call `recv` again. -/
theorem act_canceled {nShared : Int} {client after : BtClient} {event : ClientEvent}
    (acted : client.act nShared true event = some after) :
    after.stage.stepsLeft + 1 ≤ client.stage.stepsLeft ∧ after.stage ≠ .receiving ∧
      (∀ result, event = .recv result → client.stage = .receiving) := by
  cases event with
  | readSocket =>
    simp only [BtClient.act, Option.ite_none_right_eq_some, Option.some.injEq] at acted
    simp [← acted.2, acted.1, BtStage.stepsLeft]
  | prepare done =>
    simp only [BtClient.act, Option.ite_none_right_eq_some] at acted
    obtain ⟨preparing, onward⟩ := acted
    split at onward <;> simp [← Option.some.inj onward, preparing, BtStage.stepsLeft]
  | check =>
    simp only [BtClient.act, Option.ite_none_right_eq_some, Option.some.injEq, if_true] at acted
    simp [← acted.2, acted.1, BtStage.stepsLeft]
  | recv result =>
    simp only [BtClient.act, Option.ite_none_right_eq_some] at acted
    obtain ⟨receiving, onward⟩ := acted
    split at onward
    · simp [← Option.some.inj onward, receiving, BtStage.stepsLeft]
    · simp [← Option.some.inj onward, receiving, BtStage.stepsLeft]
    · simp only [Option.ite_none_right_eq_some, Option.some.injEq] at onward
      simp [← onward.2, receiving, BtStage.stepsLeft]
  | close =>
    simp only [BtClient.act, Option.ite_none_right_eq_some, Option.some.injEq] at acted
    simp [← acted.2, acted.1, BtStage.stepsLeft]
  | setSocketSlotFree =>
    simp only [BtClient.act, Option.ite_none_right_eq_some, Option.some.injEq] at acted
    simp [← acted.2, acted.1, BtStage.stepsLeft]

/-- A step of a thread changes that thread alone, as far as the end of the server goes. -/
theorem clientStep_cases {event : ClientEvent}
    (stepped : server.clientStep index event = some next) :
    ∃ client after, server.clients[index]? = some client ∧
      client.act server.nSporeSocket server.ioCanceled event = some after ∧
      next.clients = server.clients.set index after ∧ next.main = server.main ∧
      next.ioCanceled = server.ioCanceled := by
  have ⟨client, found, rest⟩ := Option.bind_eq_some_iff.mp stepped
  have ⟨after, acted, same⟩ := Option.map_eq_some_iff.mp rest
  refine ⟨client, after, found, acted, ?_⟩
  rw [← same]
  cases event <;> exact ⟨rfl, rfl, rfl⟩

/-- A thread is nearer to its end. -/
theorem clientStep_nearer {event : ClientEvent} (canceled : server.ioCanceled = true)
    (stepped : server.clientStep index event = some next) :
    server.Nearer (.client index event) next := by
  have ⟨client, after, found, acted, clients, main, kept⟩ := clientStep_cases stepped
  rw [canceled] at acted kept
  have ⟨fewer, unreceiving, received⟩ := act_canceled acted
  have inside := (List.getElem?_eq_some_iff.mp found).1
  constructor
  · have balance := sum_set after (fun client => client.stage.stepsLeft) found
    show 1 + next.stepsLeft ≤ server.stepsLeft
    rw [stepsLeft, stepsLeft, main, clients]
    omega
  · rw [main]
    exact Nat.le_of_eq (Nat.zero_add _)
  · rw [main, clients, List.length_set]
  · intro other
    by_cases mine : other = index
    · have silent : next.receives other = false := by
        rw [receives, clients, mine, List.getElem?_set_self inside]
        simp [unreceiving]
      rw [silent, mine]
      by_cases receive : isRecv index (.client index event) = true
      · have before : server.receives index = true := by
          rw [receives, found]
          cases event <;> simp_all [isRecv]
        rw [if_pos receive, before]
        decide
      · rw [if_neg receive]
        exact Nat.zero_le _
    · have untouched : next.receives other = server.receives other := by
        rw [receives, receives, clients, List.getElem?_set_ne (Ne.symm mine)]
      have others : isRecv other (.client index event) = false := by
        cases event <;> simp [isRecv, Ne.symm mine]
      rw [untouched, others]
      exact Nat.le_of_eq (Nat.zero_add _)
  · exact kept

/-- `main` is nearer to its end, and the threads stay where they are. -/
theorem mainStep_nearer_still {event : MainEvent} {stage : MainStage} {nSporeSocket : Int}
    {openFds : Finset Int} (canceled : server.ioCanceled = true)
    (fewer : stage.stepsLeft + 1 ≤ server.main.stepsLeft) (unaccepting : stage ≠ .accepting)
    (accepted : isAccept (.main event) = true → server.main = .accepting)
    (registers : stage.registers = true → server.main.registers = true) :
    server.Nearer (.main event)
      { server with main := stage, nSporeSocket := nSporeSocket, openFds := openFds } where
  fewer := by
    show 1 + (stage.stepsLeft + (server.clients.map fun client => client.stage.stepsLeft).sum) ≤
      server.main.stepsLeft + (server.clients.map fun client => client.stage.stepsLeft).sum
    omega
  accepts := by
    by_cases accepts : isAccept (.main event) = true
    · simp [accepts, unaccepting, accepted accepts]
    · simp [accepts, unaccepting]
  registers := by
    apply Nat.add_le_add_left
    cases before : stage.registers with
    | false => exact Nat.zero_le _
    | true => simp [registers before]
  receives _ := Nat.le_of_eq (Nat.zero_add _)
  canceled := canceled

/-- A step of `main` behind the signal brings it nearer to its end, with at most the thread that
it was about to create. -/
theorem mainStep_nearer {event : MainEvent} (formed : server.WellFormed)
    (canceled : server.ioCanceled = true) (stepped : server.mainStep event = some next) :
    server.Nearer (.main event) next := by
  cases event with
  | check =>
    simp only [mainStep, Option.ite_none_right_eq_some, Option.some.injEq, canceled,
      if_true] at stepped
    rw [← stepped.2, ← canceled]
    apply mainStep_nearer_still canceled <;>
      simp [stepped.1, MainStage.stepsLeft, MainStage.registers, isAccept]
  | accept number =>
    simp only [mainStep, Option.ite_none_right_eq_some] at stepped
    obtain ⟨accepting, onward⟩ := stepped
    split at onward
    · rw [← Option.some.inj onward]
      apply mainStep_nearer_still canceled <;>
        simp [accepting, MainStage.stepsLeft, MainStage.registers]
    · simp only [Option.ite_none_right_eq_some, Option.some.injEq] at onward
      rw [← onward.2]
      apply mainStep_nearer_still canceled <;>
        simp [accepting, MainStage.stepsLeft, MainStage.registers]
  | getFreeClient =>
    simp only [mainStep, Option.ite_none_right_eq_some, Option.some.injEq] at stepped
    rw [← stepped.2]
    apply mainStep_nearer_still canceled
    · rw [stepped.1]
      split <;> simp [MainStage.stepsLeft]
    · split <;> simp
    · simp [isAccept]
    · simp [stepped.1, MainStage.registers]
  | close =>
    simp only [mainStep, Option.ite_none_right_eq_some, Option.some.injEq] at stepped
    rw [← stepped.2]
    apply mainStep_nearer_still canceled <;>
      simp [stepped.1, MainStage.stepsLeft, MainStage.registers, isAccept]
  | sleep =>
    simp only [mainStep, Option.ite_none_right_eq_some, Option.some.injEq] at stepped
    rw [← stepped.2]
    apply mainStep_nearer_still canceled <;>
      simp [stepped.1, MainStage.stepsLeft, MainStage.registers, isAccept]
  | store =>
    simp only [mainStep] at stepped
    split at stepped
    · rename_i nFreeSocketSlot storing
      rw [← Option.some.inj stepped]
      constructor
      · simp only [isOwnStep, if_true, stepsLeft, storing, MainStage.stepsLeft, List.map_append,
          List.sum_append, List.map_singleton, List.sum_singleton, BtStage.stepsLeft]
        omega
      · simp [isAccept, storing]
      · simp [storing, MainStage.registers]
      · intro other
        have same : ∀ thread : BtClient, thread.stage ≠ .receiving →
            ((server.clients ++ [thread])[other]?.any fun client => client.stage = .receiving) =
              server.receives other := by
          intro thread waiting
          rw [receives, Bool.eq_iff_iff, Option.any_eq_true, Option.any_eq_true]
          constructor
          · rintro ⟨client, found, stage⟩
            rcases Entries.concat_cases found with ⟨_, new⟩ | before
            · simp [new, waiting] at stage
            · exact ⟨client, before, stage⟩
          · rintro ⟨client, found, stage⟩
            have early := (List.getElem?_eq_some_iff.mp found).1
            exact ⟨client, by rw [List.getElem?_append_left early, found], stage⟩
        have kept :=
          same ⟨server.nSporeSocket, nFreeSocketSlot, .registered, 0, BtReader.start, false⟩
            (by simp)
        show 0 + Bool.toNat _ ≤ _
        rw [receives, kept, Nat.zero_add]
      · exact canceled
    · cases stepped
  | create done =>
    simp only [mainStep] at stepped
    split at stepped
    · rename_i created creating
      split at stepped
      · obtain ⟨client, found, waiting, _⟩ := formed.creating created creating
        have replaced :
            server.clients.modify created (fun client => { client with stage := .created }) =
              server.clients.set created { client with stage := .created } := by
          rw [List.modify_eq_set_getElem?, found]
          rfl
        have inside := (List.getElem?_eq_some_iff.mp found).1
        rw [← Option.some.inj stepped]
        simp only [replaced]
        constructor
        · have balance := sum_set { client with stage := .created }
            (fun client => client.stage.stepsLeft) found
          have before : client.stage.stepsLeft = 6 := by
            rw [waiting]
            rfl
          have behind :
              BtStage.stepsLeft ({ client with stage := .created } : BtClient).stage = 5 := rfl
          simp only [isOwnStep, if_true, stepsLeft, creating, MainStage.stepsLeft]
          omega
        · simp [isAccept, creating]
        · simp [creating, MainStage.registers]
        · intro other
          show 0 + Bool.toNat _ ≤ _
          rw [Nat.zero_add, receives, receives]
          by_cases mine : other = created
          · simp only [mine, List.getElem?_set_self inside]
            simp
          · simp only [List.getElem?_set_ne (Ne.symm mine)]
            exact Nat.le_refl _
        · exact canceled
      · rw [← Option.some.inj stepped]
        apply mainStep_nearer_still canceled <;>
          simp [creating, MainStage.stepsLeft, MainStage.registers, isAccept]
    · cases stepped

/-- A step behind the signal brings the server nearer to its end. -/
theorem step_nearer {event : BtEvent} (formed : server.WellFormed)
    (canceled : server.ioCanceled = true) (stepped : step server event = some next) :
    server.Nearer event next := by
  unfold step at stepped
  split at stepped
  · cases stepped
  · cases event with
    | signal =>
      rw [← Option.some.inj stepped]
      constructor
      · exact Nat.le_of_eq (Nat.zero_add _)
      · exact Nat.le_of_eq (Nat.zero_add _)
      · exact Nat.le_refl _
      · exact fun _ => Nat.le_of_eq (Nat.zero_add _)
      · rfl
    | main event => exact mainStep_nearer formed canceled stepped
    | client index event => exact clientStep_nearer canceled stepped

/-! ## Runs behind the signal -/

/-- What every step behind the signal keeps. -/
def Canceled (server : BtServer) : Prop := server.WellFormed ∧ server.ioCanceled = true

/-- Every step behind the signal keeps it. -/
theorem step_canceled (server : BtServer) (event : BtEvent) (next : BtServer)
    (canceled : server.Canceled) (stepped : step server event = some next) : next.Canceled :=
  ⟨step_wellFormed canceled.1 stepped, (step_nearer canceled.1 canceled.2 stepped).canceled⟩

/-- A server that cannot take a step has ended. -/
theorem ended_of_stuck (stuck : ∀ event, isOwnStep event = true → step server event = none) :
    server.main = .exited := by
  by_contra running
  have refused : ∀ event, server.mainStep event = none := by
    intro event
    have stepped := stuck (.main event) rfl
    rwa [step, if_neg running] at stepped
  cases stage : server.main with
  | looping => simpa [mainStep, stage] using refused .check
  | accepting => simpa [mainStep, stage] using refused (.accept (-1))
  | searching => simpa [mainStep, stage] using refused .getFreeClient
  | rejecting => simpa [mainStep, stage] using refused .close
  | storing nFreeSocketSlot => simpa [mainStep, stage] using refused .store
  | creating index => simpa [mainStep, stage] using refused (.create true)
  | sleeping => simpa [mainStep, stage] using refused .sleep
  | exited => exact running stage

/-- The steps that are left, of at most twelve for `main` and six for each thread. -/
theorem stepsLeft_le (server : BtServer) :
    server.stepsLeft ≤ 12 + 6 * server.clients.length := by
  have threads : ∀ clients : List BtClient,
      (clients.map fun client => client.stage.stepsLeft).sum ≤ 6 * clients.length := by
    intro clients
    induction clients with
    | nil => exact Nat.le_refl _
    | cons client rest ih =>
      have first : client.stage.stepsLeft ≤ 6 := by cases client.stage <;> decide
      rw [List.map_cons, List.sum_cons, List.length_cons]
      omega
  have main : server.main.stepsLeft ≤ 12 := by
    cases server.main <;> simp [MainStage.stepsLeft]
  have bound := threads server.clients
  rw [stepsLeft]
  omega

/-- The server ends in a bounded number of steps. In every run, whatever the calls return: once
`__io_canceled` is set, the server takes no more steps than twelve and six for each thread, apart
from further signals; `main` returns from `accept` once at most and registers one connection at
most; no thread returns from `recv` more than once; and where nothing can go on `main` has ended
the process. -/
theorem shutdown_bounded (nSporeSocket : Int) (openFds : Finset Int) (events later : List BtEvent)
    (server final : BtServer) (reached : run step (start nSporeSocket openFds) events = some server)
    (canceled : server.ioCanceled = true) (onward : run step server later = some final) :
    later.countP isOwnStep ≤ 12 + 6 * server.clients.length ∧
      later.countP isAccept ≤ 1 ∧ final.clients.length ≤ server.clients.length + 1 ∧
      (∀ index, later.countP (isRecv index) ≤ 1) ∧
      ((∀ event, isOwnStep event = true → step final event = none) → final.main = .exited) := by
  have formed : server.WellFormed :=
    run_invariant (fun _ _ _ formed _ stepped => step_wellFormed formed stepped)
      (start_wellFormed nSporeSocket openFds)
      (eachStep_of_forall (fun _ _ => trivial) _ events) reached
  have initially : server.Canceled := ⟨formed, canceled⟩
  refine ⟨?_, ?_, ?_, fun index => ?_, ended_of_stuck⟩
  · have paid := run_countP step_canceled (fun server event next canceled stepped =>
      (step_nearer canceled.1 canceled.2 stepped).fewer) initially onward
    have bound := stepsLeft_le server
    omega
  · have paid := run_countP step_canceled (fun server event next canceled stepped =>
      (step_nearer canceled.1 canceled.2 stepped).accepts) initially onward
    have bound := Bool.toNat_le (server.main = .accepting : Bool)
    omega
  · have kept : ∀ (before : BtServer) (event : BtEvent) (next : BtServer),
        (before.Canceled ∧ before.clients.length + before.main.registers.toNat ≤
          server.clients.length + server.main.registers.toNat) → True →
        step before event = some next →
        next.Canceled ∧ next.clients.length + next.main.registers.toNat ≤
          server.clients.length + server.main.registers.toNat := by
      intro before event next both _ stepped
      have nearer := (step_nearer both.1.1 both.1.2 stepped).registers
      exact ⟨step_canceled before event next both.1 stepped, nearer.trans both.2⟩
    have ⟨_, count⟩ := run_invariant kept ⟨initially, Nat.le_refl _⟩
      (eachStep_of_forall (fun _ _ => trivial) _ later) onward
    have bound := Bool.toNat_le server.main.registers
    omega
  · have paid := run_countP step_canceled (fun server event next canceled stepped =>
      (step_nearer canceled.1 canceled.2 stepped).receives index) initially onward
    have bound := Bool.toNat_le (server.receives index)
    omega

/-- The rule at a server that is signalled inside `accept`, with one thread inside `recv`. -/
theorem shutdown_bounded_one :
    ∃ server final, run step (start 0 ∅)
        (registering 7 ++ [.client 0 .readSocket, .client 0 (.prepare true), .client 0 .check,
          .main .sleep, .main .check, .signal]) = some server ∧
      run step server [.client 0 (.recv (.data [48])), .main (.accept 8), .main .getFreeClient,
        .main .store, .main (.create true), .client 0 .check, .main .sleep, .main .check] =
          some final ∧
      final.clients.length ≤ server.clients.length + 1 ∧ final.main = .exited := by
  let events : List BtEvent := registering 7 ++ [.client 0 .readSocket, .client 0 (.prepare true),
    .client 0 .check, .main .sleep, .main .check, .signal]
  let later : List BtEvent := [.client 0 (.recv (.data [48])), .main (.accept 8),
    .main .getFreeClient, .main .store, .main (.create true), .client 0 .check, .main .sleep,
    .main .check]
  have first : (run step (start 0 ∅) events).map ioCanceled = some true := by decide
  have ⟨server, reached, canceled⟩ := Option.map_eq_some_iff.mp first
  have second : (run step (start 0 ∅) (events ++ later)).map main = some .exited := by decide
  have ⟨final, whole, ended⟩ := Option.map_eq_some_iff.mp second
  rw [run_append, reached] at whole
  have bounds := shutdown_bounded 0 ∅ events later server final reached canceled whole
  exact ⟨server, final, reached, whole, bounds.2.2.1, ended⟩

end BtServer

end MidiDaemon
