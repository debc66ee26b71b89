import Mathlib.Order.Lattice.Nat
import MidiDaemon.CommandServer

/-!
# Ready descriptors are served once

Between two calls of `select`, `updateMidiAttr` counts through the descriptors and serves those
that were ready: it accepts on the listening socket and receives from a client. On the way it
raises the maximum for a connection and lowers it for a client that is closed, and it stops early
when as many have been served as `select` has counted.

A descriptor that was ready and is still to come is in the master set, since only the one that is
being served is closed, so the maximum never falls below it. And a number that is accepted in this
pass was not open, so it is none of those to come. Each ready descriptor is served once, in order,
and no other (`pass_serves_once`).
-/

namespace MidiDaemon

open Machine

namespace CommandServer

/-- The descriptor that a step turns to, to accept on it or to receive from it. -/
def turnedTo (server next : CommandServer) : Option Nat :=
  if server.stage = .scanning ∧ (next.stage = .accepting ∨ next.stage = .receiving) then
    some server.nFdIndex
  else none

/-- The descriptors that are served in a run, in order. -/
def served (server : CommandServer) : List CommandEvent → List Nat
  | [] => []
  | event :: rest =>
    match server.step event with
    | some next => (turnedTo server next).toList ++ served next rest
    | none => []

/-- The descriptors below this one have been dealt with. -/
def dealtWith (server : CommandServer) : Nat :=
  if server.stage = .scanning ∨ server.stage = .checking then server.nFdIndex
  else server.nFdIndex + 1

/-- How far the server is in a pass over these descriptors: it has served `done` in `rounds` rounds
of the loop. -/
structure InPass (ready : Finset Nat) (done : List Nat) (rounds : Nat) (server : CommandServer) :
    Prop where
  /-- The descriptors are booked. -/
  tracked : server.Tracked
  /-- The server is in its loop over the descriptors, or just behind it. -/
  stage : server.stage.scans ∨ server.stage = .checking
  /-- The ready descriptors are those that `select` has marked. -/
  working : server.tWorkingFdSet = ready
  /-- Those below the one it is at have been served. -/
  passed : done = (List.range server.dealtWith).filter (· ∈ ready)
  /-- The others are counted. -/
  left : server.nReadyFd = (ready.filter (server.dealtWith ≤ ·)).card
  /-- It does not go far behind the last of them. -/
  below : server.dealtWith ≤ ready.sup id + 1
  /-- Each round deals with a descriptor, or ends the loop. -/
  counted : rounds = server.dealtWith + if server.stage = .checking then 1 else 0
  /-- Behind the loop there is none left. -/
  complete : server.stage = .checking → ∀ fd ∈ ready, fd < server.dealtWith

/-- The count falls by one at a ready descriptor. -/
theorem card_left (ready : Finset Nat) (place : Nat) :
    (ready.filter (place ≤ ·)).card =
      (ready.filter (place + 1 ≤ ·)).card + if place ∈ ready then 1 else 0 := by
  have apart : place ∉ ready.filter (place + 1 ≤ ·) := by simp
  by_cases member : place ∈ ready
  · have grown : ready.filter (place ≤ ·) = insert place (ready.filter (place + 1 ≤ ·)) := by
      ext fd
      simp only [Finset.mem_filter, Finset.mem_insert]
      constructor
      · rintro ⟨inside, reached⟩
        by_cases same : fd = place
        · exact .inl same
        · exact .inr ⟨inside, by omega⟩
      · rintro (rfl | ⟨inside, beyond⟩)
        · exact ⟨member, Nat.le_refl _⟩
        · exact ⟨inside, by omega⟩
    rw [grown, Finset.card_insert_of_notMem apart, if_pos member]
  · have same : ready.filter (place ≤ ·) = ready.filter (place + 1 ≤ ·) := by
      apply Finset.filter_congr
      intro fd inside
      have other : fd ≠ place := fun same => member (same ▸ inside)
      omega
    rw [if_neg member, same]
    exact (Nat.add_zero _).symm

variable {ready : Finset Nat} {done : List Nat} {rounds : Nat} {server next : CommandServer}

/-- A pass begins at the first descriptor. -/
theorem select_inPass (tracked : server.Tracked)
    (selected : server.step (.select (some ready)) = some next) : InPass ready [] 0 next := by
  have onward := step_tracked tracked selected
  simp only [step, Option.ite_none_right_eq_some, Option.some.injEq] at selected
  obtain ⟨-, rfl⟩ := selected
  exact {
    tracked := onward
    stage := .inl rfl
    working := rfl
    passed := rfl
    left := by simp [dealtWith]
    below := Nat.zero_le _
    counted := rfl
    complete := fun checking => by cases checking }

/-- A step inside the service of a descriptor keeps what has been dealt with. -/
theorem InPass.serve (inPass : InPass ready done rounds server) (tracked : next.Tracked)
    (serving : server.stage ≠ .scanning ∧ server.stage ≠ .checking)
    (scans : next.stage.scans) (working : next.tWorkingFdSet = server.tWorkingFdSet)
    (left : next.nReadyFd = server.nReadyFd) (place : next.dealtWith = server.dealtWith) :
    InPass ready (done ++ (turnedTo server next).toList) rounds next := by
  have unturned : turnedTo server next = none := if_neg fun turned => serving.1 turned.1
  have looping : next.stage ≠ .checking := by
    intro checking
    rw [checking] at scans
    cases scans
  have counted := inPass.counted
  rw [if_neg serving.2] at counted
  rw [unturned, Option.toList_none, List.append_nil]
  exact {
    tracked := tracked
    stage := .inl scans
    working := working.trans inPass.working
    passed := by rw [place, inPass.passed]
    left := by rw [left, place, inPass.left]
    below := by rw [place]; exact inPass.below
    counted := by rw [place, if_neg looping, counted]
    complete := fun checking => absurd checking looping }

/-- In front of a round of the loop, the descriptors below the one it is at are dealt with. -/
theorem dealtWith_scanning (scanning : server.stage = .scanning) :
    server.dealtWith = server.nFdIndex := if_pos (.inl scanning)

/-- A round deals with one more descriptor, and turns to it when it is a ready one. -/
theorem InPass.round (inPass : InPass ready done rounds server)
    (scanning : server.stage = .scanning)
    (some_left : 0 < server.nReadyFd) (tracked : next.Tracked) (scans : next.stage.scans)
    (working : next.tWorkingFdSet = server.tWorkingFdSet)
    (behind : next.dealtWith = server.nFdIndex + 1)
    (left : next.nReadyFd + (if server.nFdIndex ∈ ready then 1 else 0) = server.nReadyFd)
    (turned : (turnedTo server next).toList =
      if server.nFdIndex ∈ ready then [server.nFdIndex] else []) :
    InPass ready (done ++ (turnedTo server next).toList) (rounds + 1) next := by
  have place := dealtWith_scanning scanning
  have looping : next.stage ≠ .checking := by
    intro checking
    rw [checking] at scans
    cases scans
  have counted := inPass.counted
  rw [scanning, if_neg (by decide), place, Nat.add_zero] at counted
  have passed := inPass.passed
  have remaining := inPass.left
  rw [place] at passed remaining
  have split := card_left ready server.nFdIndex
  exact {
    tracked := tracked
    stage := .inl scans
    working := working.trans inPass.working
    passed := by
      -- The range that has been dealt with grows by the descriptor the loop is at.
      rw [turned, behind, List.range_succ, List.filter_append, passed]
      by_cases member : server.nFdIndex ∈ ready <;> simp [member]
    left := by
      rw [behind]
      omega
    below := by
      -- A ready descriptor is left, so the largest is not below this one.
      have waiting : 0 < (ready.filter (server.nFdIndex ≤ ·)).card := by omega
      obtain ⟨fd, member⟩ := Finset.card_pos.mp waiting
      obtain ⟨inside, later⟩ := Finset.mem_filter.mp member
      have bound : fd ≤ ready.sup id := Finset.le_sup (f := id) inside
      rw [behind]
      omega
    counted := by rw [behind, if_neg looping, counted]
    complete := fun checking => absurd checking looping }

/-- The loop ends when it has passed the maximum, or no ready descriptor is left. -/
theorem InPass.stop (inPass : InPass ready done rounds server) (scanning : server.stage = .scanning)
    (stopping : ¬ (server.nFdIndex ≤ server.nMaxSocketFd ∧ 0 < server.nReadyFd))
    (tracked : ({ server with stage := .checking } : CommandServer).Tracked) :
    InPass ready done (rounds + 1) { server with stage := .checking } := by
  have place := dealtWith_scanning scanning
  have behind : ({ server with stage := .checking } : CommandServer).dealtWith = server.nFdIndex :=
    if_pos (.inr rfl)
  have scans : server.stage.scans := by
    rw [scanning]
    rfl
  have counted := inPass.counted
  rw [scanning, if_neg (by decide), place, Nat.add_zero] at counted
  have passed := inPass.passed
  have left := inPass.left
  have below := inPass.below
  rw [place] at passed left below
  exact {
    tracked := tracked
    stage := .inr rfl
    working := inPass.working
    passed := by rw [behind, passed]
    left := by rw [behind, ← left]
    below := by
      rw [behind]
      exact below
    counted := by
      rw [behind, counted]
      rfl
    complete := fun _ fd member => by
      rw [behind]
      by_contra later
      have reached : server.nFdIndex ≤ fd := Nat.le_of_not_lt later
      -- A ready descriptor that is left is counted, and the maximum is not below it.
      have waiting : fd ∈ ready.filter (server.nFdIndex ≤ ·) :=
        Finset.mem_filter.mpr ⟨member, reached⟩
      have positive := Finset.card_pos.mpr ⟨fd, waiting⟩
      have contained := inPass.tracked.ahead scans fd (inPass.working ▸ member) reached
      have bound := inPass.tracked.greatest.2 (Finset.mem_coe.mpr contained)
      apply stopping
      exact ⟨Nat.le_trans reached bound, by omega⟩ }

/-- A round of the loop serves the descriptor it is at when this is a ready one, goes on to the
next otherwise, and ends the loop when no ready one is left. -/
theorem InPass.scan (inPass : InPass ready done rounds server)
    (stepped : server.step .scan = some next) :
    InPass ready (done ++ (turnedTo server next).toList) (rounds + 1) next := by
  have tracked := step_tracked inPass.tracked stepped
  simp only [step, Option.ite_none_right_eq_some] at stepped
  obtain ⟨scanning, onward⟩ := stepped
  split at onward
  · rename_i going
    split at onward
    · rename_i found
      obtain rfl := Option.some.inj onward
      rw [inPass.working] at found
      obtain ⟨stage, chosen, busy⟩ : ∃ stage, (if server.nFdIndex = server.nServerSocket then
          CommandStage.accepting else .receiving) = stage ∧
            (stage = .accepting ∨ stage = .receiving) :=
        ⟨_, rfl, by split <;> simp⟩
      rw [chosen] at tracked ⊢
      have looping : stage ≠ .scanning ∧ stage ≠ .checking := by
        rcases busy with rfl | rfl <;> decide
      apply inPass.round scanning going.2 tracked
      · rcases busy with rfl | rfl <;> rfl
      · rfl
      · exact if_neg (not_or.mpr looping)
      · rw [if_pos found]
        exact Nat.sub_add_cancel going.2
      · rw [if_pos found, turnedTo, if_pos ⟨scanning, busy⟩]
        rfl
    · rename_i missing
      obtain rfl := Option.some.inj onward
      rw [inPass.working] at missing
      have unturned : turnedTo server server.advance = none :=
        if_neg fun turned => turned.2.elim (fun other => by cases other) fun other => by cases other
      apply inPass.round scanning going.2 tracked
      · rfl
      · rfl
      · exact dealtWith_scanning rfl
      · rw [if_neg missing]
        rfl
      · rw [if_neg missing, unturned]
        rfl
  · rename_i stopping
    obtain rfl := Option.some.inj onward
    have unturned : turnedTo server { server with stage := .checking } = none :=
      if_neg fun turned => turned.2.elim (fun other => by cases other) fun other => by cases other
    rw [unturned, Option.toList_none, List.append_nil]
    exact inPass.stop scanning stopping tracked

/-- Inside the service of a descriptor it is dealt with. -/
theorem dealtWith_serving (serving : server.stage ≠ .scanning ∧ server.stage ≠ .checking) :
    server.dealtWith = server.nFdIndex + 1 := if_neg (not_or.mpr serving)

/-- The service of a descriptor ends with the step to the next one. -/
theorem advance_dealtWith (serving : server.stage ≠ .scanning ∧ server.stage ≠ .checking) :
    server.advance.dealtWith = server.dealtWith := by
  have behind : server.advance.dealtWith = server.nFdIndex + 1 := if_pos (.inl rfl)
  rw [behind, dealtWith_serving serving]

/-- Every step of a pass serves what it turns to, and no round serves another. -/
theorem step_inPass {event : CommandEvent} (inPass : InPass ready done rounds server)
    (inside : event ≠ .check) (stepped : server.step event = some next) :
    InPass ready (done ++ (turnedTo server next).toList)
      (rounds + if event = .scan then 1 else 0) next := by
  have tracked := step_tracked inPass.tracked stepped
  cases event with
  | signal =>
    obtain rfl := Option.some.inj stepped
    have unturned : turnedTo server { server with ioCanceled := true } = none := by
      apply if_neg
      rintro ⟨scanning, turned⟩
      have same : server.stage = .accepting ∨ server.stage = .receiving := turned
      rw [scanning] at same
      rcases same with same | same <;> cases same
    rw [unturned, Option.toList_none, List.append_nil]
    exact { inPass with tracked := tracked }
  | select outcome =>
    have selecting : server.stage = .selecting := by
      cases outcome <;> simp only [step, Option.ite_none_right_eq_some] at stepped
      · exact stepped.1
      · exact stepped.1.1
    have stage := inPass.stage
    rw [selecting] at stage
    rcases stage with stage | stage <;> cases stage
  | scan => exact inPass.scan stepped
  | accept result =>
    simp only [step, Option.ite_none_right_eq_some] at stepped
    obtain ⟨accepting, onward⟩ := stepped
    have serving : server.stage ≠ .scanning ∧ server.stage ≠ .checking := by
      rw [accepting]
      decide
    cases result with
    | connection nClientSocket =>
      simp only [Option.ite_none_left_eq_some, Option.some.injEq] at onward
      obtain ⟨-, rfl⟩ := onward
      have scans : (server.addClient nClientSocket).stage.scans := by
        show server.stage.scans
        rw [accepting]
        rfl
      exact inPass.serve tracked serving scans rfl rfl rfl
    | wouldBlock | failed =>
      obtain rfl := Option.some.inj onward
      exact inPass.serve tracked serving rfl rfl rfl (advance_dealtWith serving)
  | recv result =>
    simp only [step, Option.ite_none_right_eq_some] at stepped
    obtain ⟨receiving, onward⟩ := stepped
    have serving : server.stage ≠ .scanning ∧ server.stage ≠ .checking := by
      rw [receiving]
      decide
    have here := dealtWith_serving serving
    split at onward
    · obtain rfl := Option.some.inj onward
      exact inPass.serve tracked serving rfl rfl rfl (by rw [here]; rfl)
    · obtain rfl := Option.some.inj onward
      exact inPass.serve tracked serving rfl rfl rfl (by rw [here]; rfl)
    · obtain rfl := Option.some.inj onward
      exact inPass.serve tracked serving rfl rfl rfl (advance_dealtWith serving)
    · simp only [Option.ite_none_right_eq_some, Option.some.injEq] at onward
      obtain ⟨-, rfl⟩ := onward
      exact inPass.serve tracked serving rfl rfl rfl (by rw [here]; rfl)
  | execute =>
    simp only [step, Option.ite_none_right_eq_some, Option.some.injEq] at stepped
    obtain ⟨executing, rfl⟩ := stepped
    have serving : server.stage ≠ .scanning ∧ server.stage ≠ .checking := by
      rw [executing]
      decide
    have here := dealtWith_serving serving
    exact inPass.serve tracked serving rfl rfl rfl (by rw [here]; rfl)
  | close =>
    simp only [step, Option.ite_none_right_eq_some, Option.some.injEq] at stepped
    obtain ⟨closing, rfl⟩ := stepped
    have serving : server.stage ≠ .scanning ∧ server.stage ≠ .checking := by
      rw [closing]
      decide
    obtain ⟨nMaxSocketFd, closed⟩ := closeClient_eq tracked.lowered
    rw [closed] at tracked ⊢
    exact inPass.serve tracked serving rfl rfl rfl (advance_dealtWith serving)
  | check => exact absurd rfl inside
  | cleanUp =>
    simp only [step, Option.ite_none_right_eq_some] at stepped
    have stage := inPass.stage
    rw [stepped.1] at stage
    rcases stage with stage | stage <;> cases stage

/-- A pass serves what it has dealt with, whatever happens in it. -/
theorem run_inPass {final : CommandServer} {pass : List CommandEvent}
    (inPass : InPass ready done rounds server) (inside : .check ∉ pass)
    (passed : run step server pass = some final) :
    InPass ready (done ++ served server pass) (rounds + pass.count .scan) final := by
  induction pass generalizing server done rounds with
  | nil =>
    obtain rfl := Option.some.inj passed
    rw [served, List.append_nil]
    exact inPass
  | cons event rest ih =>
    obtain ⟨next, stepped, onward⟩ := Option.bind_eq_some_iff.mp passed
    obtain ⟨here, later⟩ := not_or.mp (mt List.mem_cons.mpr inside)
    have step := step_inPass inPass (Ne.symm here) stepped
    have final_pass := ih step later onward
    have round : (event :: rest).count .scan =
        (if event = .scan then 1 else 0) + rest.count .scan := by
      rw [List.count_cons, Nat.add_comm]
      simp only [beq_iff_eq]
    rw [served, stepped, round, ← Nat.add_assoc, ← List.append_assoc]
    exact final_pass

/-- Ready descriptors are served once. From any state in which a run of the server calls
`select`, for any descriptors that it reports ready and any accepts, closes and signals in the pass:
none is served twice and none that was not ready, all are served when the pass is over, and the loop
takes no more rounds than there are descriptors up to the largest of them, with one to end it. -/
theorem pass_serves_once (nServerSocket : Nat) (earlier pass : List CommandEvent)
    (ready : Finset Nat) (server selected final : CommandServer)
    (reached : run step (start nServerSocket) earlier = some server)
    (reported : server.step (.select (some ready)) = some selected)
    (passed : run step selected pass = some final) (inside : .check ∉ pass) :
    (served selected pass).Nodup ∧ (∀ fd ∈ served selected pass, fd ∈ ready) ∧
      (final.stage = .checking → ∀ fd ∈ ready, fd ∈ served selected pass) ∧
      pass.count .scan ≤ ready.sup id + 2 := by
  have tracked : server.Tracked :=
    run_invariant (fun _ _ _ tracked _ stepped => step_tracked tracked stepped)
      (start_tracked nServerSocket)
      (eachStep_of_forall (fun _ _ => trivial) (start nServerSocket) earlier) reached
  have inPass := run_inPass (select_inPass tracked reported) inside passed
  have done := inPass.passed
  rw [List.nil_append] at done
  refine ⟨?_, fun fd member => ?_, fun checking fd member => ?_, ?_⟩
  · rw [done]
    exact List.nodup_range.filter _
  · rw [done, List.mem_filter] at member
    exact of_decide_eq_true member.2
  · rw [done, List.mem_filter, List.mem_range]
    exact ⟨inPass.complete checking fd member, decide_eq_true member⟩
  · have counted := inPass.counted
    have below := inPass.below
    rw [Nat.zero_add] at counted
    rw [counted]
    split <;> omega

/-- The rule where the listening socket and a client are ready, a connection gets a number between
theirs, and the client is closed. -/
theorem pass_serves_once_closed :
    let earlier : List CommandEvent := .select (some {3}) :: (List.replicate 4 .scan ++
      [.accept (.connection 5), .accept .wouldBlock, .scan, .check])
    let pass : List CommandEvent := List.replicate 4 .scan ++
      [.accept (.connection 4), .accept .wouldBlock, .scan, .scan, .recv (.data []), .close, .scan]
    let server := (run step (start 3) earlier).getD (start 3)
    let selected := (server.step (.select (some {3, 5}))).getD server
    (served selected pass).Nodup ∧ (∀ fd ∈ served selected pass, fd ∈ ({3, 5} : Finset Nat)) ∧
      (∀ fd ∈ ({3, 5} : Finset Nat), fd ∈ served selected pass) ∧
      pass.count .scan ≤ ({3, 5} : Finset Nat).sup id + 2 := by
  intro earlier pass server selected
  obtain ⟨once, only, all, rounds⟩ := pass_serves_once 3 earlier pass {3, 5} server selected
    ((run step selected pass).getD selected) rfl rfl rfl (by simp [pass])
  exact ⟨once, only, all rfl, rounds⟩

end CommandServer

end MidiDaemon
