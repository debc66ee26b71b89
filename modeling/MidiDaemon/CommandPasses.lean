import MidiDaemon.CommandSessions
import MidiDaemon.Library.Simulation
import MidiDaemon.ReadyDescriptors

/-!
# What a pass leaves behind

A pass of the command server begins when `select` reports ready descriptors and ends with the test
of `__io_canceled`. The server receives from a ready client until nothing is left, and accepts from
the backlog until nobody is queued. So what was there when `select` returned has been taken when the
pass is over (`pass_drains`), whatever the clients do meanwhile, unless the receiving or the
accepting has failed. What comes during the pass may be left to the next one. A pass need not end:
a client that keeps sending keeps the server.
-/

namespace MidiDaemon

open Machine Channels Interference

namespace CommandServer

/-- The server has yet to serve a descriptor in this pass, or is not through with it. -/
def Awaits (server : CommandServer) (fd : Nat) : Prop :=
  server.dealtWith ≤ fd ∨ server.nFdIndex = fd ∧
    (server.stage = .accepting ∨ server.stage = .receiving ∨ server.stage = .executing)

/-- A result by which the server is through with a descriptor. -/
def Finishes : CommandEvent → Prop
  | .accept .wouldBlock | .accept .failed => True
  | .recv .wouldBlock | .recv .failed | .recv (.data []) => True
  | _ => False

variable {ready : Finset Nat} {done : List Nat} {rounds fd : Nat} {server next : CommandServer}

/-- What a pass has yet to do is kept by a step that deals with no further descriptor. -/
theorem awaits_kept (place : next.dealtWith = server.dealtWith)
    (index : next.nFdIndex = server.nFdIndex)
    (stage : next.stage = .accepting ∨ next.stage = .receiving ∨ next.stage = .executing)
    (awaits : server.Awaits fd) : next.Awaits fd := by
  rcases awaits with later | ⟨here, _⟩
  · left
    omega
  · right
    exact ⟨by omega, stage⟩

/-- Going on to the next descriptor leaves those behind it. -/
theorem awaits_advance (serving : server.stage ≠ .scanning ∧ server.stage ≠ .checking)
    (apart : server.nFdIndex ≠ fd) (awaits : server.Awaits fd) : server.advance.Awaits fd := by
  have later : server.dealtWith ≤ fd := awaits.resolve_right fun here => apart here.1
  left
  rw [advance_dealtWith serving]
  exact later

/-- A ready descriptor is awaited until a result finishes with it. -/
theorem step_awaits {event : CommandEvent} (inPass : InPass ready done rounds server)
    (inside : event ≠ .check) (member : fd ∈ ready) (awaits : server.Awaits fd)
    (stepped : server.step event = some next) :
    next.Awaits fd ∨ server.nFdIndex = fd ∧ Finishes event := by
  cases event with
  | signal =>
    have same := Option.some.inj stepped
    rw [← same]
    exact .inl awaits
  | select outcome =>
    have selecting : server.stage = .selecting := by
      cases outcome <;> simp only [step, Option.ite_none_right_eq_some] at stepped
      · exact stepped.1
      · exact stepped.1.1
    have stage := inPass.stage
    rw [selecting] at stage
    rcases stage with stage | stage <;> cases stage
  | scan =>
    left
    simp only [step, Option.ite_none_right_eq_some] at stepped
    have scanning := stepped.1
    have onward := stepped.2
    have place := dealtWith_scanning scanning
    have later : server.nFdIndex ≤ fd := by
      rcases awaits with later | here
      · omega
      · exact Nat.le_of_eq here.1
    split at onward
    · split at onward
      · have same := Option.some.inj onward
        rw [← same]
        by_cases here : server.nFdIndex = fd
        · right
          refine ⟨here, ?_⟩
          show (if server.nFdIndex = server.nServerSocket then CommandStage.accepting
            else .receiving) = .accepting ∨ _
          split
          · exact .inl rfl
          · exact .inr (.inl rfl)
        · left
          have behind : dealtWith { server with
              stage := if server.nFdIndex = server.nServerSocket then .accepting else .receiving
              nReadyFd := server.nReadyFd - 1 } = server.nFdIndex + 1 := by
            apply dealtWith_serving
            split <;> simp
          omega
      · rename_i missing
        have same := Option.some.inj onward
        have apart : server.nFdIndex ≠ fd := by
          intro here
          apply missing
          rw [inPass.working, here]
          exact member
        have behind : server.advance.dealtWith = server.nFdIndex + 1 := dealtWith_scanning rfl
        rw [← same]
        left
        omega
    · have same := Option.some.inj onward
      have behind : ({ server with stage := .checking } : CommandServer).dealtWith =
          server.nFdIndex := if_pos (.inr rfl)
      rw [← same]
      left
      omega
  | accept result =>
    simp only [step, Option.ite_none_right_eq_some] at stepped
    have accepting := stepped.1
    have onward := stepped.2
    have serving : server.stage ≠ .scanning ∧ server.stage ≠ .checking := by
      rw [accepting]
      decide
    cases result with
    | connection nClientSocket =>
      simp only [Option.ite_none_left_eq_some, Option.some.injEq] at onward
      rw [← onward.2]
      exact .inl (awaits_kept rfl rfl (.inl accepting) awaits)
    | wouldBlock | failed =>
      have same := Option.some.inj onward
      by_cases here : server.nFdIndex = fd
      · exact .inr ⟨here, trivial⟩
      · rw [← same]
        exact .inl (awaits_advance serving here awaits)
  | recv result =>
    simp only [step, Option.ite_none_right_eq_some] at stepped
    have receiving := stepped.1
    have onward := stepped.2
    have serving : server.stage ≠ .scanning ∧ server.stage ≠ .checking := by
      rw [receiving]
      decide
    have here := dealtWith_serving serving
    have closing : ({ server with stage := .closing } : CommandServer).dealtWith =
        server.nFdIndex + 1 := dealtWith_serving (by simp)
    by_cases mine : server.nFdIndex = fd
    · split at onward
      · exact .inr ⟨mine, trivial⟩
      · exact .inr ⟨mine, trivial⟩
      · exact .inr ⟨mine, trivial⟩
      · simp only [Option.ite_none_right_eq_some, Option.some.injEq] at onward
        rw [← onward.2]
        exact .inl (.inr ⟨mine, .inr (.inr rfl)⟩)
    · left
      have later : server.dealtWith ≤ fd := awaits.resolve_right fun here => mine here.1
      split at onward
      · have same := Option.some.inj onward
        rw [← same]
        left
        omega
      · have same := Option.some.inj onward
        rw [← same]
        left
        omega
      · have same := Option.some.inj onward
        rw [← same]
        exact awaits_advance serving mine awaits
      · simp only [Option.ite_none_right_eq_some, Option.some.injEq] at onward
        rw [← onward.2]
        left
        have executing : ({ server with stage := .executing } : CommandServer).dealtWith =
            server.nFdIndex + 1 := dealtWith_serving (by simp)
        omega
  | execute =>
    simp only [step, Option.ite_none_right_eq_some, Option.some.injEq] at stepped
    have executing := stepped.1
    have serving : server.stage ≠ .scanning ∧ server.stage ≠ .checking := by
      rw [executing]
      decide
    have here := dealtWith_serving serving
    have again : ({ server with stage := .receiving } : CommandServer).dealtWith =
        server.nFdIndex + 1 := dealtWith_serving (by simp)
    rw [← stepped.2]
    exact .inl (awaits_kept (again.trans here.symm) rfl (.inr (.inl rfl)) awaits)
  | close =>
    have tracked := step_tracked inPass.tracked stepped
    simp only [step, Option.ite_none_right_eq_some, Option.some.injEq] at stepped
    have closing := stepped.1
    have serving : server.stage ≠ .scanning ∧ server.stage ≠ .checking := by
      rw [closing]
      decide
    have later : server.dealtWith ≤ fd := by
      apply awaits.resolve_right
      rintro ⟨_, stage⟩
      simp [closing] at stage
    rw [← stepped.2] at tracked ⊢
    obtain ⟨nMaxSocketFd, closed⟩ := closeClient_eq tracked.lowered
    left
    left
    rw [closed]
    have behind := advance_dealtWith serving
    exact behind ▸ later
  | check => exact absurd rfl inside
  | cleanUp =>
    simp only [step, Option.ite_none_right_eq_some] at stepped
    have stage := inPass.stage
    rw [stepped.1] at stage
    rcases stage with stage | stage <;> cases stage

/-- Who accepts is at the listening socket. -/
theorem step_accepting {event : CommandEvent}
    (accepting : server.stage = .accepting → server.nFdIndex = server.nServerSocket)
    (stepped : server.step event = some next) :
    next.stage = .accepting → next.nFdIndex = next.nServerSocket := by
  cases step_move stepped with
  | signal => exact accepting
  | turn scanning ready socket =>
    intro turned
    rcases socket with ⟨here, _⟩ | ⟨_, receiving⟩
    · exact here
    · exact absurd (receiving.symm.trans turned) (by simp)
  | accept accepts unopened => exact fun _ => accepting accepts
  | idle inside way =>
    intro turned
    rcases way with ⟨_, calm⟩ | ⟨_, calm⟩ <;> exact absurd (calm.symm.trans turned) (by simp)
  | serve serves way =>
    intro turned
    rcases way with ⟨_, _, _, busy⟩ | ⟨_, _, busy⟩ | ⟨_, busy⟩ <;>
      exact absurd (busy.symm.trans turned) (by simp)
  | close closing =>
    rw [closeClient]
    intro turned
    split at turned
    · split at turned <;> cases turned
    · cases turned
  | clean cleaning within => exact fun turned => absurd (cleaning.symm.trans turned) (by simp)
  | _ => exact fun turned => by cases turned

/-- The listening socket stays the same. -/
theorem step_nServerSocket {event : CommandEvent} (stepped : server.step event = some next) :
    next.nServerSocket = server.nServerSocket := by
  cases step_move stepped with
  | close closing =>
    rw [closeClient]
    split
    · split <;> rfl
    · rfl
  | _ => rfl

/-- `accept` returns to a server that accepts. -/
theorem accept_stage {result : AcceptResult} (stepped : server.step (.accept result) = some next) :
    server.stage = .accepting := by
  simp only [step, Option.ite_none_right_eq_some] at stepped
  exact stepped.1

/-- A descriptor that is closed is awaited no more. -/
theorem close_awaits (stepped : server.step .close = some next) (here : server.nFdIndex = fd) :
    ¬ server.Awaits fd := by
  simp only [step, Option.ite_none_right_eq_some] at stepped
  have closing := stepped.1
  have place : server.dealtWith = server.nFdIndex + 1 := dealtWith_serving (by simp [closing])
  rintro (later | ⟨_, stage⟩)
  · omega
  · simp [closing] at stage

/-- No descriptor is cleaned up in a pass. -/
theorem cleanUp_inPass (inPass : InPass ready done rounds server)
    (stepped : server.step .cleanUp = some next) : False := by
  simp only [step, Option.ite_none_right_eq_some] at stepped
  have stage := inPass.stage
  rw [stepped.1] at stage
  rcases stage with stage | stage <;> cases stage

end CommandServer

namespace CommandSession

/-- A failure of the server at a descriptor. -/
def Unfailed (fd : Nat) (session : CommandSession) (event : HostEvent) : Prop :=
  event = .server (.accept .failed) ∨ event = .server (.recv .failed) →
    session.host.server.nFdIndex ≠ fd

/-- What holds in a pass over these descriptors. -/
structure Passing (ready : Finset Nat) (session : CommandSession) : Prop where
  /-- What is sent is received or in flight. -/
  wired : session.Wired
  /-- The server is in its pass. -/
  inPass : ∃ done rounds, CommandServer.InPass ready done rounds session.host.server
  /-- It accepts on the listening socket. -/
  accepting : session.host.server.stage = .accepting →
    session.host.server.nFdIndex = session.host.server.nServerSocket

/-- What was sent on a connection is received, or the server has yet to turn to it. -/
structure Drains (fd number : Nat) (bytes : List UInt8) (session : CommandSession) : Prop where
  /-- It was sent. -/
  sent : bytes <+: session.sent number
  /-- It is received, or still awaited. -/
  received : (session.holders fd = some number ∧ session.host.server.Awaits fd) ∨
    bytes <+: session.received number

/-- The connections made before are accepted, or the server has yet to turn to the listening
socket. -/
structure Admits (connected : Nat) (session : CommandSession) : Prop where
  /-- Connections are numbered in their order. -/
  later : connected ≤ session.connected
  /-- They are accepted, or still awaited. -/
  accepted : session.host.server.Awaits session.host.server.nServerSocket ∨
    ∀ number ∈ session.queued, connected ≤ number

variable {inherits : Bool} {session next : CommandSession} {ready : Finset Nat}
  {fd number connected : Nat} {bytes : List UInt8}

/-! ## What a step leaves -/

/-- A step is one of the server, or leaves the server as it is. -/
theorem step_server {event : HostEvent} (stepped : session.step inherits event = some next) :
    (∃ act, event = .server act ∧ session.host.server.step act = some next.host.server) ∨
      (∀ act, event ≠ .server act) ∧ next.host.server = session.host.server := by
  have ⟨state, host, _, taken, same⟩ := step_cases stepped
  rw [same]
  cases event with
  | server act =>
    have ⟨served, _, rest⟩ := Option.bind_eq_some_iff.mp taken
    have ⟨server, advanced, built⟩ := Option.map_eq_some_iff.mp rest
    left
    refine ⟨act, rfl, ?_⟩
    rw [← built]
    exact advanced
  | connect =>
    right
    rw [← Option.some.inj taken]
    exact ⟨by simp, rfl⟩
  | send place sent =>
    right
    rw [← Option.some.inj taken]
    refine ⟨by simp, ?_⟩
    cases place <;> rfl
  | shut place =>
    right
    rw [← Option.some.inj taken]
    refine ⟨by simp, ?_⟩
    cases place <;> rfl

/-- Nothing that was sent is taken back. -/
theorem step_sent {event : HostEvent} (stepped : session.step inherits event = some next)
    (number : Nat) : session.sent number <+: next.sent number := by
  have ⟨state, host, _, taken, same⟩ := step_cases stepped
  rw [same]
  show session.sent number <+: (session.note state event).sent number
  unfold note
  split
  · exact List.prefix_rfl
  · split
    · rename_i sender connection _
      split
      · by_cases mine : number = sender
        · simp only [mine, Function.update_self]
          exact List.prefix_append _ _
        · simp only [Function.update_of_ne mine]
          exact List.prefix_rfl
      · exact List.prefix_rfl
    · exact List.prefix_rfl
  · split <;> exact List.prefix_rfl
  · split <;> exact List.prefix_rfl
  · rw [execute]
    split <;> exact List.prefix_rfl
  · exact List.prefix_rfl
  · split <;> exact List.prefix_rfl
  · exact List.prefix_rfl

/-- Nothing that was received is given back. -/
theorem step_received {event : HostEvent} (wired : session.Wired)
    (stepped : session.step inherits event = some next) (number : Nat) :
    session.received number <+: next.received number := by
  have ⟨state, host, _, taken, same⟩ := step_cases stepped
  rw [same]
  show session.received number <+: (session.note state event).received number
  unfold note
  split
  · exact List.prefix_rfl
  · split
    · split <;> exact List.prefix_rfl
    · exact List.prefix_rfl
  · split <;> exact List.prefix_rfl
  · rename_i received
    split
    · exact List.prefix_rfl
    · have free : session.inHand = none := by
        apply wired.free
        intro executing
        have ⟨server, advanced⟩ : ∃ server,
            session.host.server.step (.recv (.data received)) = some server := by
          have ⟨served, _, rest⟩ := Option.bind_eq_some_iff.mp taken
          have ⟨server, advanced, _⟩ := Option.map_eq_some_iff.mp rest
          exact ⟨server, advanced⟩
        have busy := (CommandServer.step_executing advanced).2 executing
        simp at busy
      show _ <+: (own number (session.executed ++ Option.toList _)).flatten
      rw [CommandSession.received, free, own_append, own_append, List.flatten_append,
        List.flatten_append]
      apply (List.prefix_append_right_inj _).mpr
      exact List.nil_prefix
  · rw [execute]
    split <;>
    · show _ <+: (own number ((session.executed ++ session.inHand.toList) ++ [])).flatten
      rw [List.append_nil]
      exact List.prefix_rfl
  · exact List.prefix_rfl
  · split <;> exact List.prefix_rfl
  · exact List.prefix_rfl

/-- The connection behind a descriptor stays there, unless the descriptor is closed or given out. -/
theorem step_holders {event : HostEvent} (stepped : session.step inherits event = some next)
    (unaccepted : event ≠ .server (.accept (.connection fd)))
    (unclosed : event = .server .close ∨ event = .server .cleanUp →
      session.host.server.nFdIndex ≠ fd) : next.holders fd = session.holders fd := by
  have ⟨state, host, _, taken, same⟩ := step_cases stepped
  rw [same]
  show (session.note state event).holders fd = session.holders fd
  unfold note
  split
  · rfl
  · split
    · split <;> rfl
    · rfl
  · rename_i nClientSocket
    split
    · rfl
    · have apart : fd ≠ nClientSocket := fun one => unaccepted (by rw [one])
      exact Function.update_of_ne apart _ _
  · split <;> rfl
  · rw [execute]
    split <;> rfl
  · exact Function.update_of_ne (Ne.symm (unclosed (.inl rfl))) _ _
  · split
    · exact Function.update_of_ne (Ne.symm (unclosed (.inr rfl))) _ _
    · rfl
  · rfl

/-- A connection that is accepted gets a number that no descriptor of the pass has. -/
theorem Passing.unaccepted (passing : session.Passing ready) (member : fd ∈ ready)
    (awaits : session.host.server.Awaits fd) {event : CommandEvent} {server : CommandServer}
    (stepped : session.host.server.step event = some server) : event.accepted ≠ some fd := by
  have ⟨done, rounds, inPass⟩ := passing.inPass
  by_cases scans : session.host.server.stage.scans
  · have reached : session.host.server.nFdIndex ≤ fd := by
      rcases awaits with later | here
      · unfold CommandServer.dealtWith at later
        split at later <;> omega
      · exact Nat.le_of_eq here.1
    have contained := inPass.tracked.ahead scans fd (by rw [inPass.working]; exact member) reached
    have members := inPass.tracked.members (CommandStage.looping_of_scans scans) fd
    exact CommandServer.step_unaccepted stepped (members.mp contained)
  · -- Behind the loop over the descriptors nothing is accepted.
    have checking := inPass.stage.resolve_left scans
    cases event with
    | accept result => simp [CommandServer.step, checking] at stepped
    | _ => simp [CommandEvent.accepted]

/-- Every step of a pass keeps what holds in it. -/
theorem Passing.step {event : HostEvent} (passing : session.Passing ready)
    (inside : event ≠ .server .check) (stepped : session.step inherits event = some next) :
    next.Passing ready := by
  have wired := step_wired passing.wired stepped
  have ⟨done, rounds, inPass⟩ := passing.inPass
  rcases step_server stepped with ⟨act, same, advanced⟩ | ⟨_, same⟩
  · have unchecked : act ≠ .check := fun check => inside (by rw [same, check])
    refine ⟨wired, ⟨_, _, CommandServer.step_inPass inPass unchecked advanced⟩, ?_⟩
    exact CommandServer.step_accepting passing.accepting advanced
  · refine ⟨wired, ⟨done, rounds, ?_⟩, ?_⟩
    · rw [same]
      exact inPass
    · rw [same]
      exact passing.accepting

/-- A result that finishes with a client, but for a failure, is returned behind the last byte. -/
theorem finished_pending {act : CommandEvent} {served : CommandHost}
    (finishes : CommandServer.Finishes act) (unfailed : act ≠ .recv .failed)
    (received : ∀ result, act ≠ .accept result)
    (returned : session.host.kernel inherits act = some served) :
    ∃ socket, session.host.sockets session.host.server.nFdIndex = some socket ∧
      socket.connection.pending = [] := by
  cases act with
  | recv result =>
    have ⟨socket, found, rest⟩ := Option.bind_eq_some_iff.mp returned
    have ⟨after, taken, _⟩ := Option.map_eq_some_iff.mp rest
    refine ⟨socket, found, ?_⟩
    cases result with
    | failed => exact absurd rfl unfailed
    | wouldBlock =>
      simp only [CommandSocket.recv, Option.ite_none_right_eq_some] at taken
      have nothing := taken.1.2
      simp only [Connection.ready, Bool.or_eq_false_iff, Bool.not_eq_false'] at nothing
      exact List.isEmpty_iff.mp nothing.1
    | data bytes =>
      cases bytes with
      | nil =>
        simp only [CommandSocket.recv, Option.ite_none_right_eq_some] at taken
        exact taken.1.1
      | cons byte rest => cases finishes
  | accept result => exact absurd rfl (received result)
  | _ => cases finishes

/-- A step of a pass leaves nothing behind that was sent to a ready client before. -/
theorem Drains.step {event : HostEvent} (drains : session.Drains fd number bytes)
    (passing : session.Passing ready) (inside : event ≠ .server .check) (member : fd ∈ ready)
    (client : fd ≠ session.host.server.nServerSocket) (unfailed : Unfailed fd session event)
    (stepped : session.step inherits event = some next) : next.Drains fd number bytes := by
  have grown := step_received passing.wired stepped number
  refine ⟨drains.sent.trans (step_sent stepped number), ?_⟩
  rcases drains.received with ⟨held, awaits⟩ | taken
  · have ⟨done, rounds, inPass⟩ := passing.inPass
    rcases step_server stepped with ⟨act, same, advanced⟩ | ⟨apart, same⟩
    · have unchecked : act ≠ .check := fun check => inside (by rw [same, check])
      rcases CommandServer.step_awaits inPass unchecked member awaits advanced with
        still | ⟨here, finishes⟩
      · left
        refine ⟨?_, still⟩
        rw [← held]
        apply step_holders stepped
        · rw [same]
          intro accepts
          apply passing.unaccepted member awaits advanced
          rw [HostEvent.server.inj accepts]
          rfl
        · rw [same]
          rintro (close | cleanUp) here
          · have one := HostEvent.server.inj close
            rw [one] at advanced
            exact CommandServer.close_awaits advanced here awaits
          · have one := HostEvent.server.inj cleanUp
            rw [one] at advanced
            exact CommandServer.cleanUp_inPass inPass advanced
      · -- The server is through with the client: nothing is in flight to it.
        right
        have settled : act ≠ .recv .failed :=
          fun failed => unfailed (.inr (by rw [same, failed])) here
        have receives : ∀ result, act ≠ .accept result := by
          intro result accepts
          rw [accepts] at advanced
          apply client
          rw [← here]
          exact passing.accepting (CommandServer.accept_stage advanced)
        have ⟨state, host, _, taken, _⟩ := step_cases stepped
        rw [same] at taken
        have ⟨served, returned, _⟩ := Option.bind_eq_some_iff.mp taken
        have ⟨socket, found, nothing⟩ := finished_pending finishes settled receives returned
        have ends : session.ends (.accepted fd) = some (number, []) := by
          rw [here] at found
          simp only [CommandSession.ends, connectionAt, held, found, Option.bind_some,
            Option.map_some, nothing]
        have balanced := passing.wired.conserves.balanced _ _ _ ends
        rw [List.append_nil] at balanced
        have sent := drains.sent
        rw [balanced] at sent
        exact sent.trans grown
    · left
      refine ⟨?_, by rw [same]; exact awaits⟩
      rw [← held]
      apply step_holders stepped (apart _)
      rintro (close | cleanUp)
      · exact absurd close (apart _)
      · exact absurd cleanUp (apart _)
  · exact .inr (taken.trans grown)

/-- A step connects one client more at most, and puts it behind the others. -/
theorem step_queued {event : HostEvent} (stepped : session.step inherits event = some next) :
    session.connected ≤ next.connected ∧
      ∀ number ∈ next.queued, number ∈ session.queued ∨ session.connected ≤ number := by
  have ⟨state, host, _, taken, same⟩ := step_cases stepped
  rw [same]
  show session.connected ≤ (session.note state event).connected ∧
    ∀ number ∈ (session.note state event).queued, _
  unfold note
  split
  · refine ⟨Nat.le_succ _, fun number member => ?_⟩
    rcases List.mem_append.mp member with before | new
    · exact .inl before
    · exact .inr (Nat.le_of_eq (List.mem_singleton.mp new).symm)
  · split
    · split <;> exact ⟨Nat.le_refl _, fun _ member => .inl member⟩
    · exact ⟨Nat.le_refl _, fun _ member => .inl member⟩
  · split
    · exact ⟨Nat.le_refl _, fun _ member => .inl member⟩
    · rename_i queue
      refine ⟨Nat.le_refl _, fun number member => .inl ?_⟩
      rw [queue]
      exact List.mem_cons_of_mem _ member
  · split <;> exact ⟨Nat.le_refl _, fun _ member => .inl member⟩
  · rw [execute]
    split <;> exact ⟨Nat.le_refl _, fun _ member => .inl member⟩
  · exact ⟨Nat.le_refl _, fun _ member => .inl member⟩
  · split <;> exact ⟨Nat.le_refl _, fun _ member => .inl member⟩
  · exact ⟨Nat.le_refl _, fun _ member => .inl member⟩

/-- A step of a pass leaves nobody behind who had connected before. -/
theorem Admits.step {event : HostEvent} (admits : session.Admits connected)
    (passing : session.Passing ready) (inside : event ≠ .server .check)
    (member : session.host.server.nServerSocket ∈ ready)
    (unfailed : Unfailed session.host.server.nServerSocket session event)
    (stepped : session.step inherits event = some next) : next.Admits connected := by
  obtain ⟨more, behind⟩ := step_queued stepped
  refine ⟨Nat.le_trans admits.later more, ?_⟩
  have kept (before : ∀ number ∈ session.queued, connected ≤ number) :
      ∀ number ∈ next.queued, connected ≤ number := by
    intro number queued
    rcases behind number queued with early | late
    · exact before number early
    · exact Nat.le_trans admits.later late
  rcases admits.accepted with awaits | before
  · obtain ⟨done, rounds, inPass⟩ := passing.inPass
    rcases step_server stepped with ⟨act, same, advanced⟩ | ⟨_, same⟩
    · have unchecked : act ≠ .check := fun check => inside (by rw [same, check])
      rcases CommandServer.step_awaits inPass unchecked member awaits advanced with
        still | ⟨here, finishes⟩
      · left
        rw [CommandServer.step_nServerSocket advanced]
        exact still
      · -- The server is through with the listening socket: nobody is queued.
        right
        apply kept
        have settled : act ≠ .accept .failed :=
          fun failed => unfailed (.inl (by rw [same, failed])) here
        have accepts : act = .accept .wouldBlock := by
          cases act with
          | accept result =>
            cases result with
            | wouldBlock => rfl
            | failed => exact absurd rfl settled
            | connection nClientSocket => cases finishes
          | recv result =>
            simp only [CommandServer.step, Option.ite_none_right_eq_some] at advanced
            have serves : session.host.server.stage.serves := by
              rw [advanced.1]
              rfl
            exact absurd here (inPass.tracked.client serves).2
          | _ => cases finishes
        obtain ⟨state, host, _, taken, _⟩ := step_cases stepped
        rw [same, accepts] at taken
        obtain ⟨served, returned, _⟩ := Option.bind_eq_some_iff.mp taken
        simp only [CommandHost.kernel, Option.ite_none_right_eq_some] at returned
        have nobody : session.queued = [] := by
          have aligned := passing.wired.aligned
          rw [returned.1, List.length_nil] at aligned
          exact List.length_eq_zero_iff.mp aligned
        intro number queued
        rw [nobody] at queued
        cases queued
    · left
      rw [same]
      exact awaits
  · exact .inr (kept before)

/-! ## A pass -/

/-- The connections are numbered and the descriptors are booked, in every run. -/
theorem run_wired (nServerSocket : Nat) (cBuff : List UInt8) (midi : MidiState)
    (events : List HostEvent) {final : CommandSession}
    (reached : run (step inherits) (start nServerSocket cBuff midi) events = some final) :
    final.Wired ∧ final.host.server.Tracked ∧ final.host.server.nServerSocket = nServerSocket := by
  have kept : ∀ (session : CommandSession) (event : HostEvent) (next : CommandSession),
      (session.Wired ∧ session.host.server.Tracked ∧
        session.host.server.nServerSocket = nServerSocket) → True →
      session.step inherits event = some next →
      next.Wired ∧ next.host.server.Tracked ∧ next.host.server.nServerSocket = nServerSocket := by
    intro session event next ⟨wired, tracked, same⟩ _ stepped
    refine ⟨step_wired wired stepped, ?_⟩
    rcases step_server stepped with ⟨act, _, advanced⟩ | ⟨_, still⟩
    · exact ⟨CommandServer.step_tracked tracked advanced,
        (CommandServer.step_nServerSocket advanced).trans same⟩
    · rw [still]
      exact ⟨tracked, same⟩
  apply run_invariant kept _ (eachStep_of_forall (fun _ _ => trivial) _ events) reached
  exact ⟨start_wired nServerSocket cBuff midi, CommandServer.start_tracked nServerSocket, rfl⟩

/-- A pass begins with what `select` has found. -/
theorem select_passing (wired : session.Wired) (tracked : session.host.server.Tracked)
    (reported : session.step inherits (.server (.select (some ready))) = some next) :
    next.Passing ready ∧ ∀ fd, next.host.server.Awaits fd := by
  have ⟨act, same, advanced⟩ := (step_server reported).resolve_right
    fun apart => apart.1 _ rfl
  rw [← HostEvent.server.inj same] at advanced
  have inPass := CommandServer.select_inPass tracked advanced
  have scanning : next.host.server.stage = .scanning ∧ next.host.server.nFdIndex = 0 := by
    simp only [CommandServer.step, Option.ite_none_right_eq_some, Option.some.injEq] at advanced
    rw [← advanced.2]
    exact ⟨rfl, rfl⟩
  constructor
  · refine ⟨step_wired wired reported, ⟨_, _, inPass⟩, fun accepting => ?_⟩
    rw [scanning.1] at accepting
    cases accepting
  · intro fd
    left
    rw [CommandServer.dealtWith_scanning scanning.1, scanning.2]
    exact Nat.zero_le fd

/-- A client that `select` reports is a connection. -/
theorem select_held (wired : session.Wired) (member : fd ∈ ready)
    (client : fd ≠ session.host.server.nServerSocket)
    (reported : session.step inherits (.server (.select (some ready))) = some next) :
    ∃ number, session.holders fd = some number ∧ next.holders fd = some number := by
  obtain ⟨state, host, _, taken, _⟩ := step_cases reported
  obtain ⟨served, returned, _⟩ := Option.bind_eq_some_iff.mp taken
  simp only [CommandHost.kernel, Option.ite_none_right_eq_some] at returned
  have readable := returned.1 fd member
  rw [CommandHost.readable, if_neg client] at readable
  obtain ⟨socket, found, _⟩ := (Option.any_eq_true _ _).mp readable
  have held : (session.holders fd).isSome = true := by
    rw [wired.holders, found]
    rfl
  obtain ⟨number, named⟩ := Option.isSome_iff_exists.mp held
  refine ⟨number, named, ?_⟩
  rw [← named]
  apply step_holders reported (by simp)
  rintro (close | cleanUp)
  · cases HostEvent.server.inj close
  · cases HostEvent.server.inj cleanUp

/-- Behind the loop over the descriptors no ready one is awaited. -/
theorem Passing.over (passing : session.Passing ready) (member : fd ∈ ready)
    (ended : session.host.server.stage = .checking) : ¬ session.host.server.Awaits fd := by
  have ⟨done, rounds, inPass⟩ := passing.inPass
  have dealt := inPass.complete ended fd member
  rintro (later | ⟨_, stage⟩)
  · omega
  · simp [ended] at stage

/-- What is kept of a connection in a pass. -/
def Draining (ready : Finset Nat) (nServerSocket fd number : Nat) (bytes : List UInt8)
    (session : CommandSession) : Prop :=
  session.Passing ready ∧ session.host.server.nServerSocket = nServerSocket ∧
    session.Drains fd number bytes

/-- What is kept of the backlog in a pass. -/
def Admitting (ready : Finset Nat) (nServerSocket connected : Nat) (session : CommandSession) :
    Prop :=
  session.Passing ready ∧ session.host.server.nServerSocket = nServerSocket ∧
    session.Admits connected

/-- The steps of a pass that do not fail at a descriptor. -/
def PassStep (fd : Nat) (session : CommandSession) (event : HostEvent) : Prop :=
  event ≠ .server .check ∧ Unfailed fd session event

/-- The listening socket stays the same. -/
theorem step_listening {event : HostEvent} (stepped : session.step inherits event = some next) :
    next.host.server.nServerSocket = session.host.server.nServerSocket := by
  rcases step_server stepped with ⟨act, _, advanced⟩ | ⟨_, still⟩
  · exact CommandServer.step_nServerSocket advanced
  · rw [still]

/-- Every step of a pass keeps what is kept of a connection. -/
theorem step_draining {nServerSocket : Nat} (member : fd ∈ ready) (client : fd ≠ nServerSocket)
    {event : HostEvent} (before : session.Draining ready nServerSocket fd number bytes)
    (met : PassStep fd session event) (stepped : session.step inherits event = some next) :
    next.Draining ready nServerSocket fd number bytes := by
  have ⟨passing, same, drains⟩ := before
  refine ⟨passing.step met.1 stepped, (step_listening stepped).trans same, ?_⟩
  apply drains.step passing met.1 member _ met.2 stepped
  rw [same]
  exact client

/-- Every step of a pass keeps what is kept of the backlog. -/
theorem step_admitting {nServerSocket : Nat} (member : nServerSocket ∈ ready)
    {event : HostEvent} (before : session.Admitting ready nServerSocket connected)
    (met : PassStep nServerSocket session event)
    (stepped : session.step inherits event = some next) :
    next.Admitting ready nServerSocket connected := by
  have ⟨passing, same, admits⟩ := before
  refine ⟨passing.step met.1 stepped, (step_listening stepped).trans same, ?_⟩
  rw [← same] at member met
  exact admits.step passing met.1 member met.2 stepped

/-- A pass leaves nothing behind. In every run, with any ready descriptors, and whatever the
clients do in the pass: when it is over, all that was sent on a ready connection before `select`
returned has been received and executed, unless the receiving has failed; and all who had connected
before have been accepted, if the listening socket was ready and no `accept` has failed. -/
theorem pass_drains (inherits : Bool) (nServerSocket : Nat) (cBuff : List UInt8) (midi : MidiState)
    (earlier pass : List HostEvent) (ready : Finset Nat) (session selected final : CommandSession)
    (reached : run (step inherits) (start nServerSocket cBuff midi) earlier = some session)
    (reported : session.step inherits (.server (.select (some ready))) = some selected)
    (passed : run (step inherits) selected pass = some final)
    (inside : .server .check ∉ pass) (ended : final.host.server.stage = .checking)
    (fd : Nat) (member : fd ∈ ready)
    (unfailed : EachStep (step inherits) (Unfailed fd) selected pass) :
    (fd ≠ nServerSocket → ∃ number, session.holders fd = some number ∧
      session.sent number <+: (own number final.executed).flatten) ∧
    (fd = nServerSocket → ∀ number ∈ final.queued, session.connected ≤ number) := by
  have ⟨wired, tracked, listening⟩ := run_wired nServerSocket cBuff midi earlier reached
  have ⟨passing, awaited⟩ := select_passing wired tracked reported
  have same := (step_listening reported).trans listening
  have every : ∀ event ∈ pass, event ≠ .server .check := by
    intro event among check
    rw [check] at among
    exact inside among
  have admitted : EachStep (step inherits) (PassStep fd) selected pass :=
    eachStep_and_mem unfailed every
  constructor
  · intro client
    have ⟨number, named, held⟩ :=
      select_held wired member (by rw [listening]; exact client) reported
    have initially : selected.Draining ready nServerSocket fd number (session.sent number) :=
      ⟨passing, same, step_sent reported number, .inl ⟨held, awaited fd⟩⟩
    have kept : final.Draining ready nServerSocket fd number (session.sent number) :=
      run_invariant (fun _ _ _ before met stepped => step_draining member client before met stepped)
        initially admitted passed
    have ⟨stands, _, drains⟩ := kept
    have taken := drains.received.resolve_left fun awaits => stands.over member ended awaits.2
    have idle : final.inHand = none := stands.wired.free (by simp [ended])
    rw [received_idle idle] at taken
    exact ⟨number, named, taken⟩
  · intro listens
    rw [listens] at member admitted
    have initially : selected.Admitting ready nServerSocket session.connected := by
      refine ⟨passing, same, (step_queued reported).1, .inl ?_⟩
      exact awaited _
    have kept : final.Admitting ready nServerSocket session.connected :=
      run_invariant (fun _ _ _ before met stepped => step_admitting member before met stepped)
        initially admitted passed
    have ⟨stands, still, admits⟩ := kept
    rw [← still] at member
    exact admits.accepted.resolve_left (stands.over member ended)

/-- A command as a client sends it. -/
def volumeText : List UInt8 := ascii "volume:80,EMPTY_PARA_1:0,EMPTY_PARA_2:0,EMPTY_PARA_3:0\n"

/-- A client has sent a command, and another is queued. -/
def oneSentOneQueued : List HostEvent :=
  [.connect, .server (.select (some {1})), .server .scan, .server .scan,
    .server (.accept (.connection 2)), .server (.accept .wouldBlock), .server .scan,
    .server .check, .send (.accepted 2) volumeText, .connect]

/-- The pass in which the one is received from and the other accepted; the first sends again, and a
third connects. -/
def servingBoth : List HostEvent :=
  [.server .scan, .server .scan, .server (.accept (.connection 3)), .server (.accept .wouldBlock),
    .server .scan, .server (.recv (.data volumeText)), .server .execute,
    .send (.accepted 2) volumeText, .connect, .server (.recv (.data volumeText)),
    .server .execute, .server (.recv .wouldBlock), .server .scan]

/-- The same pass where `recv` blocks, and ends when the client has closed its end. -/
def servingBlocked : List HostEvent :=
  [.server .scan, .server .scan, .server (.accept (.connection 3)), .server (.accept .wouldBlock),
    .server .scan, .server (.recv (.data volumeText)), .server .execute,
    .send (.accepted 2) volumeText, .connect, .server (.recv (.data volumeText)),
    .server .execute, .shut (.accepted 2), .server (.recv (.data [])), .server .close,
    .server .scan]

/-- The rule at these passes. -/
theorem pass_drains_two :
    let started := start 1 (List.replicate 128 0) ⟨50, [], []⟩
    let drained := fun (inherits : Bool) (serving : List HostEvent) => ∃ session final,
      run (step inherits) started oneSentOneQueued = some session ∧
      run (step inherits) session (.server (.select (some {1, 2})) :: serving) = some final ∧
      (∃ number, session.holders 2 = some number ∧
        session.sent number <+: (own number final.executed).flatten) ∧
      ∀ number ∈ final.queued, session.connected ≤ number
    drained true servingBoth ∧ drained false servingBlocked := by
  intro started drained
  have drains : ∀ inherits serving,
      (∀ event ∈ serving, event ≠ .server .check ∧ event ≠ .server (.accept .failed) ∧
        event ≠ .server (.recv .failed)) →
      (run (step inherits) started
        (oneSentOneQueued ++ .server (.select (some {1, 2})) :: serving)).map
          (fun session => session.host.server.stage) = some .checking →
      drained inherits serving := by
    intro inherits serving settled evaluated
    have ⟨final, whole, ended⟩ := Option.map_eq_some_iff.mp evaluated
    rw [run_append] at whole
    have ⟨session, reached, onward⟩ := Option.bind_eq_some_iff.mp whole
    have ⟨selected, reported, passed⟩ := Option.bind_eq_some_iff.mp onward
    have inside : .server .check ∉ serving := fun among => (settled _ among).1 rfl
    have unfailed (fd : Nat) : EachStep (step inherits) (Unfailed fd) selected serving := by
      apply eachStep_of_invariant (fun _ event _ met => ?_) (fun _ _ _ _ _ _ => trivial) trivial
        (eachStep_and_mem (eachStep_of_forall (fun _ _ => trivial) selected serving) settled)
      intro failed
      exact absurd failed (not_or.mpr met.1.2)
    have rule (fd : Nat) (member : fd ∈ ({1, 2} : Finset Nat)) :=
      pass_drains inherits 1 (List.replicate 128 0) ⟨50, [], []⟩ oneSentOneQueued serving {1, 2}
        session selected final reached reported passed inside ended fd member (unfailed fd)
    exact ⟨session, final, reached, onward, (rule 2 (by decide)).1 (by decide),
      (rule 1 (by decide)).2 rfl⟩
  exact ⟨drains true servingBoth (by simp [servingBoth]) (by rfl),
    drains false servingBlocked (by simp [servingBlocked]) (by rfl)⟩

end CommandSession

end MidiDaemon
