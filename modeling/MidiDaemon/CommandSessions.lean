import MidiDaemon.CommandClients
import MidiDaemon.Library.Channels
import MidiDaemon.Library.Interference

/-!
# From the clients to the handlers

The command server has one receive buffer for all its clients. This module puts the buffer, the
result of `recv` and the state of the handlers behind the server and its clients, and numbers the
connections as they are made. The numbers, what a client has sent on a connection and what has been
taken off it are known to the model only.

In every run what a client has sent is what `recv` has returned for its connection and, behind it,
what is in flight, and the handlers have been called with the results of `recv` in their order, each
as a text of its own (`bytes_delivered`). A text that reads behind the table of formats, or a result
that leaves no room for its terminator, ends the run: behind it the program has no meaning.
-/

namespace MidiDaemon

open Machine Memory Channels Interference

/-- The command server and its clients, with the buffer and what the commands act on. -/
structure CommandSession where
  /-- The server, and the kernel's side of its sockets. -/
  host : CommandHost
  /-- `cBuff`. -/
  cBuff : List UInt8
  /-- The last result of `recv`. -/
  nRc : Nat
  /-- What the handlers act on, until a fault. -/
  midi : Except CommandFault MidiState
  /-- The numbers of the connections in the backlog. -/
  queued : List Nat
  /-- The numbers of the connections behind descriptors. -/
  holders : Nat → Option Nat
  /-- How many connections have been made. -/
  connected : Nat
  /-- What has been sent on each connection. -/
  sent : Nat → List UInt8
  /-- The result of `recv` that is yet to be executed, and its connection. -/
  inHand : Option (Nat × List UInt8)
  /-- The results of `recv` that have been executed, and their connections. -/
  executed : List (Nat × List UInt8)

/-- Between `recv` and `executeCmdFromUnixSocket` nothing happens but the signal. -/
theorem CommandServer.step_executing {server next : CommandServer} {event : CommandEvent}
    (stepped : server.step event = some next) :
    (next.stage = .executing ↔ (∃ received, event = .recv (.data received) ∧ received ≠ []) ∨
      (event = .signal ∧ server.stage = .executing)) ∧
    (server.stage = .executing → event = .signal ∨ event = .execute) := by
  cases event with
  | signal =>
    have same := Option.some.inj stepped
    simp [← same]
  | recv result =>
    simp only [CommandServer.step, Option.ite_none_right_eq_some] at stepped
    obtain ⟨receiving, onward⟩ := stepped
    refine ⟨?_, by simp [receiving]⟩
    split at onward
    · simp [← Option.some.inj onward]
    · simp [← Option.some.inj onward]
    · simp [← Option.some.inj onward, CommandServer.advance]
    · rename_i received nonempty
      simp only [Option.ite_none_right_eq_some, Option.some.injEq] at onward
      rw [← onward.2]
      exact ⟨fun _ => .inl ⟨received, rfl, nonempty⟩, fun _ => rfl⟩
  | select outcome =>
    cases outcome with
    | none =>
      simp only [CommandServer.step, Option.ite_none_right_eq_some, Option.some.injEq] at stepped
      simp [← stepped.2, stepped.1]
    | some ready =>
      simp only [CommandServer.step, Option.ite_none_right_eq_some, Option.some.injEq] at stepped
      simp [← stepped.2, stepped.1.1]
  | execute =>
    simp only [CommandServer.step, Option.ite_none_right_eq_some, Option.some.injEq] at stepped
    simp [← stepped.2]
  | close =>
    simp only [CommandServer.step, Option.ite_none_right_eq_some, Option.some.injEq] at stepped
    refine ⟨?_, by simp [stepped.1]⟩
    rw [← stepped.2, CommandServer.closeClient]
    repeat' split
    all_goals simp [CommandServer.advance]
  | scan =>
    simp only [CommandServer.step, Option.ite_none_right_eq_some] at stepped
    obtain ⟨scanning, onward⟩ := stepped
    refine ⟨?_, by simp [scanning]⟩
    split at onward
    · split at onward
      · rw [← Option.some.inj onward]
        split <;> simp
      · simp [← Option.some.inj onward, CommandServer.advance]
    · simp [← Option.some.inj onward]
  | accept result =>
    simp only [CommandServer.step, Option.ite_none_right_eq_some] at stepped
    obtain ⟨accepting, onward⟩ := stepped
    refine ⟨?_, by simp [accepting]⟩
    cases result with
    | connection nClientSocket =>
      simp only [Option.ite_none_left_eq_some, Option.some.injEq] at onward
      simp [← onward.2, CommandServer.addClient, accepting]
    | wouldBlock => simp [← Option.some.inj onward, CommandServer.advance]
    | failed => simp [← Option.some.inj onward, CommandServer.advance]
  | check =>
    simp only [CommandServer.step, Option.ite_none_right_eq_some] at stepped
    obtain ⟨checking, onward⟩ := stepped
    refine ⟨?_, by simp [checking]⟩
    split at onward <;> simp [← Option.some.inj onward]
  | cleanUp =>
    simp only [CommandServer.step, Option.ite_none_right_eq_some] at stepped
    obtain ⟨cleaning, onward⟩ := stepped
    refine ⟨?_, by simp [cleaning]⟩
    split at onward <;> simp [← Option.some.inj onward, cleaning]

namespace CommandSession

/-- The server in front of its loop, and no clients. -/
def start (nServerSocket : Nat) (cBuff : List UInt8) (midi : MidiState) : CommandSession where
  host := .start nServerSocket
  cBuff := cBuff
  nRc := 0
  midi := .ok midi
  queued := []
  holders := fun _ => none
  connected := 0
  sent := fun _ => []
  inHand := none
  executed := []

/-- The connection at a place, with its number. -/
def connectionAt (session : CommandSession) : Place → Option (Nat × Connection)
  | .queued position => session.queued[position]?.bind fun number =>
    session.host.backlog[position]?.map fun connection => (number, connection)
  | .accepted fd => (session.holders fd).bind fun number =>
    (session.host.sockets fd).map fun socket => (number, socket.connection)

/-- What is in flight to a place. -/
def ends (session : CommandSession) (place : Place) : Option (Nat × List UInt8) :=
  (session.connectionAt place).map fun entry => (entry.1, entry.2.pending)

/-- What `recv` has returned for a connection. -/
def received (session : CommandSession) (number : Nat) : List UInt8 :=
  (own number (session.executed ++ session.inHand.toList)).flatten

/-- `cBuff[nRc] = '\0'; executeCmdFromUnixSocket(cBuff, nRc, pSeq, nMyPortID);` -/
def execute (session : CommandSession) (state : MidiState) : CommandSession :=
  let executed := session.executed ++ session.inHand.toList
  if session.nRc < commandBufferLength then
    let cBuff := session.cBuff.set session.nRc 0
    { session with
      cBuff := cBuff
      midi := (executeCmdFromUnixSocket (cString cBuff) state).map Prod.fst
      inHand := none
      executed := executed }
  else { session with midi := .error .bufferOverrun, inHand := none, executed := executed }

/-- The descriptor the server is at is closed. -/
def release (session : CommandSession) : CommandSession :=
  { session with
    holders := Function.update session.holders session.host.server.nFdIndex none }

/-- What a step does besides the step of the server and its clients. -/
def note (session : CommandSession) (state : MidiState) : HostEvent → CommandSession
  | .connect =>
    { session with
      queued := session.queued ++ [session.connected]
      connected := session.connected + 1 }
  | .send place bytes =>
    match session.connectionAt place with
    | some (number, connection) =>
      if connection.isOpen then
        { session with
          sent := Function.update session.sent number (session.sent number ++ bytes) }
      else session
    | none => session
  | .server (.accept (.connection nClientSocket)) =>
    match session.queued with
    | [] => session
    | number :: queued =>
      { session with
        queued := queued
        holders := Function.update session.holders nClientSocket (some number) }
  | .server (.recv (.data received)) =>
    if received = [] then session
    else
      { session with
        cBuff := memcpy session.cBuff 0 received
        nRc := received.length
        inHand := (session.holders session.host.server.nFdIndex).map fun number =>
          (number, received) }
  | .server .execute => session.execute state
  | .server .close => session.release
  | .server .cleanUp =>
    if session.host.server.nFdIndex ∈ session.host.server.tMasterFdSet then session.release
    else session
  | _ => session

/-- One step; nothing is said of the program behind a fault. -/
def step (inherits : Bool) (session : CommandSession) (event : HostEvent) :
    Option CommandSession :=
  match session.midi with
  | .error _ => none
  | .ok state =>
    (session.host.step inherits event).map fun host =>
      { session.note state event with host := host }

/-! ## Connections and their ends -/

variable {inherits : Bool} {session next : CommandSession} {host : CommandHost}

/-- A client that acts on its connection leaves its number and every other connection. -/
theorem connectionAt_change (session : CommandSession) (act : Connection → Connection)
    (place : Place) :
    connectionAt { session with host := session.host.change act place } =
      Function.update session.connectionAt place
        ((session.connectionAt place).map fun entry => (entry.1, act entry.2)) := by
  funext other
  by_cases same : other = place
  · rw [same, Function.update_self]
    cases place with
    | queued position =>
      simp only [connectionAt, CommandHost.change, List.getElem?_modify_eq]
      cases session.queued[position]? <;> cases session.host.backlog[position]? <;> rfl
    | accepted fd =>
      simp only [connectionAt, CommandHost.change, Function.update_self]
      cases session.holders fd <;> cases session.host.sockets fd <;> rfl
  · rw [Function.update_of_ne same]
    cases place with
    | queued position =>
      cases other with
      | queued another =>
        have apart : position ≠ another := fun one => same (by rw [one])
        simp only [connectionAt, CommandHost.change, List.getElem?_modify_ne _ _ apart]
      | accepted fd => rfl
    | accepted fd =>
      cases other with
      | queued another => rfl
      | accepted another =>
        have apart : another ≠ fd := fun one => same (by rw [one])
        simp only [connectionAt, CommandHost.change, Function.update_of_ne apart]

/-- What is in flight after a client has acted. -/
theorem ends_change (session : CommandSession) (act : Connection → Connection) (place : Place) :
    ends { session with host := session.host.change act place } =
      Function.update session.ends place
        ((session.connectionAt place).map fun entry => (entry.1, (act entry.2).pending)) := by
  funext other
  rw [ends, connectionAt_change]
  by_cases same : other = place
  · rw [same, Function.update_self, Function.update_self, Option.map_map]
    rfl
  · rw [Function.update_of_ne same, Function.update_of_ne same]
    rfl

/-- A client that connects is put behind the others. -/
theorem ends_connect (aligned : session.queued.length = session.host.backlog.length) :
    ends { session with
      queued := session.queued ++ [session.connected]
      host := { session.host with backlog := session.host.backlog ++ [⟨[], true⟩] } } =
      Function.update session.ends (.queued session.host.backlog.length)
        (some (session.connected, [])) := by
  funext other
  cases other with
  | accepted fd => rfl
  | queued position =>
    rcases Nat.lt_trichotomy position session.host.backlog.length with below | last | above
    · have apart : Place.queued position ≠ .queued session.host.backlog.length := by
        intro same
        have one := Place.queued.inj same
        omega
      rw [Function.update_of_ne apart]
      simp only [ends, connectionAt]
      rw [List.getElem?_append_left below, List.getElem?_append_left (by omega)]
    · rw [last, Function.update_self]
      simp only [ends, connectionAt, List.getElem?_concat_length]
      rw [← aligned, List.getElem?_concat_length]
      rfl
    · have apart : Place.queued position ≠ .queued session.host.backlog.length := by
        intro same
        have one := Place.queued.inj same
        omega
      rw [Function.update_of_ne apart]
      simp only [ends, connectionAt]
      have nobody : session.queued[position]? = none := List.getElem?_eq_none (by omega)
      rw [List.getElem?_eq_none (by simp; omega), nobody]
      rfl

/-- What is in flight to a descriptor that gets another socket and another number. -/
theorem ends_update (session : CommandSession) (fd : Nat) (holder : Option Nat)
    (socket : Option CommandSocket) :
    ends { session with
      holders := Function.update session.holders fd holder
      host := { session.host with
        sockets := Function.update session.host.sockets fd socket } } =
      Function.update session.ends (.accepted fd) (holder.bind fun number =>
        socket.map fun socket => (number, socket.connection.pending)) := by
  funext other
  cases other with
  | queued position => rfl
  | accepted another =>
    by_cases same : another = fd
    · rw [same, Function.update_self]
      simp only [ends, connectionAt, Function.update_self]
      cases holder <;> cases socket <;> rfl
    · have apart : Place.accepted another ≠ .accepted fd := fun one => same (Place.accepted.inj one)
      rw [Function.update_of_ne apart]
      simp only [ends, connectionAt, Function.update_of_ne same]

/-! ## What is sent is what is received and what is in flight -/

/-- A result of `recv` is received on its connection. -/
theorem received_recv (free : session.inHand = none) (number : Nat) (received : List UInt8) :
    CommandSession.received { session with inHand := some (number, received) } =
      Function.update session.received number (session.received number ++ received) := by
  have before : ∀ other, session.received other = (own other session.executed).flatten := by
    intro other
    rw [CommandSession.received, free, Option.toList_none, List.append_nil]
  funext other
  show (own other (session.executed ++ [(number, received)])).flatten = _
  rw [own_append, List.flatten_append]
  by_cases same : other = number
  · have mine : own number [(number, received)] = [received] := own_cons_self (number, received) []
    rw [same, Function.update_self, before, mine, List.flatten_singleton]
  · have others : own other [(number, received)] = [] := own_cons_other (Ne.symm same) []
    rw [Function.update_of_ne same, before, others, List.flatten_nil, List.append_nil]

/-- The connections are numbered, and what is sent on each is received or in flight. -/
structure Wired (session : CommandSession) : Prop where
  /-- Each connection in the backlog has a number. -/
  aligned : session.queued.length = session.host.backlog.length
  /-- So has each connection behind a descriptor. -/
  holders : ∀ fd, (session.holders fd).isSome = (session.host.sockets fd).isSome
  /-- What is sent is received or in flight. -/
  conserves : Conserves session.ends session.sent session.received
  /-- The numbers are those given so far. -/
  numbered : ∀ place entry, session.ends place = some entry → entry.1 < session.connected
  /-- Nothing has been sent on a connection that is not yet made. -/
  silent : ∀ number, session.connected ≤ number → session.sent number = []
  /-- A result is in hand in front of its execution. -/
  hand : session.inHand.isSome = true ↔ session.host.server.stage = .executing

/-- There are no connections in the beginning. -/
theorem start_wired (nServerSocket : Nat) (cBuff : List UInt8) (midi : MidiState) :
    (start nServerSocket cBuff midi).Wired where
  aligned := rfl
  holders _ := rfl
  conserves := by
    have nothing : (start nServerSocket cBuff midi).ends = fun _ => none := by
      funext place
      cases place <;> rfl
    rw [nothing]
    exact conserves_none
  numbered place entry held := by cases place <;> cases held
  silent _ _ := rfl
  hand := by simp [start, CommandHost.start, CommandServer.start]

/-- Places that are filled anew have numbers given so far. -/
theorem Wired.numbered_update (wired : session.Wired) {place : Place}
    {filled : Option (Nat × List UInt8)} (given : ∀ entry, filled = some entry →
      entry.1 < session.connected) (other : Place) (entry : Nat × List UInt8)
    (held : Function.update session.ends place filled other = some entry) :
    entry.1 < session.connected := by
  by_cases same : other = place
  · rw [same, Function.update_self] at held
    exact given entry held
  · rw [Function.update_of_ne same] at held
    exact wired.numbered other entry held

/-- Nothing is in hand where `recv` is called. -/
theorem Wired.free (wired : session.Wired) (apart : session.host.server.stage ≠ .executing) :
    session.inHand = none := by
  apply Option.not_isSome_iff_eq_none.mp
  intro held
  exact apart (wired.hand.mp held)

/-- A client connects. -/
theorem Wired.connect (wired : session.Wired) :
    Wired { session with
      queued := session.queued ++ [session.connected]
      connected := session.connected + 1
      host := { session.host with backlog := session.host.backlog ++ [⟨[], true⟩] } } := by
  have connected := ends_connect wired.aligned
  have unused : ∀ other entry, session.ends other = some entry → entry.1 ≠ session.connected :=
    fun other entry held => Nat.ne_of_lt (wired.numbered other entry held)
  constructor
  · show (session.queued ++ [session.connected]).length =
      (session.host.backlog ++ [(⟨[], true⟩ : Connection)]).length
    rw [List.length_append, List.length_append, wired.aligned]
    rfl
  · exact wired.holders
  · show Conserves (ends { session with
      queued := session.queued ++ [session.connected]
      host := { session.host with backlog := session.host.backlog ++ [⟨[], true⟩] } }) _ _
    rw [connected]
    exact wired.conserves.opens _ unused (wired.silent session.connected (Nat.le_refl _))
  · intro place entry held
    have among : Function.update session.ends (.queued session.host.backlog.length)
        (some (session.connected, [])) place = some entry := by
      rw [← connected]
      exact held
    show entry.1 < session.connected + 1
    by_cases same : place = .queued session.host.backlog.length
    · rw [same, Function.update_self] at among
      rw [← Option.some.inj among]
      exact Nat.lt_succ_self _
    · rw [Function.update_of_ne same] at among
      exact Nat.lt_succ_of_lt (wired.numbered place entry among)
  · intro number later
    exact wired.silent number (Nat.le_of_succ_le later)
  · exact wired.hand

/-- A client acts on its connection, and sends some bytes or none. -/
theorem Wired.change (wired : session.Wired) {act : Connection → Connection} {place : Place}
    {sent : Nat → List UInt8} (conserves : Conserves
      (Function.update session.ends place
        ((session.connectionAt place).map fun entry => (entry.1, (act entry.2).pending)))
      sent session.received)
    (silent : ∀ number, session.connected ≤ number → sent number = []) :
    Wired { session with sent := sent, host := session.host.change act place } := by
  have same : (session.host.change act place).server = session.host.server := by
    cases place <;> rfl
  have changed := ends_change session act place
  constructor
  · show session.queued.length = (session.host.change act place).backlog.length
    cases place with
    | queued position =>
      rw [CommandHost.change, List.length_modify]
      exact wired.aligned
    | accepted fd => exact wired.aligned
  · intro fd
    show (session.holders fd).isSome = ((session.host.change act place).sockets fd).isSome
    rw [wired.holders]
    cases place with
    | queued position => rfl
    | accepted other =>
      by_cases one : fd = other
      · simp only [one, CommandHost.change, Function.update_self, Option.isSome_map]
      · simp only [CommandHost.change, Function.update_of_ne one]
  · show Conserves (ends { session with host := session.host.change act place }) _ _
    rw [changed]
    exact conserves
  · intro other entry held
    have among : Function.update session.ends place
        ((session.connectionAt place).map fun entry => (entry.1, (act entry.2).pending)) other =
          some entry := by
      rw [← changed]
      exact held
    apply wired.numbered_update _ other entry among
    intro filled found
    obtain ⟨old, here, renamed⟩ := Option.map_eq_some_iff.mp found
    have before : session.ends place = some (old.1, old.2.pending) := by
      rw [ends, here]
      rfl
    have given := wired.numbered place _ before
    rw [← renamed]
    exact given
  · exact silent
  · show session.inHand.isSome = true ↔ (session.host.change act place).server.stage = .executing
    rw [same]
    exact wired.hand

/-- A client sends. -/
theorem Wired.send (wired : session.Wired) (state : MidiState) (place : Place)
    (bytes : List UInt8) :
    Wired { session.note state (.send place bytes) with
      host := session.host.change (fun connection => connection.send bytes) place } := by
  cases found : session.connectionAt place with
  | none =>
    simp only [note, found]
    apply wired.change _ wired.silent
    rw [found, Option.map_none]
    exact wired.conserves.lose place
  | some entry =>
    have here : session.ends place = some (entry.1, entry.2.pending) := by
      rw [ends, found]
      rfl
    simp only [note, found]
    split
    · rename_i stays
      apply wired.change
      · rw [found, Option.map_some, Connection.send, if_pos stays]
        exact wired.conserves.send here bytes
      · intro number later
        have differ : number ≠ entry.1 := by
          intro same
          have before := wired.numbered place _ here
          have under : entry.1 < session.connected := before
          omega
        show Function.update session.sent entry.1 (session.sent entry.1 ++ bytes) number = []
        rw [Function.update_of_ne differ]
        exact wired.silent number later
    · rename_i closed
      apply wired.change _ wired.silent
      rw [found, Option.map_some, Connection.send, if_neg closed, ← here, Function.update_eq_self]
      exact wired.conserves

/-- A client closes its end. -/
theorem Wired.shut (wired : session.Wired) (place : Place) :
    Wired { session with host := session.host.change Connection.shut place } := by
  apply wired.change _ wired.silent
  have same : ((session.connectionAt place).map fun entry =>
      (entry.1, (Connection.shut entry.2).pending)) = session.ends place := rfl
  rw [same, Function.update_eq_self]
  exact wired.conserves

/-- A descriptor gets another socket and another number, or none. -/
theorem Wired.hold (wired : session.Wired) {fd nRc : Nat} {holder : Option Nat}
    {socket : Option CommandSocket} {server : CommandServer} {cBuff : List UInt8}
    {midi : Except CommandFault MidiState} {inHand : Option (Nat × List UInt8)}
    {executed : List (Nat × List UInt8)} (both : holder.isSome = socket.isSome)
    (given : ∀ number, holder = some number → number < session.connected)
    (conserves : Conserves (Function.update session.ends (.accepted fd)
        (holder.bind fun number => socket.map fun socket => (number, socket.connection.pending)))
      session.sent (fun number => (own number (executed ++ inHand.toList)).flatten))
    (hand : inHand.isSome = true ↔ server.stage = .executing) :
    Wired
      { session with
        host := { session.host with
          server := server
          sockets := Function.update session.host.sockets fd socket }
        cBuff := cBuff
        nRc := nRc
        midi := midi
        holders := Function.update session.holders fd holder
        inHand := inHand
        executed := executed } := by
  have updated := ends_update session fd holder socket
  constructor
  · exact wired.aligned
  · intro other
    by_cases one : other = fd
    · simp only [one, Function.update_self]
      exact both
    · simp only [Function.update_of_ne one]
      exact wired.holders other
  · rw [← updated] at conserves
    exact conserves
  · intro other entry held
    have among : Function.update session.ends (.accepted fd) (holder.bind fun number =>
        socket.map fun socket => (number, socket.connection.pending)) other = some entry := by
      rw [← updated]
      exact held
    apply wired.numbered_update _ other entry among
    intro filled found
    have ⟨number, named, rest⟩ := Option.bind_eq_some_iff.mp found
    have ⟨_, _, paired⟩ := Option.map_eq_some_iff.mp rest
    rw [← paired]
    exact given number named
  · exact wired.silent
  · exact hand

/-- The server goes on, and its sockets stay as they are. -/
theorem Wired.still (wired : session.Wired) {server : CommandServer} {nRc : Nat}
    {cBuff : List UInt8} {midi : Except CommandFault MidiState}
    {inHand : Option (Nat × List UInt8)} {executed : List (Nat × List UInt8)}
    (same : executed ++ inHand.toList = session.executed ++ session.inHand.toList)
    (hand : inHand.isSome = true ↔ server.stage = .executing) :
    Wired
      { session with
        host := { session.host with server := server }
        cBuff := cBuff
        nRc := nRc
        midi := midi
        inHand := inHand
        executed := executed } where
  aligned := wired.aligned
  holders := wired.holders
  conserves := by
    have received : session.received =
        fun number => (own number (executed ++ inHand.toList)).flatten := by
      funext number
      rw [same, CommandSession.received]
    have conserves := wired.conserves
    rw [received] at conserves
    exact conserves
  numbered := wired.numbered
  silent := wired.silent
  hand := hand

/-- A connection is accepted. -/
theorem Wired.accept (wired : session.Wired) {nClientSocket number : Nat} {nonBlocking : Bool}
    {connection : Connection} {backlog : List Connection} {queued : List Nat}
    {server : CommandServer} (oldest : session.host.backlog = connection :: backlog)
    (named : session.queued = number :: queued)
    (hand : session.inHand.isSome = true ↔ server.stage = .executing) :
    Wired
      { session with
        queued := queued
        holders := Function.update session.holders nClientSocket (some number)
        host :=
          { server := server
            backlog := backlog
            sockets := Function.update session.host.sockets nClientSocket
              (some ⟨connection, nonBlocking⟩) } } := by
  -- Where a connection was before: the oldest of the backlog, or one place further behind.
  let origin : Place → Place
    | .queued position => .queued (position + 1)
    | .accepted fd => if fd = nClientSocket then .queued 0 else .accepted fd
  have moved : ∀ place, ends { session with
      queued := queued
      holders := Function.update session.holders nClientSocket (some number)
      host :=
        { server := server
          backlog := backlog
          sockets := Function.update session.host.sockets nClientSocket
            (some ⟨connection, nonBlocking⟩) } } place = session.ends (origin place) := by
    intro place
    cases place with
    | queued position =>
      simp only [ends, connectionAt, origin, oldest, named, List.getElem?_cons_succ]
    | accepted fd =>
      by_cases same : fd = nClientSocket
      · simp only [ends, connectionAt, origin, oldest, named, same, Function.update_self, if_true,
          List.getElem?_cons_zero]
        rfl
      · simp only [ends, connectionAt, origin, if_neg same, Function.update_of_ne same]
  have injective : ∀ place other, origin place = origin other → place = other := by
    intro place other same
    cases place <;> cases other <;> simp only [origin] at same <;> grind
  constructor
  · have lengths := wired.aligned
    rw [oldest, named, List.length_cons, List.length_cons] at lengths
    show queued.length = backlog.length
    omega
  · intro fd
    by_cases same : fd = nClientSocket
    · simp only [same, Function.update_self]
      rfl
    · simp only [Function.update_of_ne same]
      exact wired.holders fd
  · apply wired.conserves.move origin
    · intro place entry held
      rw [← moved]
      exact held
    · intro place other _ _ same
      exact injective place other same
  · intro place entry held
    rw [moved] at held
    exact wired.numbered (origin place) entry held
  · exact wired.silent
  · exact hand

section Server

variable {event : CommandEvent} {served : CommandHost} {server : CommandServer}

/-- What is in hand stays so in every step but `recv` and the execution. -/
theorem Wired.calm (wired : session.Wired) (stepped : session.host.server.step event = some server)
    (plain : ∀ received, event = .recv (.data received) → received = [])
    (apart : event ≠ .execute) : session.inHand.isSome = true ↔ server.stage = .executing := by
  have ⟨onward, busy⟩ := CommandServer.step_executing stepped
  rw [wired.hand, onward]
  constructor
  · intro executing
    rcases busy executing with signal | execute
    · exact .inr ⟨signal, executing⟩
    · exact absurd execute apart
  · rintro (⟨received, received_event, nonempty⟩ | ⟨_, executing⟩)
    · exact absurd (plain received received_event) nonempty
    · exact executing

/-- A result of `recv` that takes nothing leaves the sockets as they are. -/
theorem recv_untaken {result : CommandResult}
    (returned : session.host.kernel inherits (.recv result) = some served)
    (plain : ∀ received, result = .data received → received = []) : served = session.host := by
  have ⟨socket, found, rest⟩ := Option.bind_eq_some_iff.mp returned
  have ⟨after, taken, same⟩ := Option.map_eq_some_iff.mp rest
  have kept : after = socket := by
    unfold CommandSocket.recv at taken
    split at taken
    · simp only [Option.ite_none_right_eq_some, Option.some.injEq] at taken
      exact taken.2.symm
    · rename_i received nonempty
      exact absurd (plain received rfl) nonempty
    · simp only [Option.ite_none_right_eq_some, Option.some.injEq] at taken
      exact taken.2.symm
    · exact (Option.some.inj taken).symm
  rw [← same, kept, ← found, Function.update_eq_self]

/-- `recv` takes bytes off the front of those in flight on the connection the server is at. -/
theorem Wired.recv (wired : session.Wired) (state : MidiState) {received : List UInt8}
    (nonempty : received ≠ [])
    (returned : session.host.kernel inherits (.recv (.data received)) = some served)
    (stepped : session.host.server.step (.recv (.data received)) = some server) :
    Wired { session.note state (.server (.recv (.data received))) with
      host := { served with server := server } } := by
  have ⟨onward, busy⟩ := CommandServer.step_executing stepped
  have executing : server.stage = .executing := onward.mpr (.inl ⟨received, rfl, nonempty⟩)
  have free : session.inHand = none := wired.free fun early => by simpa using busy early
  have ⟨socket, found, rest⟩ := Option.bind_eq_some_iff.mp returned
  have ⟨after, taken, same⟩ := Option.map_eq_some_iff.mp rest
  have held : (session.holders session.host.server.nFdIndex).isSome = true := by
    rw [wired.holders, found]
    rfl
  have ⟨number, named⟩ := Option.isSome_iff_exists.mp held
  have ⟨front, left⟩ : received <+: socket.connection.pending ∧
      after.connection.pending = socket.connection.pending.drop received.length := by
    unfold CommandSocket.recv at taken
    cases received with
    | nil => exact absurd rfl nonempty
    | cons byte bytes =>
      simp only [Option.ite_none_right_eq_some, Option.some.injEq] at taken
      rw [← taken.2]
      exact ⟨taken.1, rfl⟩
  have pending : socket.connection.pending = received ++ after.connection.pending := by
    rw [left]
    exact (List.prefix_iff_eq_append.mp front).symm
  have here : session.ends (.accepted session.host.server.nFdIndex) =
      some (number, received ++ after.connection.pending) := by
    simp only [ends, connectionAt, named, found, Option.bind_some, Option.map_some, pending]
  have taking := wired.conserves.take here
  rw [← received_recv free] at taking
  have holding : Function.update session.holders session.host.server.nFdIndex (some number) =
      session.holders := by
    rw [← named, Function.update_eq_self]
  have given : ∀ other, some number = some other → other < session.connected := by
    intro other one
    rw [← Option.some.inj one]
    exact wired.numbered _ _ here
  have whole : Wired { session with
      host := { session.host with
        server := server
        sockets :=
          Function.update session.host.sockets session.host.server.nFdIndex (some after) }
      cBuff := memcpy session.cBuff 0 received
      nRc := received.length
      holders := Function.update session.holders session.host.server.nFdIndex (some number)
      inHand := some (number, received) } :=
    wired.hold rfl given taking (by simp [executing])
  rw [holding] at whole
  rw [← same]
  simp only [note, if_neg nonempty, named, Option.map_some]
  exact whole

/-- The server keeps the connections and what is in flight. -/
theorem Wired.serve (wired : session.Wired) (state : MidiState)
    (returned : session.host.kernel inherits event = some served)
    (stepped : session.host.server.step event = some server) :
    Wired { session.note state (.server event) with host := { served with server := server } } := by
  cases event with
  | signal =>
    have same := Option.some.inj returned
    rw [← same]
    exact wired.still rfl (wired.calm stepped (by simp) (by simp))
  | select outcome =>
    have same : served = session.host := by
      cases outcome with
      | none => exact (Option.some.inj returned).symm
      | some ready =>
        simp only [CommandHost.kernel, Option.ite_none_right_eq_some, Option.some.injEq] at returned
        exact returned.2.symm
    rw [same]
    exact wired.still rfl (wired.calm stepped (by simp) (by simp))
  | scan =>
    have same := Option.some.inj returned
    rw [← same]
    exact wired.still rfl (wired.calm stepped (by simp) (by simp))
  | check =>
    have same := Option.some.inj returned
    rw [← same]
    exact wired.still rfl (wired.calm stepped (by simp) (by simp))
  | accept result =>
    have calm := wired.calm stepped (by simp) (by simp)
    cases result with
    | connection nClientSocket =>
      simp only [CommandHost.kernel] at returned
      split at returned
      · cases returned
      · rename_i connection backlog oldest
        have same := Option.some.inj returned
        have lengths := wired.aligned
        rw [oldest, List.length_cons] at lengths
        obtain ⟨number, queued, named⟩ := List.exists_cons_of_length_eq_add_one lengths
        rw [← same]
        simp only [note, named]
        exact wired.accept oldest named calm
    | wouldBlock =>
      simp only [CommandHost.kernel, Option.ite_none_right_eq_some, Option.some.injEq] at returned
      rw [← returned.2]
      exact wired.still rfl calm
    | failed =>
      have same := Option.some.inj returned
      rw [← same]
      exact wired.still rfl calm
  | recv result =>
    by_cases plain : ∀ received, result = .data received → received = []
    · have same := recv_untaken returned plain
      have calm := wired.calm stepped (by simpa using plain) (by simp)
      have unnoted : session.note state (.server (.recv result)) = session := by
        cases result with
        | data received => simp only [note, if_pos (plain received rfl)]
        | wouldBlock => rfl
        | failed => rfl
      rw [same, unnoted]
      exact wired.still rfl calm
    · push Not at plain
      obtain ⟨received, data, nonempty⟩ := plain
      rw [data] at returned stepped ⊢
      exact wired.recv state nonempty returned stepped
  | execute =>
    have same := Option.some.inj returned
    have executed : server.stage ≠ .executing := by
      intro executing
      simpa using (CommandServer.step_executing stepped).1.mp executing
    rw [← same]
    simp only [note, execute]
    split
    · exact wired.still (by simp) (by simp [executed])
    · exact wired.still (by simp) (by simp [executed])
  | close =>
    have same := Option.some.inj returned
    rw [← same]
    exact wired.hold rfl (by simp) (wired.conserves.lose _)
      (wired.calm stepped (by simp) (by simp))
  | cleanUp =>
    have calm := wired.calm stepped (by simp) (by simp)
    simp only [CommandHost.kernel] at returned
    simp only [note]
    split at returned
    · rename_i member
      have same := Option.some.inj returned
      rw [← same, if_pos member]
      exact wired.hold rfl (by simp) (wired.conserves.lose _) calm
    · rename_i outside
      have same := Option.some.inj returned
      rw [← same, if_neg outside]
      exact wired.still rfl calm

end Server

/-- A step is one before a fault, of the server or a client, with what it brings with it. -/
theorem step_cases {event : HostEvent} (stepped : session.step inherits event = some next) :
    ∃ state host, session.midi = .ok state ∧ session.host.step inherits event = some host ∧
      next = { session.note state event with host := host } := by
  unfold step at stepped
  split at stepped
  · cases stepped
  · rename_i state running
    have ⟨host, taken, same⟩ := Option.map_eq_some_iff.mp stepped
    exact ⟨state, host, running, taken, same.symm⟩

/-- Every step keeps the connections and what is in flight. -/
theorem step_wired {event : HostEvent} (wired : session.Wired)
    (stepped : session.step inherits event = some next) : next.Wired := by
  have ⟨state, host, _, taken, same⟩ := step_cases stepped
  rw [same]
  cases event with
  | connect =>
    rw [← Option.some.inj taken]
    exact wired.connect
  | send place bytes =>
    rw [← Option.some.inj taken]
    exact wired.send state place bytes
  | shut place =>
    rw [← Option.some.inj taken]
    exact wired.shut place
  | server event =>
    have ⟨served, returned, rest⟩ := Option.bind_eq_some_iff.mp taken
    have ⟨server, advanced, built⟩ := Option.map_eq_some_iff.mp rest
    rw [← built]
    exact wired.serve state returned advanced

/-- What was received on a connection, when nothing is in hand. -/
theorem received_idle (idle : session.inHand = none) (number : Nat) :
    session.received number = (own number session.executed).flatten := by
  rw [CommandSession.received, idle, Option.toList_none, List.append_nil]

/-! ## The handlers are called with the results of `recv` -/

/-- A result behind others is received where they have led to. -/
theorem receiveCommands_concat (cBuff : List UInt8) (state : MidiState)
    (front : List (List UInt8)) (last : List UInt8) :
    receiveCommands cBuff state (front ++ [last]) =
      (receiveCommands cBuff state front).bind fun middle =>
        receiveCommand middle.1 middle.2 last := by
  induction front generalizing cBuff state with
  | nil =>
    show receiveCommands cBuff state [last] = receiveCommand cBuff state last
    rw [receiveCommands]
    split
    · rename_i received
      rw [received]
      rfl
    · rename_i failed
      exact failed.symm
  | cons first rest ih =>
    rw [List.cons_append, receiveCommands, receiveCommands]
    split
    · exact ih _ _
    · rfl

/-- What is in the buffer: what the results executed so far have left, and over it the one in
hand. -/
def Buffered (session : CommandSession) (buffer : List UInt8) : Prop :=
  match session.inHand with
  | none => session.cBuff = buffer
  | some (_, received) =>
    session.cBuff = memcpy buffer 0 received ∧ session.nRc = received.length

/-- The results executed so far have led to the state of the handlers. -/
def Executes (cBuff : List UInt8) (midi : MidiState) (session : CommandSession) : Prop :=
  match session.midi with
  | .error fault => receiveCommands cBuff midi (session.executed.map Prod.snd) = .error fault
  | .ok state => ∃ buffer, buffer.length = commandBufferLength ∧ session.Buffered buffer ∧
    receiveCommands cBuff midi (session.executed.map Prod.snd) = .ok (buffer, state)

variable {cBuff : List UInt8} {midi state : MidiState}

/-- Before a fault. -/
theorem executes_ok (session : CommandSession) (running : session.midi = .ok state) :
    session.Executes cBuff midi ↔ ∃ buffer, buffer.length = commandBufferLength ∧
      session.Buffered buffer ∧
      receiveCommands cBuff midi (session.executed.map Prod.snd) = .ok (buffer, state) := by
  rw [Executes, running]

/-- Behind a fault. -/
theorem executes_error (session : CommandSession) {fault : CommandFault}
    (faulted : session.midi = .error fault) :
    session.Executes cBuff midi ↔
      receiveCommands cBuff midi (session.executed.map Prod.snd) = .error fault := by
  rw [Executes, faulted]

/-- The results lead to the state of the handlers, whatever the buffer. -/
theorem Executes.handlers (executes : session.Executes cBuff midi) :
    session.midi = (receiveCommands cBuff midi (session.executed.map Prod.snd)).map Prod.snd := by
  unfold Executes at executes
  split at executes
  · rename_i fault faulted
    rw [faulted, executes]
    rfl
  · rename_i state running
    have ⟨buffer, _, _, reached⟩ := executes
    rw [running, reached]
    rfl

/-- The result in hand is executed as a text of its own. -/
theorem Executes.execute (executes : session.Executes cBuff midi)
    (running : session.midi = .ok state) {entry : Nat × List UInt8}
    (held : session.inHand = some entry) : (session.execute state).Executes cBuff midi := by
  have ⟨buffer, size, buffered, reached⟩ := (executes_ok session running).mp executes
  rw [Buffered, held] at buffered
  have ⟨written, count⟩ := buffered
  have behind : receiveCommands cBuff midi
      ((session.executed ++ session.inHand.toList).map Prod.snd) =
        receiveCommand buffer state entry.2 := by
    rw [held, Option.toList_some, List.map_append, List.map_singleton, receiveCommands_concat,
      reached]
    rfl
  rw [CommandSession.execute]
  split
  · rename_i fits
    rw [count] at fits
    have step : receiveCommand buffer state entry.2 =
        (executeCmdFromUnixSocket (cString (session.cBuff.set session.nRc 0)) state).map
          fun result => (session.cBuff.set session.nRc 0, result.1) := by
      rw [receiveCommand, if_pos fits, written, count]
    have length : (session.cBuff.set session.nRc 0).length = commandBufferLength := by
      rw [List.length_set, written, memcpy_length (by rw [size]; omega), size]
    rw [step] at behind
    cases outcome : executeCmdFromUnixSocket (cString (session.cBuff.set session.nRc 0)) state with
    | error fault =>
      have faulted := congrArg (Except.map Prod.fst) outcome
      rw [outcome] at behind
      refine (executes_error _ ?_).mpr behind
      exact faulted
    | ok result =>
      have called := congrArg (Except.map Prod.fst) outcome
      rw [outcome] at behind
      refine (executes_ok _ ?_).mpr ⟨_, length, rfl, behind⟩
      exact called
  · rename_i overrun
    rw [count] at overrun
    have faulted : receiveCommand buffer state entry.2 = .error .bufferOverrun := if_neg overrun
    rw [faulted] at behind
    exact (executes_error _ rfl).mpr behind

/-- A step that neither receives nor executes leaves the buffer and the handlers as they are. -/
theorem Executes.still (executes : session.Executes cBuff midi)
    (same : next.midi = session.midi ∧ next.executed = session.executed ∧
      next.inHand = session.inHand ∧ next.cBuff = session.cBuff ∧ next.nRc = session.nRc) :
    next.Executes cBuff midi := by
  have ⟨midi_same, executed_same, hand_same, buffer_same, count_same⟩ := same
  unfold Executes Buffered
  rw [midi_same, executed_same, hand_same, buffer_same, count_same]
  exact executes

/-- Every step keeps to the results executed so far. -/
theorem step_executes {event : HostEvent} (wired : session.Wired)
    (executes : session.Executes cBuff midi)
    (stepped : session.step inherits event = some next) : next.Executes cBuff midi := by
  obtain ⟨state, host, running, taken, same⟩ := step_cases stepped
  rw [same]
  cases event with
  | connect => exact executes.still ⟨rfl, rfl, rfl, rfl, rfl⟩
  | shut place => exact executes.still ⟨rfl, rfl, rfl, rfl, rfl⟩
  | send place bytes =>
    apply executes.still
    simp only [note]
    split
    · split <;> exact ⟨rfl, rfl, rfl, rfl, rfl⟩
    · exact ⟨rfl, rfl, rfl, rfl, rfl⟩
  | server event =>
    obtain ⟨served, returned, rest⟩ := Option.bind_eq_some_iff.mp taken
    obtain ⟨server, advanced, _⟩ := Option.map_eq_some_iff.mp rest
    cases event with
    | signal | select | scan | check | close =>
      exact executes.still ⟨rfl, rfl, rfl, rfl, rfl⟩
    | cleanUp =>
      apply executes.still
      simp only [note]
      split <;> exact ⟨rfl, rfl, rfl, rfl, rfl⟩
    | accept result =>
      apply executes.still
      cases result with
      | connection nClientSocket =>
        simp only [note]
        split <;> exact ⟨rfl, rfl, rfl, rfl, rfl⟩
      | wouldBlock => exact ⟨rfl, rfl, rfl, rfl, rfl⟩
      | failed => exact ⟨rfl, rfl, rfl, rfl, rfl⟩
    | execute =>
      simp only [CommandServer.step, Option.ite_none_right_eq_some, Option.some.injEq] at advanced
      obtain ⟨entry, held⟩ := Option.isSome_iff_exists.mp (wired.hand.mpr advanced.1)
      exact (executes.execute running held).still ⟨rfl, rfl, rfl, rfl, rfl⟩
    | recv result =>
      cases result with
      | wouldBlock | failed => exact executes.still ⟨rfl, rfl, rfl, rfl, rfl⟩
      | data received =>
        simp only [note]
        split
        · exact executes.still ⟨rfl, rfl, rfl, rfl, rfl⟩
        · obtain ⟨_, busy⟩ := CommandServer.step_executing advanced
          have free : session.inHand = none :=
            wired.free fun early => by simpa using busy early
          obtain ⟨socket, found, _⟩ := Option.bind_eq_some_iff.mp returned
          have named : (session.holders session.host.server.nFdIndex).isSome = true := by
            rw [wired.holders, found]
            rfl
          obtain ⟨number, holder⟩ := Option.isSome_iff_exists.mp named
          obtain ⟨buffer, size, buffered, reached⟩ := (executes_ok session running).mp executes
          rw [Buffered, free] at buffered
          refine (executes_ok _ ?_).mpr ⟨buffer, size, ?_, reached⟩
          · exact running
          · rw [Buffered, holder, buffered]
            exact ⟨rfl, rfl⟩

/-! ## What holds in every run -/

/-- What the clients send reaches the handlers. -/
structure Delivers (cBuff : List UInt8) (midi : MidiState) (session : CommandSession) : Prop where
  /-- On a connection that is there, what was sent is what was received and what is in flight. -/
  balanced : ∀ place number connection,
    session.connectionAt place = some (number, connection) →
    session.sent number = session.received number ++ connection.pending
  /-- A connection is at one place. -/
  apart : ∀ place other number connection another,
    session.connectionAt place = some (number, connection) →
    session.connectionAt other = some (number, another) → place = other
  /-- On every connection, what was received was sent, from the first byte on. -/
  delivered : ∀ number, session.received number <+: session.sent number
  /-- The handlers have been called as if one client had sent the results executed so far. -/
  executes : session.midi =
    (receiveCommands cBuff midi (session.executed.map Prod.snd)).map Prod.snd

/-- What every step keeps gives what is claimed. -/
theorem Wired.delivers (wired : session.Wired) (executes : session.Executes cBuff midi) :
    session.Delivers cBuff midi := by
  have carried : ∀ place number connection,
      session.connectionAt place = some (number, connection) →
      session.ends place = some (number, connection.pending) := by
    intro place number connection found
    rw [ends, found]
    rfl
  constructor
  · intro place number connection found
    exact wired.conserves.balanced place number _ (carried place number connection found)
  · intro place other number connection another found also
    exact wired.conserves.apart place other number _ _ (carried place number connection found)
      (carried other number another also)
  · exact wired.conserves.delivered
  · exact executes.handlers

/-- What every step keeps. -/
def Kept (cBuff : List UInt8) (midi : MidiState) (session : CommandSession) : Prop :=
  session.Wired ∧ session.Executes cBuff midi

/-- It holds in the beginning. -/
theorem start_kept (nServerSocket : Nat) (midi : MidiState)
    (size : cBuff.length = commandBufferLength) :
    (start nServerSocket cBuff midi).Kept cBuff midi :=
  ⟨start_wired nServerSocket cBuff midi, cBuff, size, rfl, rfl⟩

/-- Every step keeps it. -/
theorem step_kept {event : HostEvent} (kept : session.Kept cBuff midi)
    (stepped : session.step inherits event = some next) : next.Kept cBuff midi :=
  ⟨step_wired kept.1 stepped, step_executes kept.1 kept.2 stepped⟩

/-- From the clients to the handlers: for any number of clients that connect, send and close in
any order, whether accepted sockets block or not, and whatever the kernel returns, in every state of
every run, what was sent on a connection is what was received on it and what is in flight, in this
order, and the handlers have been called with the results of `recv` in their order, each as a text
of its own in spite of the buffer that all clients share. -/
theorem bytes_delivered (inherits : Bool) (nServerSocket : Nat) (cBuff : List UInt8)
    (midi : MidiState) (size : cBuff.length = commandBufferLength) (events : List HostEvent) :
    EachState (step inherits) (Delivers cBuff midi) (start nServerSocket cBuff midi) events := by
  apply eachState_of_invariant (fun (session : CommandSession) (kept : Kept cBuff midi session) =>
    kept.1.delivers kept.2) (fun _ _ _ kept _ stepped => step_kept kept stepped)
    (start_kept nServerSocket midi size)
  exact eachStep_of_forall (fun _ _ => trivial) _ events

/-- A client is served while another sends, the server leaves it in this way, and the other is
served. -/
def servedInTurn (leaving : List HostEvent) : List HostEvent :=
  let texts := channelAndVolume.map Command.text
  [.connect, .connect, .send (.queued 1) (texts.drop 1).flatten, .server (.select (some {1})),
    .server .scan, .server .scan, .server (.accept (.connection 2)),
    .server (.accept (.connection 3)), .server (.accept .wouldBlock), .server .scan,
    .server .check, .send (.accepted 2) (texts.take 1).flatten, .server (.select (some {2, 3})),
    .server .scan, .server .scan, .server .scan,
    .server (.recv (.data (texts.take 1).flatten)), .server .execute] ++ leaving ++
  [.server .scan, .server (.recv (.data (texts.drop 1).flatten)), .server .execute]

/-- The rule at two clients: the server leaves the first because nothing is left, or, where `recv`
blocks, because the client has closed its end. -/
theorem bytes_delivered_two :
    let started := start 1 (List.replicate 128 7) ⟨50, [], []⟩
    (∃ final, run (step true) started (servedInTurn [.server (.recv .wouldBlock)]) = some final ∧
      final.Delivers (List.replicate 128 7) ⟨50, [], []⟩) ∧
    ∃ final, run (step false) started
        (servedInTurn [.shut (.accepted 2), .server (.recv (.data [])), .server .close]) =
          some final ∧
      final.Delivers (List.replicate 128 7) ⟨50, [], []⟩ := by
  intro started
  have delivered : ∀ inherits leaving,
      (run (step inherits) started (servedInTurn leaving)).isSome = true →
      ∃ final, run (step inherits) started (servedInTurn leaving) = some final ∧
        final.Delivers (List.replicate 128 7) ⟨50, [], []⟩ := by
    intro inherits leaving ran
    obtain ⟨final, reached⟩ := Option.isSome_iff_exists.mp ran
    have each := bytes_delivered inherits 1 (List.replicate 128 7) ⟨50, [], []⟩ rfl
      (servedInTurn leaving)
    exact ⟨final, reached, eachState_iff.mp each _ [] final (List.append_nil _).symm reached⟩
  exact ⟨delivered true _ (by rfl), delivered false _ (by rfl)⟩

end CommandSession

end MidiDaemon
