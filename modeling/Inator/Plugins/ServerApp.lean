import Inator.Lib.Machine
import Inator.Plugins.Authentication

/-! # A running server

The state is what the plugins keep in the world of the app, with the messages that no
authentication system has read yet. The inputs are the systems, the calls an application can
make, and the events of the spawned tasks; their order is free. What the source leaves to
chance is part of the input: the UUID that `Uuid::new_v4` gives, which must be a new one, and
the answers of the handlers. A stream that is accepted gets the next identity. A step that
panics is none, so a run ends before it. -/

namespace Inator

structure ServerApp (τ : Type) [DecidableEq τ] [UserMessages τ] [Ciborium τ] where
  registry : MessagesRegistry τ
  connections : ServerConnections
  unread : List (WorldMessage τ)
  issued : List Uuid
  nextStream : Nat

inductive ServerInput (τ : Type) [UserMessages τ]
  | first (system : FirstSystem)
  | readMessagesServer
  | authenticationMessageServer (t : MessageType τ) (handler : AuthenticationTrait t)
  | registerMessage (t : MessageType τ)
  | startConnection (connectionName : String) (settings : PortSideSettings)
  | disconnect (connectionName : String)
  | portOp (connectionName : String) (op : PortOp)
  | sendMessage (connectionName : String) (t : MessageType τ) (message : t.Message) (target : Uuid)
  | task (connectionName : String) (task : Task) (event : TaskEvent)
  | updateMessages

/-- The step has the main port of the connection of that name run the operation. -/
def ServerInput.Asks {τ : Type} [UserMessages τ] (name : String) (op : PortOp) :
    ServerInput τ → Prop
  | .first system => system.portOp = op
  | .readMessagesServer => op = .checkMessagesReceived
  | .portOp connectionName op' => connectionName = name ∧ op' = op
  | _ => False

/-- What a step shows: the messages it dispatched, the answers of a handler, and the streams it
entered, each with its UUID. -/
structure ServerOutput (τ : Type) [UserMessages τ] where
  dispatched : List (WorldMessage τ)
  calls : List (AuthenticateCall τ)
  admitted : List (Uuid × Stream)

namespace WorldMessage
variable {τ : Type} [DecidableEq τ] [UserMessages τ]

/-- The message, if it is a client's and of type `t`. -/
def fromClient? (t : MessageType τ) : WorldMessage τ → Option (MessageReceivedFromClient τ t)
  | .fromClient t' ev => if h : t' = t then some (h ▸ ev) else none
  | .fromServer .. => none

theorem fromClient?_eq_some {t : MessageType τ} {message : WorldMessage τ}
    {ev : MessageReceivedFromClient τ t} :
    message.fromClient? t = some ev ↔ message = .fromClient t ev := by
  cases message with
  | fromServer t' ev' => simp [fromClient?]
  | fromClient t' ev' =>
    by_cases h : t' = t
    · subst h
      simp [fromClient?]
    · simp [fromClient?, h]

end WorldMessage

variable {τ : Type} [DecidableEq τ] [UserMessages τ] [Ciborium τ]

/-- The accepted streams that wait in the channel of the main port. -/
def ServerConnection.queue (connection : ServerConnection) : List Stream :=
  (connection.mainPort.map (·.clientConnected)).getD []

namespace ServerApp

/-- The world after `ConnectionPlugin::build`, before anything is registered. -/
def new : ServerApp τ where
  registry := .default
  connections := ∅
  unread := []
  issued := []
  nextStream := 0

/-- The main port of a connection. -/
def port? (app : ServerApp τ) (connectionName : String) : Option ServerPort :=
  (app.connections.lookup connectionName).bind (·.mainPort)

/-- The accepted streams that wait at a connection. -/
def queue (app : ServerApp τ) (connectionName : String) : List Stream :=
  ((app.connections.lookup connectionName).map (·.queue)).getD []

def quiet : ServerOutput τ := ⟨[], [], []⟩

/-- Run an operation of the main port of one connection. -/
def modifyPort (app : ServerApp τ) (connectionName : String)
    (op : ServerPort → Option Runtime → ServerPort × List Task) : ServerApp τ :=
  { app with
    connections := AssocMap.modify connectionName (·.onMainPort op) app.connections }

/-- A call of an operation of the main port of a connection. -/
def portOp (app : ServerApp τ) (connectionName : String) (op : PortOp) :
    Option (ServerApp τ × ServerOutput τ) :=
  let run := app.modifyPort connectionName fun port runtime => op.run port runtime
  match op with
  | .checkClientsConnected newUuid =>
    if newUuid ∈ app.issued then none
    else
      match (app.port? connectionName).bind (·.clientConnected.head?) with
      | none => some (run, quiet)
      | some stream =>
        some ({ run with issued := newUuid :: run.issued }, { quiet with
          admitted := [(newUuid, stream)] })
  | _ => some (run, quiet)

/-- A running task of a connection does something. -/
def task (app : ServerApp τ) (connectionName : String) (task : Task) (event : TaskEvent) :
    Option (ServerApp τ × ServerOutput τ) :=
  match app.connections.lookup connectionName with
  | none => none
  | some connection =>
    if task ∈ connection.running ∧ event.By task then
      let received := { app with
        connections := AssocMap.modify connectionName (·.receive task event) app.connections }
      match event with
      | .clientConnected stream =>
        if stream.id = app.nextStream then
          some ({ received with nextStream := app.nextStream + 1 }, quiet)
        else none
      | _ => some (received, quiet)
    else none

/-- The steps of a server. -/
def step (app : ServerApp τ) : ServerInput τ → Option (ServerApp τ × ServerOutput τ)
  | .first system => some ({ app with connections := system.run app.connections }, quiet)
  | .readMessagesServer =>
    match readMessagesServer app.registry app.connections with
    | .error _ => none
    | .ok (connections, commands) =>
      match applyCommands commands with
      | .error _ => none
      | .ok dispatched =>
        some ({ app with connections := connections, unread := app.unread ++ dispatched },
          { quiet with dispatched := dispatched })
  | .authenticationMessageServer t handler =>
    match authenticationMessageServer handler app.connections
        (app.unread.filterMap (·.fromClient? t)) with
    | .error _ => none
    | .ok (connections, calls) =>
      some ({ app with
          connections := connections
          unread := app.unread.filter fun message => (message.fromClient? t).isNone },
        { quiet with calls := calls })
  | .registerMessage t => some ({ app with registry := app.registry.registerMessage t }, quiet)
  | .startConnection connectionName settings =>
    some ({ app with connections :=
      NetworkConnections.startConnection app.connections connectionName settings }, quiet)
  | .disconnect connectionName =>
    some ({ app with connections :=
      NetworkConnections.disconnect app.connections connectionName }, quiet)
  | .portOp connectionName op => app.portOp connectionName op
  | .sendMessage connectionName _ message target =>
    some (app.modifyPort connectionName fun port runtime =>
      (port, port.sendMessage message target runtime), quiet)
  | .task connectionName task event => app.task connectionName task event
  | .updateMessages => some ({ app with unread := [] }, quiet)

/-! ## What a step does to a connection -/

/-- How a step with that input and output leads to the connection of that name. -/
inductive Change (app : ServerApp τ) (input : ServerInput τ) (output : ServerOutput τ)
    (name : String) : ServerConnection → Prop
  | created {settings : PortSideSettings} {after : ServerConnection}
      (new : ServerConnection.new name settings = some after) : Change app input output name after
  | kept {after : ServerConnection} (lookup : app.connections.lookup name = some after) :
      Change app input output name after
  | ran {op : PortOp} {before after : ServerConnection}
      (lookup : app.connections.lookup name = some before) (ran : before.Ran op after)
      (asked : input.Asks name op)
      (admits : ∀ newUuid, op = .checkClientsConnected newUuid →
        input = .portOp name (.checkClientsConnected newUuid) ∧
        ∀ port stream rest, before.mainPort = some port →
          port.clientConnected = stream :: rest → output.admitted = [(newUuid, stream)]) :
      Change app input output name after
  | received {before : ServerConnection} {task : Task} {event : TaskEvent}
      (lookup : app.connections.lookup name = some before) (asked : input = .task name task event)
      (runs : task ∈ before.running) (does : event.By task)
      (next : ∀ stream, event = .clientConnected stream → stream.id = app.nextStream) :
      Change app input output name (before.receive task event)
  | sent {before : ServerConnection} {t : MessageType τ} {message : t.Message} {target : Uuid}
      (lookup : app.connections.lookup name = some before)
      (sent : input = .sendMessage name t message target) :
      Change app input output name (before.onMainPort fun port runtime =>
        (port, port.sendMessage message target runtime))
  | settled {before : ServerConnection}
      (lookup : app.connections.lookup name = some before) :
      Change app input output name
        (output.calls.foldl (ServerConnection.settleCall name) before)

variable {app app' : ServerApp τ} {input : ServerInput τ} {output : ServerOutput τ}
  {name : String} {after : ServerConnection}

theorem port?_eq_some {port : ServerPort} :
    app.port? name = some port ↔
      ∃ connection, app.connections.lookup name = some connection ∧
        connection.mainPort = some port := by
  simp only [port?, Option.bind_eq_some_iff]

/-- What a call of an operation shows. -/
theorem portOp_spec {op : PortOp} (h : app.portOp connectionName op = some (app', output)) :
    app'.connections = (app.modifyPort connectionName fun port runtime =>
      op.run port runtime).connections ∧
    app'.unread = app.unread ∧ app'.nextStream = app.nextStream ∧
    output.dispatched = [] ∧ output.calls = [] ∧
    ((output.admitted = [] ∧ app'.issued = app.issued ∧
        ∀ newUuid, op = .checkClientsConnected newUuid →
          ∀ port, app.port? connectionName = some port → port.clientConnected = []) ∨
      ∃ newUuid port stream rest, op = .checkClientsConnected newUuid ∧ newUuid ∉ app.issued ∧
        app.port? connectionName = some port ∧ port.clientConnected = stream :: rest ∧
        app'.issued = newUuid :: app.issued ∧ output.admitted = [(newUuid, stream)]) := by
  unfold portOp at h
  split at h
  · rename_i newUuid
    split at h
    · cases h
    · rename_i hfresh
      split at h
      · rename_i hnone
        cases h
        refine ⟨rfl, rfl, rfl, rfl, rfl, .inl ⟨rfl, rfl, ?_⟩⟩
        intro newUuid' _ port hport
        rw [hport] at hnone
        exact List.head?_eq_none_iff.mp hnone
      · rename_i stream hsome
        obtain ⟨port, hport, hhead⟩ := Option.bind_eq_some_iff.mp hsome
        obtain ⟨rest, hrest⟩ := List.head?_eq_some_iff.mp hhead
        cases h
        exact ⟨rfl, rfl, rfl, rfl, rfl,
          .inr ⟨newUuid, port, stream, rest, rfl, hfresh, hport, hrest, rfl, rfl⟩⟩
  · rename_i hother
    cases h
    refine ⟨rfl, rfl, rfl, rfl, rfl, .inl ⟨rfl, rfl, ?_⟩⟩
    intro newUuid hop
    exact absurd hop (hother newUuid)

/-- What an event of a task does. -/
theorem task_spec {task : Task} {event : TaskEvent}
    (h : app.task connectionName task event = some (app', output)) :
    app'.connections =
        AssocMap.modify connectionName (·.receive task event) app.connections ∧
    (∃ connection, app.connections.lookup connectionName = some connection ∧
      task ∈ connection.running ∧ event.By task) ∧
    app'.unread = app.unread ∧ app'.issued = app.issued ∧ output = quiet ∧
    ((∃ stream, event = .clientConnected stream ∧ stream.id = app.nextStream ∧
        app'.nextStream = app.nextStream + 1) ∨
      (∀ stream, event ≠ .clientConnected stream) ∧ app'.nextStream = app.nextStream) := by
  unfold ServerApp.task at h
  split at h
  · cases h
  · rename_i connection hlookup
    split at h
    · rename_i hruns
      have hconnection : ∃ connection, app.connections.lookup connectionName = some connection ∧
          task ∈ connection.running ∧ event.By task := ⟨connection, hlookup, hruns⟩
      split at h
      · rename_i stream
        split at h
        · rename_i hid
          cases h
          exact ⟨rfl, hconnection, rfl, rfl, rfl, .inl ⟨stream, rfl, hid, rfl⟩⟩
        · cases h
      · rename_i hother
        cases h
        exact ⟨rfl, hconnection, rfl, rfl, rfl, .inr ⟨hother, rfl⟩⟩
    · cases h

theorem step_first {system : FirstSystem} (h : app.step (.first system) = some (app', output)) :
    app'.connections = system.run app.connections := by
  cases h
  rfl

/-- What `read_messages_server` does, if it ends. -/
theorem step_readMessagesServer (h : app.step .readMessagesServer = some (app', output)) :
    ∃ connections commands dispatched,
      readMessagesServer app.registry app.connections = .ok (connections, commands) ∧
      applyCommands commands = .ok dispatched ∧ output = { quiet with dispatched := dispatched } ∧
      app' = { app with
        connections := connections
        unread := app.unread ++ dispatched } := by
  simp only [step] at h
  split at h
  · cases h
  · rename_i connections commands hread
    split at h
    · cases h
    · rename_i dispatched happlied
      cases h
      exact ⟨connections, commands, dispatched, hread, happlied, rfl, rfl⟩

/-- What `authentication_message_server` does, if it ends. -/
theorem step_authenticationMessageServer {t : MessageType τ} {handler : AuthenticationTrait t}
    (h : app.step (.authenticationMessageServer t handler) = some (app', output)) :
    ∃ connections calls, authenticationMessageServer handler app.connections
        (app.unread.filterMap (·.fromClient? t)) = .ok (connections, calls) ∧
      output = { quiet with calls := calls } ∧
      app' = { app with
        connections := connections
        unread := app.unread.filter fun message => (message.fromClient? t).isNone } := by
  simp only [step] at h
  split at h
  · cases h
  · rename_i connections calls hloop
    cases h
    exact ⟨connections, calls, hloop, rfl, rfl⟩

/-- **What a step does to a connection.** -/
theorem step_change (h : app.step input = some (app', output))
    (hlookup : app'.connections.lookup name = some after) :
    Change app input output name after := by
  cases input with
  | first system =>
    cases h
    obtain ⟨before, hbefore, rfl | hran⟩ := FirstSystem.run_lookup hlookup
    · exact .kept hbefore
    · exact .ran hbefore hran rfl fun newUuid hop => by cases system <;> cases hop
  | readMessagesServer =>
    obtain ⟨connections, commands, dispatched, hread, -, -, rfl⟩ := step_readMessagesServer h
    obtain ⟨commands', -, heq⟩ := Panicking.bind_eq_ok.mp hread
    cases heq
    rw [AssocMap.lookup_mapVals] at hlookup
    obtain ⟨before, hbefore, rfl⟩ := Option.map_eq_some_iff.mp hlookup
    have hran : before.Ran .checkMessagesReceived before.drained := by
      refine ⟨rfl, rfl, none, rfl, ?_⟩
      intro task htask
      exact .inl htask
    exact .ran hbefore hran rfl nofun
  | authenticationMessageServer t handler =>
    obtain ⟨connections, calls, hloop, rfl, rfl⟩ := step_authenticationMessageServer h
    rw [(authenticationLoop_spec hloop).1 name] at hlookup
    obtain ⟨before, hbefore, rfl⟩ := Option.map_eq_some_iff.mp hlookup
    exact .settled hbefore
  | registerMessage t =>
    cases h
    exact .kept hlookup
  | startConnection connectionName settings =>
    cases h
    rcases NetworkConnections.lookup_startConnection hlookup with hlookup | hnew
    · exact .kept hlookup
    · exact .created hnew
  | disconnect connectionName =>
    cases h
    exact .kept (AssocMap.lookup_of_erase hlookup).2
  | portOp connectionName op =>
    obtain ⟨hconnections, -, -, -, -, hadmitted⟩ := portOp_spec h
    rw [hconnections] at hlookup
    rcases AssocMap.lookup_of_modify hlookup with ⟨-, hkept⟩ | ⟨before, rfl, hbefore, rfl⟩
    · exact .kept hkept
    · refine .ran hbefore (before.onMainPort_ran op) ⟨rfl, rfl⟩ ?_
      rintro newUuid rfl
      refine ⟨rfl, ?_⟩
      intro port stream rest hport hqueue
      have hport' := port?_eq_some.mpr ⟨before, hbefore, hport⟩
      rcases hadmitted with ⟨-, -, hempty⟩ |
        ⟨newUuid', port', stream', rest', hop, -, hp, hq, -, ho⟩
      · have hnil := hempty newUuid rfl port hport'
        rw [hqueue] at hnil
        cases hnil
      · cases hop
        cases hport'.symm.trans hp
        cases hqueue.symm.trans hq
        exact ho
  | sendMessage connectionName t message target =>
    cases h
    rcases AssocMap.lookup_of_modify hlookup with ⟨-, hkept⟩ | ⟨before, rfl, hbefore, rfl⟩
    · exact .kept hkept
    · exact .sent hbefore rfl
  | task connectionName task event =>
    obtain ⟨hconnections, ⟨connection, hconnection, hruns, hdoes⟩, -, -, -, hnext⟩ := task_spec h
    rw [hconnections] at hlookup
    rcases AssocMap.lookup_of_modify hlookup with ⟨-, hkept⟩ | ⟨before, rfl, hbefore, rfl⟩
    · exact .kept hkept
    · cases hbefore.symm.trans hconnection
      apply Change.received hbefore rfl hruns hdoes
      intro stream hevent
      rcases hnext with ⟨stream', hevent', hid, -⟩ | ⟨hother, -⟩
      · cases hevent.symm.trans hevent'
        exact hid
      · exact absurd hevent (hother stream)
  | updateMessages =>
    cases h
    exact .kept hlookup

/-- A step that has `check_clients_diconnected` called keeps the connection. -/
theorem step_disconnects {before : ServerConnection} (h : app.step input = some (app', output))
    (hasks : input.Asks name .checkClientsDiconnected)
    (hlookup : app.connections.lookup name = some before) :
    app'.connections.lookup name =
      some (before.onMainPort fun port _ => (port.checkClientsDiconnected.1, [])) := by
  cases input with
  | first system =>
    cases h
    cases system with
    | checkClientDisconnectedFromPort | checkClientConnectedToPort =>
      simp only [FirstSystem.run, Inator.checkClientDisconnectedFromPort,
        Inator.checkClientConnectedToPort, ServerConnections.forEachMainPort,
        AssocMap.lookup_mapVals, hlookup, Option.map_some]
    | _ => cases hasks
  | readMessagesServer => cases hasks
  | portOp connectionName op =>
    obtain ⟨hconnections, -⟩ := portOp_spec h
    obtain ⟨rfl, rfl⟩ := hasks
    rw [hconnections, modifyPort, AssocMap.lookup_modify, hlookup]
    rfl
  | _ => cases hasks

/-! ## What a step does to the streams that wait -/

theorem queue_onMainPort {op : ServerPort → Option Runtime → ServerPort × List Task}
    {connection : ServerConnection}
    (hop : ∀ port runtime, (op port runtime).1.clientConnected = port.clientConnected) :
    (connection.onMainPort op).queue = connection.queue := by
  unfold ServerConnection.onMainPort
  split
  · rfl
  · rename_i port hport
    simp only [ServerConnection.queue, hport, Option.map_some, Option.getD_some, hop]

omit [DecidableEq τ] in
theorem queue_acceptClient (connection : ServerConnection) (uuid : Uuid) (portNumber : Nat) :
    (connection.acceptClient τ uuid portNumber).queue = connection.queue := by
  have hauthenticated : (connection.authenticateClient uuid portNumber).queue =
      connection.queue := by
    unfold ServerConnection.authenticateClient
    split
    · rfl
    · dsimp only
      split
      · exact queue_onMainPort fun port runtime =>
          port.authenticateClient_clientConnected uuid runtime
      · rfl
  unfold ServerConnection.acceptClient
  dsimp only
  split
  · exact (queue_onMainPort fun _ _ => rfl).trans hauthenticated
  · exact hauthenticated

omit [DecidableEq τ] in
theorem queue_settled (name : String) (connection : ServerConnection)
    (calls : List (AuthenticateCall τ)) :
    (calls.foldl (ServerConnection.settleCall name) connection).queue = connection.queue := by
  refine List.foldlRecOn (motive := fun settled : ServerConnection =>
    settled.queue = connection.queue) _ _ rfl ?_
  intro settled hsettled call _
  unfold ServerConnection.settleCall
  split
  · split
    · exact hsettled
    · rw [queue_acceptClient, hsettled]
  · exact hsettled

/-- **The streams that wait** at a connection stay there, unless the connection goes, a step
enters the first of them, or a task has accepted another one. -/
theorem step_queue (h : app.step input = some (app', output)) (name : String) :
    app'.queue name = [] ∨ app'.queue name = app.queue name ∨
      (∃ newUuid stream, input = .portOp name (.checkClientsConnected newUuid) ∧
        app.queue name = stream :: app'.queue name ∧ output.admitted = [(newUuid, stream)]) ∨
      ∃ task stream, input = .task name task (.clientConnected stream) ∧
        stream.id = app.nextStream ∧ app'.queue name = app.queue name ++ [stream] := by
  cases hlookup : app'.connections.lookup name with
  | none =>
    left
    simp only [queue, hlookup, Option.map_none, Option.getD_none]
  | some after =>
    have hafter : app'.queue name = after.queue := by
      simp only [queue, hlookup, Option.map_some, Option.getD_some]
    have hbefore : ∀ {before}, app.connections.lookup name = some before →
        app.queue name = before.queue := by
      intro before hlookup
      simp only [queue, hlookup, Option.map_some, Option.getD_some]
    rw [hafter]
    cases step_change h hlookup with
    | @created settings _ new =>
      cases settings with
      | client settings => cases new
      | server settings =>
        cases new
        exact .inl rfl
    | kept lookup => exact .inr (.inl (hbefore lookup).symm)
    | @ran op before _ lookup ran asked admits =>
      obtain ⟨runtime, hmain, -⟩ := ran.mainPort
      rw [hbefore lookup]
      simp only [ServerConnection.queue, hmain]
      cases hport : before.mainPort with
      | none => exact .inl rfl
      | some port =>
        simp only [Option.map_some, Option.getD_some]
        have heffect := op.run_effect port runtime
        generalize (op.run port runtime).1 = port' at heffect
        cases heffect with
        | quiet _ clientConnected => exact .inr (.inl clientConnected)
        | marked | disconnected | disconnectedWaiting => exact .inr (.inl rfl)
        | @admitted newUuid stream rest popped =>
          obtain ⟨hinput, hadmitted⟩ := admits newUuid rfl
          exact .inr (.inr (.inl ⟨newUuid, stream, hinput, popped,
            hadmitted port stream rest hport popped⟩))
    | @received before task event lookup asked _ _ next =>
      rw [hbefore lookup]
      unfold ServerConnection.receive
      split
      · exact .inr (.inl rfl)
      · rename_i port hport
        simp only [ServerConnection.queue, hport, Option.map_some, Option.getD_some]
        cases event with
        | clientConnected stream =>
          exact .inr (.inr (.inr ⟨task, stream, asked, next stream rfl, rfl⟩))
        | _ => exact .inr (.inl rfl)
    | @sent before t message target lookup sent =>
      rw [hbefore lookup]
      exact .inr (.inl (queue_onMainPort fun _ _ => rfl))
    | @settled before lookup =>
      rw [hbefore lookup]
      exact .inr (.inl (queue_settled name before output.calls))

/-! ## What a step shows -/

/-- The steps by what they show: the messages that were dispatched, the calls of a handler, the
stream that was entered, or nothing. -/
inductive Shows (app app' : ServerApp τ) : ServerInput τ → ServerOutput τ → Prop
  | read {connections : ServerConnections} {commands : List (Command τ)}
      {dispatched : List (WorldMessage τ)}
      (read : readMessagesServer app.registry app.connections = .ok (connections, commands))
      (applied : applyCommands commands = .ok dispatched)
      (after : app' = { app with
        connections := connections
        unread := app.unread ++ dispatched }) :
      Shows app app' .readMessagesServer { quiet with dispatched := dispatched }
  | asked {t : MessageType τ} {handler : AuthenticationTrait t} {connections : ServerConnections}
      {calls : List (AuthenticateCall τ)}
      (loop : authenticationMessageServer handler app.connections
        (app.unread.filterMap (·.fromClient? t)) = .ok (connections, calls))
      (after : app' = { app with
        connections := connections
        unread := app.unread.filter fun message => (message.fromClient? t).isNone }) :
      Shows app app' (.authenticationMessageServer t handler) { quiet with calls := calls }
  | ran {name : String} {op : PortOp} {output : ServerOutput τ}
      (ran : app.portOp name op = some (app', output)) : Shows app app' (.portOp name op) output
  | did {name : String} {task : Task} {event : TaskEvent}
      (did : app.task name task event = some (app', quiet)) :
      Shows app app' (.task name task event) quiet
  | silent {input : ServerInput τ} (unread : app'.unread ⊆ app.unread)
      (nextStream : app'.nextStream = app.nextStream)
      (other : ∀ name task event, input ≠ .task name task event) : Shows app app' input quiet

theorem step_shows (h : app.step input = some (app', output)) : Shows app app' input output := by
  cases input with
  | readMessagesServer =>
    obtain ⟨connections, commands, dispatched, hread, happlied, rfl, hafter⟩ :=
      step_readMessagesServer h
    exact .read hread happlied hafter
  | authenticationMessageServer t handler =>
    obtain ⟨connections, calls, hloop, rfl, hafter⟩ := step_authenticationMessageServer h
    exact .asked hloop hafter
  | portOp connectionName op => exact .ran h
  | task connectionName task event =>
    obtain ⟨-, -, -, -, rfl, -⟩ := task_spec h
    exact .did h
  | updateMessages =>
    cases h
    exact .silent (List.nil_subset _) rfl fun _ _ _ hinput => by cases hinput
  | first | registerMessage | startConnection | disconnect | sendMessage =>
    cases h
    exact .silent (List.Subset.refl _) rfl fun _ _ _ hinput => by cases hinput

/-- Streams get new identities. -/
theorem step_nextStream (h : app.step input = some (app', output)) :
    app.nextStream ≤ app'.nextStream ∧
      ∀ name task stream, input = .task name task (.clientConnected stream) →
        app'.nextStream = app.nextStream + 1 := by
  cases step_shows h with
  | read _ _ after | asked _ after =>
    subst after
    exact ⟨Nat.le_refl _, fun _ _ _ hinput => by cases hinput⟩
  | ran ran => exact ⟨(portOp_spec ran).2.2.1.ge, fun _ _ _ hinput => by cases hinput⟩
  | did did =>
    rcases (task_spec did).2.2.2.2.2 with ⟨stream, rfl, -, hnext⟩ | ⟨hother, hnext⟩
    · exact ⟨hnext ▸ Nat.le_succ _, fun _ _ _ _ => hnext⟩
    · refine ⟨hnext.ge, ?_⟩
      intro name task stream hinput
      cases hinput
      exact absurd rfl (hother stream)
  | silent _ nextStream other =>
    exact ⟨nextStream.ge, fun name task stream hinput => absurd hinput (other name task _)⟩

/-- A stream is entered by `check_clients_connected` only, under a UUID that was never issued. -/
theorem step_admitted (h : app.step input = some (app', output)) {uuid : Uuid} {stream : Stream}
    (hadmitted : (uuid, stream) ∈ output.admitted) :
    output.admitted = [(uuid, stream)] ∧ uuid ∉ app.issued ∧ uuid ∈ app'.issued ∧
      ∃ name, input = .portOp name (.checkClientsConnected uuid) ∧
        app.queue name = stream :: app'.queue name := by
  cases step_shows h with
  | read | asked | did | silent => cases hadmitted
  | @ran connectionName op _ ran =>
    obtain ⟨hconnections, -, -, -, -, hnone | hsome⟩ := portOp_spec ran
    · rw [hnone.1] at hadmitted
      cases hadmitted
    · obtain ⟨newUuid, port, stream', rest, rfl, hfresh, hport, hqueue, hissued, hout⟩ := hsome
      rw [hout] at hadmitted
      cases List.mem_singleton.mp hadmitted
      refine ⟨hout, hfresh, hissued ▸ List.mem_cons_self, connectionName, rfl, ?_⟩
      obtain ⟨connection, hlookup, hmain⟩ := port?_eq_some.mp hport
      simp only [queue, hconnections, modifyPort, AssocMap.lookup_modify, hlookup, Option.map_some,
        Option.getD_some, ServerConnection.queue, ServerConnection.onMainPort, hmain, hqueue,
        PortOp.run, ServerPort.checkClientsConnected]

theorem step_unread (h : app.step input = some (app', output)) {message : WorldMessage τ}
    (hmessage : message ∈ app'.unread) : message ∈ app.unread ∨ message ∈ output.dispatched := by
  cases step_shows h with
  | read _ _ after =>
    subst after
    exact List.mem_append.mp hmessage
  | asked _ after =>
    subst after
    exact .inl (List.mem_filter.mp hmessage).1
  | ran ran =>
    rw [(portOp_spec ran).2.1] at hmessage
    exact .inl hmessage
  | did did =>
    rw [(task_spec did).2.2.1] at hmessage
    exact .inl hmessage
  | silent unread => exact .inl (unread hmessage)

/-- A handler is asked about messages that were dispatched, and about nothing else. -/
theorem step_calls (h : app.step input = some (app', output)) {call : AuthenticateCall τ}
    (hcall : call ∈ output.calls) : .fromClient call.type call.event ∈ app.unread := by
  cases step_shows h with
  | read | did | silent => cases hcall
  | asked loop =>
    obtain ⟨ev, hev, answer, rfl, -⟩ := (authenticationLoop_spec loop).2 call hcall
    obtain ⟨message, hmessage, hfrom⟩ := List.mem_filterMap.mp hev
    rw [← WorldMessage.fromClient?_eq_some.mp hfrom]
    exact hmessage
  | ran ran =>
    rw [(portOp_spec ran).2.2.2.2.1] at hcall
    cases hcall

/-- A step that asks a handler settles the calls, and does nothing else to a connection. -/
theorem step_settles (h : app.step input = some (app', output)) {call : AuthenticateCall τ}
    (hcall : call ∈ output.calls) (name : String) :
    app'.connections.lookup name = (app.connections.lookup name).map
      fun before => output.calls.foldl (ServerConnection.settleCall name) before := by
  cases step_shows h with
  | read | did | silent => cases hcall
  | asked loop after =>
    subst after
    exact (authenticationLoop_spec loop).1 name
  | ran ran =>
    rw [(portOp_spec ran).2.2.2.2.1] at hcall
    cases hcall

/-- A message is dispatched only if its sender is authenticated at its connection, or the
message is one that authenticates. -/
theorem step_dispatched (h : app.step input = some (app', output)) {message : WorldMessage τ}
    (hmessage : message ∈ output.dispatched) :
    ∃ name connection, app.connections.lookup name = some connection ∧
      ∃ t payload sender,
        (sender ∈ connection.clientsConnected ∨ t.asAuthentication payload) ∧
        message = .fromClient t ⟨payload, .tcp, some sender, connection.connectionName, 0⟩ := by
  cases step_shows h with
  | asked | did | silent => cases hmessage
  | read read applied =>
    obtain ⟨name, connection, hlookup, t, payload, sender, hadmitted, heq⟩ :=
      mem_of_readMessagesServer read (mem_of_applyCommands applied hmessage)
    cases heq
    exact ⟨name, connection, hlookup, t, payload, sender, hadmitted, rfl⟩
  | ran ran =>
    rw [(portOp_spec ran).2.2.2.1] at hmessage
    cases hmessage

end ServerApp

/-- The runs of a server. -/
def serverMachine (τ : Type) [DecidableEq τ] [UserMessages τ] [Ciborium τ] :
    Machine (ServerApp τ) (ServerInput τ) (ServerOutput τ) where
  step := ServerApp.step

end Inator
