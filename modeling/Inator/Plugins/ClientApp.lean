import Inator.Lib.Machine
import Inator.Plugins.Authentication
import Inator.Plugins.Client
import Mathlib.Data.List.Induction

/-! # A running client

The state is what the plugins keep in the world of the app, the messages the authentication
system has not read yet, and the systems of `First` that are still to run in this frame. The
tasks and the application may act between any two systems. A stream a task connects to gets the
next identity. A step that panics is none. -/

namespace Inator

structure ClientApp (τ : Type) [DecidableEq τ] [UserMessages τ] [Ciborium τ] where
  registry : MessagesRegistry τ
  connections : ClientConnections
  unread : List (WorldMessage τ)
  pending : List ClientSystem
  nextStream : Nat

inductive ClientInput (τ : Type) [UserMessages τ]
  | first (system : ClientSystem)
  | readMessagesClient
  | authenticationMessageClient
  | registerMessage (t : MessageType τ)
  | startConnection (connectionName : String) (settings : PortSideSettings)
  | disconnect (connectionName : String)
  | sendMessage (connectionName : String) (t : MessageType τ) (message : t.Message)
  | task (connectionName : String) (task : ClientTask) (event : ClientEvent)
  | updateMessages

/-- The message, if it is the server's and of type `t`. -/
def WorldMessage.fromServer? {τ : Type} [DecidableEq τ] [UserMessages τ] (t : MessageType τ) :
    WorldMessage τ → Option (MessageReceivedFromServer τ t)
  | .fromServer t' ev => if h : t' = t then some (h ▸ ev) else none
  | .fromClient .. => none

theorem WorldMessage.fromServer?_eq_some {τ : Type} [DecidableEq τ] [UserMessages τ]
    {t : MessageType τ} {message : WorldMessage τ} {ev : MessageReceivedFromServer τ t} :
    message.fromServer? t = some ev ↔ message = .fromServer t ev := by
  cases message with
  | fromClient t' ev' => simp [fromServer?]
  | fromServer t' ev' =>
    by_cases h : t' = t
    · subst h
      simp [fromServer?]
    · simp [fromServer?, h]

variable {τ : Type} [DecidableEq τ] [UserMessages τ] [Ciborium τ]

namespace ClientApp

/-- The world after `ConnectionPlugin::build`, before anything is registered. -/
def new : ClientApp τ where
  registry := .default
  connections := ∅
  unread := []
  pending := ClientSystem.firstChain
  nextStream := 0

/-- Change one connection. -/
def modify (app : ClientApp τ) (connectionName : String)
    (f : ClientConnection → ClientConnection) : ClientApp τ :=
  { app with connections := AssocMap.modify connectionName f app.connections }

/-- The systems that are left after the first one; a new frame begins after the last. -/
def rest (pending : List ClientSystem) : List ClientSystem :=
  match pending.tail with
  | [] => ClientSystem.firstChain
  | system :: systems => system :: systems

/-- A running task of a connection does something. -/
def task (app : ClientApp τ) (connectionName : String) (task : ClientTask) (event : ClientEvent) :
    Option (ClientApp τ) :=
  match app.connections.lookup connectionName with
  | none => none
  | some connection =>
    if task ∈ connection.running ∧ ∃ port ∈ connection.mainPort, event.By port.settings task then
      let received := app.modify connectionName fun connection => connection.receive task event
      match event with
      | .connectedToServer stream =>
        if stream.id = app.nextStream then
          some { received with nextStream := app.nextStream + 1 }
        else none
      | _ => some received
    else none

/-- The steps of a client. The output is what `read_messages_client` dispatched. -/
def step (app : ClientApp τ) : ClientInput τ → Option (ClientApp τ × List (WorldMessage τ))
  | .first system =>
    if app.pending.head? = some system then
      some ({ app with connections := system.run app.connections, pending := rest app.pending }, [])
    else none
  | .readMessagesClient =>
    match readMessagesClient app.registry app.connections with
    | .error _ => none
    | .ok (connections, commands) =>
      match applyCommands commands with
      | .error _ => none
      | .ok dispatched =>
        some ({ app with connections := connections, unread := app.unread ++ dispatched },
          dispatched)
  | .authenticationMessageClient =>
    some ({ app with
        connections := (app.unread.filterMap (·.fromServer? .authenticatedUuid)).foldl
          authenticationMessageClient app.connections
        unread := app.unread.filter fun message =>
          (message.fromServer? .authenticatedUuid).isNone }, [])
  | .registerMessage t => some ({ app with registry := app.registry.registerMessage t }, [])
  | .startConnection connectionName settings =>
    some ({ app with connections :=
      NetworkConnections.startConnection app.connections connectionName settings }, [])
  | .disconnect connectionName =>
    some ({ app with connections :=
      NetworkConnections.disconnect app.connections connectionName }, [])
  | .sendMessage connectionName _ message =>
    some (app.modify connectionName fun connection =>
      connection.onMainPort fun port runtime => port.sendMessage message runtime, [])
  | .task connectionName task event =>
    (app.task connectionName task event).map fun app' => (app', [])
  | .updateMessages => some ({ app with unread := [] }, [])

/-! ## What a step does to a connection -/

/-- How a step with that input leads to the connection of that name. -/
inductive Change (app : ClientApp τ) (input : ClientInput τ) (name : String) :
    ClientConnection → Prop
  | created {settings : PortSideSettings} {after : ClientConnection}
      (new : ClientConnection.new name settings = some after) : Change app input name after
  | kept {after : ClientConnection} (lookup : app.connections.lookup name = some after) :
      Change app input name after
  | turned {system : ClientSystem} {before : ClientConnection}
      (lookup : app.connections.lookup name = some before) (asked : input = .first system) :
      Change app input name (system.turn before)
  | received {task : ClientTask} {event : ClientEvent} {before : ClientConnection}
      {port : ClientPort} (lookup : app.connections.lookup name = some before)
      (asked : input = .task name task event) (runs : task ∈ before.running)
      (installed : before.mainPort = some port) (does : event.By port.settings task) :
      Change app input name (before.receive task event)
  | sent {t : MessageType τ} {message : t.Message} {before : ClientConnection}
      (lookup : app.connections.lookup name = some before) :
      Change app input name (before.onMainPort fun port runtime =>
        port.sendMessage message runtime)
  | drained {before : ClientConnection} (lookup : app.connections.lookup name = some before) :
      Change app input name before.drained
  | identified {localUuid : Option Uuid} {before : ClientConnection}
      (lookup : app.connections.lookup name = some before) :
      Change app input name { before with localUuid := localUuid }

variable {app app' : ClientApp τ} {input : ClientInput τ} {output : List (WorldMessage τ)}
  {name : String} {after : ClientConnection}

omit [DecidableEq τ] [Ciborium τ] in
/-- The UUID of the last of the messages that is for the connection of that name. -/
def lastUuid (name : String) (evs : List (MessageReceivedFromServer τ .authenticatedUuid)) :
    Option Uuid :=
  (evs.filter (·.connectionName = name)).getLast?.map fun ev => AuthenticatedUuid.uuid ev.message

omit [DecidableEq τ] [Ciborium τ] in
/-- Of the messages that tell a client its UUID the last one counts, and nothing else changes. -/
theorem lookup_authenticationMessages
    (evs : List (MessageReceivedFromServer τ .authenticatedUuid)) (connections : ClientConnections)
    (name : String) :
    (evs.foldl authenticationMessageClient connections).lookup name =
      (connections.lookup name).map fun clientConnection => { clientConnection with
        localUuid := (lastUuid name evs).or clientConnection.localUuid } := by
  induction evs using List.reverseRecOn with
  | nil => exact Option.map_id'.symm
  | append_singleton evs ev ih =>
    rw [List.foldl_append, List.foldl_cons, List.foldl_nil, authenticationMessageClient]
    by_cases hname : ev.connectionName = name
    · subst hname
      rw [AssocMap.lookup_modify, ih, Option.map_map]
      simp only [lastUuid, List.filter_append, List.filter_cons, decide_true, if_true,
        List.filter_nil, List.getLast?_concat, Option.map_some, Option.some_or]
      rfl
    · rw [AssocMap.lookup_modify_ne _ _ (Ne.symm hname), ih]
      simp only [lastUuid, List.filter_append, List.filter_cons, hname, decide_false,
        Bool.false_eq_true, if_false, List.filter_nil, List.append_nil]

/-- What an event of a task does. -/
theorem task_spec {task : ClientTask} {event : ClientEvent}
    (h : app.task connectionName task event = some app') :
    app'.connections =
        (app.modify connectionName fun connection => connection.receive task event).connections ∧
      app'.unread = app.unread ∧
      ∃ connection port, app.connections.lookup connectionName = some connection ∧
        task ∈ connection.running ∧ connection.mainPort = some port ∧
          event.By port.settings task := by
  unfold ClientApp.task at h
  split at h
  · cases h
  · rename_i connection hlookup
    split at h
    · rename_i hruns
      obtain ⟨hrunning, port, hport, hdoes⟩ := hruns
      refine and_assoc.mp ⟨?_, connection, port, hlookup, hrunning, hport, hdoes⟩
      split at h
      · split at h
        · cases h
          exact ⟨rfl, rfl⟩
        · cases h
      · cases h
        exact ⟨rfl, rfl⟩
    · cases h

/-- The connection whose task does it. -/
theorem step_task {task : ClientTask} {event : ClientEvent} {connection : ClientConnection}
    (h : app.step (.task name task event) = some (app', output))
    (hlookup : app.connections.lookup name = some connection) :
    task ∈ connection.running ∧
      app'.connections.lookup name = some (connection.receive task event) := by
  obtain ⟨app'', htask, heq⟩ := Option.map_eq_some_iff.mp h
  cases heq
  obtain ⟨hconnections, -, connection', port, hlookup', hruns, -⟩ := task_spec htask
  cases hlookup.symm.trans hlookup'
  refine ⟨hruns, ?_⟩
  rw [hconnections, ClientApp.modify, AssocMap.lookup_modify, hlookup]
  rfl

theorem step_first {system : ClientSystem} (h : app.step (.first system) = some (app', output)) :
    app'.connections = system.run app.connections := by
  simp only [step] at h
  split at h
  · cases h
    rfl
  · cases h

theorem step_readMessages (h : app.step .readMessagesClient = some (app', output)) :
    app'.connections =
      AssocMap.mapVals (fun _ connection => connection.drained) app.connections := by
  simp only [step] at h
  split at h
  · cases h
  · rename_i connections commands hread
    split at h
    · cases h
    · cases h
      obtain ⟨commands', -, heq⟩ := Panicking.bind_eq_ok.mp hread
      cases heq
      rfl

/-- **What a step does to a connection.** -/
theorem step_change (h : app.step input = some (app', output))
    (hlookup : app'.connections.lookup name = some after) : Change app input name after := by
  cases input with
  | first system =>
    rw [step_first h] at hlookup
    obtain ⟨before, hbefore, rfl⟩ := ClientSystem.run_lookup hlookup
    exact .turned hbefore rfl
  | readMessagesClient =>
    rw [step_readMessages h, AssocMap.lookup_mapVals] at hlookup
    obtain ⟨before, hbefore, rfl⟩ := Option.map_eq_some_iff.mp hlookup
    exact .drained hbefore
  | authenticationMessageClient =>
    cases h
    rw [lookup_authenticationMessages] at hlookup
    obtain ⟨before, hbefore, rfl⟩ := Option.map_eq_some_iff.mp hlookup
    exact .identified hbefore
  | startConnection connectionName settings =>
    cases h
    rcases NetworkConnections.lookup_startConnection hlookup with hkept | hnew
    · exact .kept hkept
    · exact .created hnew
  | disconnect connectionName =>
    cases h
    exact .kept (AssocMap.lookup_of_erase hlookup).2
  | sendMessage connectionName t message =>
    cases h
    rcases AssocMap.lookup_of_modify hlookup with ⟨-, hkept⟩ | ⟨before, rfl, hbefore, rfl⟩
    · exact .kept hkept
    · exact .sent hbefore
  | task connectionName task event =>
    obtain ⟨app'', htask, heq⟩ := Option.map_eq_some_iff.mp h
    cases heq
    obtain ⟨hconnections, -, connection, port, hconnection, hruns, hport, hdoes⟩ := task_spec htask
    rw [hconnections] at hlookup
    rcases AssocMap.lookup_of_modify hlookup with ⟨-, hkept⟩ | ⟨before, rfl, hbefore, rfl⟩
    · exact .kept hkept
    · cases hbefore.symm.trans hconnection
      exact .received hbefore rfl hruns hport hdoes
  | registerMessage | updateMessages =>
    cases h
    exact .kept hlookup

end ClientApp

/-- The runs of a client. -/
def clientMachine (τ : Type) [DecidableEq τ] [UserMessages τ] [Ciborium τ] :
    Machine (ClientApp τ) (ClientInput τ) (List (WorldMessage τ)) where
  step := ClientApp.step

end Inator
