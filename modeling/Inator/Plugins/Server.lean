import Inator.Plugins.Connection

/-! # The systems of a server (`plugins/server.rs`)

`ServerConnectionPlugin` adds seven systems to `First`, chained in the order of `firstChain`.
Between any two of them the tasks of the connections may write to the channels of the ports. -/

namespace Inator

abbrev ServerConnections := NetworkConnections ServerConnection

namespace ServerConnections

/-- Run an operation of the main port of every connection. -/
def forEachMainPort (op : ServerPort → Option Runtime → ServerPort × List Task)
    (networkConnection : ServerConnections) : ServerConnections :=
  AssocMap.mapVals (fun _ serverConnection => serverConnection.onMainPort op) networkConnection

end ServerConnections

open ServerConnections

def startConnections (networkConnection : ServerConnections) : ServerConnections :=
  AssocMap.mapVals (fun _ serverConnection =>
    if !serverConnection.connected then serverConnection.startConnection else serverConnection)
    networkConnection

def receiveMainPortListener : ServerConnections → ServerConnections :=
  forEachMainPort fun mainPort _ => (mainPort.checkPortConnected.1, [])

def startAcceptingConnectionsMainPort : ServerConnections → ServerConnections :=
  forEachMainPort fun mainPort runtime => mainPort.startAcceptingConnections runtime

namespace ServerConnection

/-- The turn of `check_main_port_dropped` for one connection. -/
def checkDropped (serverConnection : ServerConnection) : ServerConnection :=
  match serverConnection.mainPort with
  | none => serverConnection
  | some mainPort =>
    { serverConnection with
      mainPort := some mainPort.checkPortDropped.1
      connected := if mainPort.checkPortDropped.2.1 then false else serverConnection.connected }

/-- The name the turn pushes to `disconnect_vector`. -/
def toDisconnect (serverConnection : ServerConnection) : List String :=
  match serverConnection.mainPort with
  | none => []
  | some mainPort =>
    let (dropped, canReconnect) := mainPort.checkPortDropped.2
    if dropped then
      if canReconnect then [] else [serverConnection.connectionName]
    else []

end ServerConnection

def checkMainPortDropped (networkConnection : ServerConnections) : ServerConnections :=
  let disconnectVector := AssocMap.collect (fun _ serverConnection => serverConnection.toDisconnect)
    networkConnection
  disconnectVector.foldl NetworkConnections.disconnect
    (AssocMap.mapVals (fun _ serverConnection => serverConnection.checkDropped) networkConnection)

/-- It drops the UUIDs that `check_clients_diconnected` returns. -/
def checkClientDisconnectedFromPort : ServerConnections → ServerConnections :=
  forEachMainPort fun mainPort _ => (mainPort.checkClientsDiconnected.1, [])

/-- It calls `check_clients_diconnected`, as the system above does. -/
def checkClientConnectedToPort : ServerConnections → ServerConnections :=
  forEachMainPort fun mainPort _ => (mainPort.checkClientsDiconnected.1, [])

def startListeningNotAuthenticated : ServerConnections → ServerConnections :=
  forEachMainPort fun mainPort runtime => mainPort.checkNotAuthenticatedClients runtime

/-- The systems `ServerConnectionPlugin` adds. -/
inductive FirstSystem
  | checkMainPortDropped
  | startConnections
  | receiveMainPortListener
  | startAcceptingConnectionsMainPort
  | checkClientDisconnectedFromPort
  | checkClientConnectedToPort
  | startListeningNotAuthenticated
  deriving DecidableEq, Repr

def FirstSystem.run : FirstSystem → ServerConnections → ServerConnections
  | .checkMainPortDropped => Inator.checkMainPortDropped
  | .startConnections => Inator.startConnections
  | .receiveMainPortListener => Inator.receiveMainPortListener
  | .startAcceptingConnectionsMainPort => Inator.startAcceptingConnectionsMainPort
  | .checkClientDisconnectedFromPort => Inator.checkClientDisconnectedFromPort
  | .checkClientConnectedToPort => Inator.checkClientConnectedToPort
  | .startListeningNotAuthenticated => Inator.startListeningNotAuthenticated

/-- The turn a system takes at a connection. -/
def FirstSystem.turn (system : FirstSystem) (serverConnection : ServerConnection) :
    ServerConnection :=
  match system with
  | .checkMainPortDropped => serverConnection.checkDropped
  | .startConnections =>
    if !serverConnection.connected then serverConnection.startConnection else serverConnection
  | .receiveMainPortListener =>
    serverConnection.onMainPort fun mainPort _ => (mainPort.checkPortConnected.1, [])
  | .startAcceptingConnectionsMainPort =>
    serverConnection.onMainPort fun mainPort runtime => mainPort.startAcceptingConnections runtime
  | .checkClientDisconnectedFromPort | .checkClientConnectedToPort =>
    serverConnection.onMainPort fun mainPort _ => (mainPort.checkClientsDiconnected.1, [])
  | .startListeningNotAuthenticated =>
    serverConnection.onMainPort fun mainPort runtime =>
      mainPort.checkNotAuthenticatedClients runtime

/-- `ServerConnectionPlugin::build`. -/
def firstChain : List FirstSystem :=
  [.checkMainPortDropped, .startConnections, .receiveMainPortListener,
    .startAcceptingConnectionsMainPort, .checkClientDisconnectedFromPort,
    .checkClientConnectedToPort, .startListeningNotAuthenticated]

/-! ## One operation for each connection -/

/-- `after` is `before` with the operation run on its main port, on the runtime it has then. -/
structure ServerConnection.Ran (op : PortOp) (before after : ServerConnection) : Prop where
  connectionName : after.connectionName = before.connectionName
  clientsConnected : after.clientsConnected = before.clientsConnected
  mainPort : ∃ runtime, after.mainPort = before.mainPort.map (fun port => (op.run port runtime).1) ∧
    ∀ task ∈ after.spawned, task ∈ before.spawned ∨
      ∃ port, before.mainPort = some port ∧ task ∈ (op.run port runtime).2

theorem ServerConnection.onMainPort_ran (connection : ServerConnection) (op : PortOp) :
    Ran op connection (connection.onMainPort fun port runtime => op.run port runtime) := by
  unfold onMainPort
  split
  · rename_i hport
    refine ⟨rfl, rfl, none, by rw [hport]; rfl, ?_⟩
    intro task htask
    exact .inl htask
  · rename_i port hport
    refine ⟨rfl, rfl, connection.runtime, by rw [hport]; rfl, ?_⟩
    intro task htask
    exact (List.mem_append.mp htask).imp_right fun htask => ⟨port, hport, htask⟩

/-- The operation a system runs on a main port. -/
def FirstSystem.portOp : FirstSystem → PortOp
  | .checkMainPortDropped => .checkPortDropped
  | .startConnections => .connect
  | .receiveMainPortListener => .checkPortConnected
  | .startAcceptingConnectionsMainPort => .startAcceptingConnections
  | .checkClientDisconnectedFromPort | .checkClientConnectedToPort => .checkClientsDiconnected
  | .startListeningNotAuthenticated => .checkNotAuthenticatedClients

theorem lookup_disconnectAll {networkConnection : ServerConnections} {names : List String}
    (h : (names.foldl NetworkConnections.disconnect networkConnection).lookup name = some after) :
    networkConnection.lookup name = some after :=
  AssocMap.lookup_of_eraseAll h

/-- **A system runs its operation** on the main port of every connection, and no other; it may
remove connections. -/
theorem FirstSystem.run_lookup {system : FirstSystem} {networkConnection : ServerConnections}
    (h : (system.run networkConnection).lookup name = some after) :
    ∃ before, networkConnection.lookup name = some before ∧
      (after = before ∨ before.Ran system.portOp after) := by
  have each : ∀ (op : PortOp) {connections : ServerConnections},
      (forEachMainPort (fun port runtime => op.run port runtime) connections).lookup name =
        some after →
      ∃ before, connections.lookup name = some before ∧ (after = before ∨ before.Ran op after) := by
    intro op connections hlookup
    rw [forEachMainPort, AssocMap.lookup_mapVals] at hlookup
    obtain ⟨before, hbefore, rfl⟩ := Option.map_eq_some_iff.mp hlookup
    exact ⟨before, hbefore, .inr (before.onMainPort_ran op)⟩
  cases system with
  | checkMainPortDropped =>
    have hchecked := lookup_disconnectAll h
    rw [AssocMap.lookup_mapVals] at hchecked
    obtain ⟨before, hbefore, rfl⟩ := Option.map_eq_some_iff.mp hchecked
    refine ⟨before, hbefore, ?_⟩
    unfold ServerConnection.checkDropped
    split
    · exact .inl rfl
    · rename_i port hport
      refine .inr ⟨rfl, rfl, none, by rw [hport]; rfl, ?_⟩
      intro task htask
      exact .inl htask
  | startConnections =>
    simp only [run, Inator.startConnections, AssocMap.lookup_mapVals] at h
    obtain ⟨before, hbefore, hafter⟩ := Option.map_eq_some_iff.mp h
    refine ⟨before, hbefore, ?_⟩
    split at hafter
    · cases hafter
      have hran := ServerConnection.onMainPort_ran { before with
        connected := true
        runtime := some (before.runtime.getD .new) } .connect
      exact .inr ⟨hran.connectionName, hran.clientsConnected, hran.mainPort⟩
    · exact .inl hafter.symm
  | receiveMainPortListener => exact each .checkPortConnected h
  | startAcceptingConnectionsMainPort => exact each .startAcceptingConnections h
  | checkClientDisconnectedFromPort => exact each .checkClientsDiconnected h
  | checkClientConnectedToPort => exact each .checkClientsDiconnected h
  | startListeningNotAuthenticated => exact each .checkNotAuthenticatedClients h

/-- **A system takes its turn** at every connection. -/
theorem FirstSystem.lookup_turn {system : FirstSystem} {networkConnection : ServerConnections}
    (h : (system.run networkConnection).lookup name = some after) :
    ∃ before, networkConnection.lookup name = some before ∧ after = system.turn before := by
  have each : ∀ f : ServerConnection → ServerConnection,
      (AssocMap.mapVals (fun _ => f) networkConnection).lookup name = some after →
        ∃ before, networkConnection.lookup name = some before ∧ after = f before := by
    intro f hlookup
    rw [AssocMap.lookup_mapVals] at hlookup
    obtain ⟨before, hbefore, rfl⟩ := Option.map_eq_some_iff.mp hlookup
    exact ⟨before, hbefore, rfl⟩
  cases system with
  | checkMainPortDropped => exact each _ (lookup_disconnectAll h)
  | startConnections | receiveMainPortListener | startAcceptingConnectionsMainPort => exact each _ h
  | checkClientDisconnectedFromPort | checkClientConnectedToPort => exact each _ h
  | startListeningNotAuthenticated => exact each _ h

/-- A task of the connection of that name writes to a channel of its main port. -/
def ServerConnections.receive (networkConnection : ServerConnections)
    (event : String × TaskEvent) : ServerConnections :=
  AssocMap.modify event.1
    (fun serverConnection => serverConnection.onMainPort fun mainPort _ =>
      (mainPort.receive event.2, [])) networkConnection

/-- A frame, with the events that happen before each of its systems. -/
def ServerConnections.frame (events : FirstSystem → List (String × TaskEvent))
    (networkConnection : ServerConnections) : ServerConnections :=
  firstChain.foldl (fun connections system =>
    system.run ((events system).foldl ServerConnections.receive connections)) networkConnection

end Inator
