import Inator.Plugins.Connection

/-! # The systems of a client (`plugins/client.rs`)

`ClientConnectionPlugin` adds four systems to `First`, chained in the order of
`ClientSystem.firstChain`. Each takes a turn at every connection. -/

namespace Inator

abbrev ClientConnections := NetworkConnections ClientConnection

namespace ClientConnection

/-- The turn of `check_main_port_dropped`. -/
def checkDropped (clientConnection : ClientConnection) : ClientConnection :=
  match clientConnection.mainPort with
  | none => clientConnection
  | some mainPort =>
    { clientConnection with
      mainPort := some mainPort.checkPortDropped.1
      connected := if mainPort.checkPortDropped.2.1 then false else clientConnection.connected }

/-- The name that turn pushes to `disconnect_vector`. -/
def toDisconnect (clientConnection : ClientConnection) : List String :=
  match clientConnection.mainPort with
  | none => []
  | some mainPort =>
    let (dropped, canReconnect) := mainPort.checkPortDropped.2
    if dropped then
      if canReconnect then [] else [clientConnection.connectionName]
    else []

/-- The turn of `start_connections`. -/
def startUnlessConnected (clientConnection : ClientConnection) : ClientConnection :=
  if !clientConnection.connected then clientConnection.startConnection else clientConnection

/-- The turn of `check_connected_to_main_port`. -/
def checkConnected (clientConnection : ClientConnection) : ClientConnection :=
  clientConnection.onMainPort fun mainPort _ => (mainPort.checkConnectedToServer.1, [])

/-- The turn of `check_listening_to_main_port`. -/
def checkListening (clientConnection : ClientConnection) : ClientConnection :=
  clientConnection.onMainPort fun mainPort runtime => mainPort.startListeningToServer runtime

end ClientConnection

namespace ClientConnections

def checkMainPortDropped (networkConnection : ClientConnections) : ClientConnections :=
  let disconnectVector := AssocMap.collect (fun _ clientConnection => clientConnection.toDisconnect)
    networkConnection
  disconnectVector.foldl NetworkConnections.disconnect
    (AssocMap.mapVals (fun _ clientConnection => clientConnection.checkDropped) networkConnection)

def startConnections : ClientConnections → ClientConnections :=
  AssocMap.mapVals fun _ clientConnection => clientConnection.startUnlessConnected

def checkConnectedToMainPort : ClientConnections → ClientConnections :=
  AssocMap.mapVals fun _ clientConnection => clientConnection.checkConnected

def checkListeningToMainPort : ClientConnections → ClientConnections :=
  AssocMap.mapVals fun _ clientConnection => clientConnection.checkListening

end ClientConnections

/-- The systems `ClientConnectionPlugin` adds. -/
inductive ClientSystem
  | checkMainPortDropped
  | startConnections
  | checkConnectedToMainPort
  | checkListeningToMainPort
  deriving DecidableEq, Repr

namespace ClientSystem

def run : ClientSystem → ClientConnections → ClientConnections
  | .checkMainPortDropped => ClientConnections.checkMainPortDropped
  | .startConnections => ClientConnections.startConnections
  | .checkConnectedToMainPort => ClientConnections.checkConnectedToMainPort
  | .checkListeningToMainPort => ClientConnections.checkListeningToMainPort

/-- `ClientConnectionPlugin::build`. -/
def firstChain : List ClientSystem :=
  [.checkMainPortDropped, .startConnections, .checkConnectedToMainPort, .checkListeningToMainPort]

/-- The turn a system takes at a connection. -/
def turn : ClientSystem → ClientConnection → ClientConnection
  | .checkMainPortDropped => ClientConnection.checkDropped
  | .startConnections => ClientConnection.startUnlessConnected
  | .checkConnectedToMainPort => ClientConnection.checkConnected
  | .checkListeningToMainPort => ClientConnection.checkListening

/-- **A system takes its turn** at every connection, and does nothing else to those it keeps. -/
theorem run_lookup {system : ClientSystem} {networkConnection : ClientConnections}
    (h : (system.run networkConnection).lookup name = some after) :
    ∃ before, networkConnection.lookup name = some before ∧ after = system.turn before := by
  have each : ∀ f : ClientConnection → ClientConnection,
      (AssocMap.mapVals (fun _ => f) networkConnection).lookup name = some after →
        ∃ before, networkConnection.lookup name = some before ∧ after = f before := by
    intro f hlookup
    rw [AssocMap.lookup_mapVals] at hlookup
    obtain ⟨before, hbefore, rfl⟩ := Option.map_eq_some_iff.mp hlookup
    exact ⟨before, hbefore, rfl⟩
  cases system with
  | checkMainPortDropped => exact each _ (AssocMap.lookup_of_eraseAll h)
  | startConnections | checkConnectedToMainPort | checkListeningToMainPort => exact each _ h

/-- All but the first of the systems keep every connection. -/
theorem lookup_run {system : ClientSystem} {networkConnection : ClientConnections}
    (hsystem : system ≠ .checkMainPortDropped) (name : String) :
    (system.run networkConnection).lookup name =
      (networkConnection.lookup name).map system.turn := by
  cases system with
  | checkMainPortDropped => exact absurd rfl hsystem
  | startConnections | checkConnectedToMainPort | checkListeningToMainPort =>
    exact AssocMap.lookup_mapVals _ _ _

end ClientSystem

end Inator
