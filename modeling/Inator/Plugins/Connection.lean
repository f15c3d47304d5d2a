import Inator.Ports.Client
import Inator.Ports.Server

/-! # Connections (`plugins/connection.rs`)

A connection records the tasks spawned for it. Removing it from its map shuts its runtime
down, so they go with it. -/

namespace Inator

inductive PortSideSettings
  | client (settings : ClientSettings)
  | server (settings : ServerSettings)
  deriving DecidableEq, Repr

structure ServerConnection where
  runtime : Option Runtime
  connectionName : String
  connected : Bool
  mainPort : Option ServerPort
  clientsConnected : AssocMap Uuid (List Nat)
  spawned : List Task
  /-- The tasks, but for those that panic at their start and those that returned after something
  they did. -/
  running : List Task
  deriving DecidableEq

structure ClientConnection where
  runtime : Option Runtime
  connectionName : String
  connected : Bool
  mainPort : Option ClientPort
  localUuid : Option Uuid
  spawned : List ClientTask
  /-- The tasks that have not returned. -/
  running : List ClientTask
  deriving DecidableEq

/-- `ConnectionTrait`. -/
class ConnectionTrait (T : Type) where
  new : String → PortSideSettings → Option T
  startConnection : T → T

namespace ServerConnection

def new (connectionName : String) : PortSideSettings → Option ServerConnection
  | .server settings => some {
      runtime := none
      connectionName := connectionName
      connected := false
      mainPort := some (.new settings)
      clientsConnected := ∅
      spawned := []
      running := [] }
  | .client _ => none

/-- Run an operation of the main port, if there is one, on the runtime of the connection. -/
def onMainPort (connection : ServerConnection)
    (op : ServerPort → Option Runtime → ServerPort × List Task) : ServerConnection :=
  match connection.mainPort with
  | none => connection
  | some port => { connection with
      mainPort := some (op port connection.runtime).1
      spawned := connection.spawned ++ (op port connection.runtime).2
      running := connection.running ++
        (op port connection.runtime).2.filter (!·.panics) }

/-- A running task does something. -/
def receive (connection : ServerConnection) (task : Task) (event : TaskEvent) :
    ServerConnection :=
  match connection.mainPort with
  | none => connection
  | some port => { connection with
      mainPort := some (port.receive event)
      running :=
        if event.returns port task then connection.running.erase task else connection.running }

/-- But for the tasks, the event is an operation of the main port. -/
theorem receive_eq (connection : ServerConnection) (task : Task) (event : TaskEvent) :
    ∃ running, connection.receive task event =
      { connection.onMainPort fun port _ => (port.receive event, []) with running := running } := by
  unfold receive onMainPort
  split
  · exact ⟨connection.running, rfl⟩
  · rw [List.append_nil]
    exact ⟨_, rfl⟩

def startConnection (connection : ServerConnection) : ServerConnection :=
  { connection with
    connected := true
    runtime := some (connection.runtime.getD .new) }.onMainPort ServerPort.connect

def authenticateClient (connection : ServerConnection) (uuid : Uuid) (portNumber : Nat) :
    ServerConnection :=
  if uuid ∈ connection.clientsConnected then connection
  else
    let entered := { connection with
      clientsConnected := connection.clientsConnected.insert uuid [0] }
    if portNumber = 0 then entered.onMainPort (·.authenticateClient uuid ·) else entered

end ServerConnection

namespace ClientConnection

def new (connectionName : String) : PortSideSettings → Option ClientConnection
  | .client settings => some {
      runtime := none
      connectionName := connectionName
      connected := false
      mainPort := some (.new settings)
      localUuid := none
      spawned := []
      running := [] }
  | .server _ => none

/-- Run an operation of the main port, if there is one, on the runtime of the connection. -/
def onMainPort (connection : ClientConnection)
    (op : ClientPort → Option Runtime → ClientPort × List ClientTask) : ClientConnection :=
  match connection.mainPort with
  | none => connection
  | some port => { connection with
      mainPort := some (op port connection.runtime).1
      spawned := connection.spawned ++ (op port connection.runtime).2
      running := connection.running ++ (op port connection.runtime).2 }

/-- A running task does something. -/
def receive (connection : ClientConnection) (task : ClientTask) (event : ClientEvent) :
    ClientConnection :=
  match connection.mainPort with
  | none => connection
  | some port => { connection with
      mainPort := some (port.receive event)
      running :=
        if event.returns port.settings task then connection.running.erase task
        else connection.running }

/-- `start_connection`. In a browser there is no runtime, and no port looks for one. -/
def startConnection (connection : ClientConnection) : ClientConnection :=
  { connection with
    connected := true
    runtime := some (connection.runtime.getD .new) }.onMainPort ClientPort.connect

end ClientConnection

instance : ConnectionTrait ServerConnection where
  new := ServerConnection.new
  startConnection := ServerConnection.startConnection

instance : ConnectionTrait ClientConnection where
  new := ClientConnection.new
  startConnection := ClientConnection.startConnection

abbrev NetworkConnections (T : Type) := AssocMap String T

namespace NetworkConnections
variable {T : Type} [ConnectionTrait T]

def canConnect (connections : NetworkConnections T) (connectionName : String) : Bool :=
  connectionName ∉ connections

def startConnection (connections : NetworkConnections T) (connectionName : String)
    (settings : PortSideSettings) : NetworkConnections T :=
  if !canConnect connections connectionName then connections
  else
    match ConnectionTrait.new connectionName settings with
    | none => connections
    | some connection => connections.insert connectionName connection

/-- A connection that is there after a start was there before, or is the new one. -/
theorem lookup_startConnection {connections : NetworkConnections T} {settings : PortSideSettings}
    (h : (startConnection connections connectionName settings).lookup name = some after) :
    connections.lookup name = some after ∨ ConnectionTrait.new name settings = some after := by
  unfold startConnection at h
  split at h
  · exact .inl h
  · split at h
    · exact .inl h
    · rename_i connection hnew
      rcases AssocMap.lookup_of_insert h with ⟨rfl, rfl⟩ | h
      · exact .inr hnew
      · exact .inl h

def disconnect (connections : NetworkConnections T) (connectionName : String) :
    NetworkConnections T :=
  connections.erase connectionName

end NetworkConnections

end Inator
