import Inator.Ports.Runtime

/-! # The server ports (`ports/mod.rs`, `ports/tcp/server.rs`, `ports/websocket/server.rs`)

`ServerTcp` and `ServerWebSocket` have the same fields and, but for the two functions given in
their own namespaces, the same bodies, so both are a `ServerPort` that differs in its settings.
An operation takes the runtime of its connection and returns the tasks it spawns there; what a
spawned task sends back on a channel of the port is a `TaskEvent`. -/

namespace Inator

abbrev TcpListener := Nat

/-- `tokio::sync::Semaphore`, by the permits it has left. -/
abbrev Semaphore := Nat

namespace Semaphore

/-- `Semaphore::MAX_PERMITS`, which is `usize::MAX >> 3`. -/
def maxPermits : Nat := 2 ^ 61 - 1

/-- `Semaphore::new`. -/
def new (permits : Nat) : Panicking Semaphore :=
  if permits ≤ maxPermits then .ok permits
  else .error "a semaphore may not have more than MAX_PERMITS permits (2305843009213693951)"

def tryAcquire (semaphore : Semaphore) : Option Semaphore :=
  if semaphore = 0 then none else some (semaphore - 1)

/-- A permit is dropped. -/
def release (semaphore : Semaphore) : Semaphore := semaphore + 1

/-- The semaphore that an accept task makes first. -/
def ofMaxConnections (maxConnections : Nat) : Panicking (Option Semaphore) :=
  if 0 < maxConnections then (new maxConnections).map some else .ok none

theorem ofMaxConnections_of_le {maxConnections : Nat} (h : maxConnections ≤ maxPermits) :
    ofMaxConnections maxConnections =
      .ok (if 0 < maxConnections then some maxConnections else none) := by
  simp only [ofMaxConnections, new, if_pos h]
  split <;> rfl

theorem ofMaxConnections_of_lt {maxConnections : Nat} (h : maxPermits < maxConnections) :
    ∃ text, ofMaxConnections maxConnections = .error text := by
  have hpos : 0 < maxConnections := Nat.zero_lt_of_lt h
  simp only [ofMaxConnections, new, if_pos hpos, if_neg (Nat.not_le.mpr h)]
  exact ⟨_, rfl⟩

/-- A semaphore that was made has all its permits. -/
theorem ofMaxConnections_eq {maxConnections : Nat} {semaphore : Semaphore}
    (h : ofMaxConnections maxConnections = .ok (some semaphore)) :
    semaphore = maxConnections ∧ 0 < maxConnections := by
  rcases Nat.lt_or_ge maxPermits maxConnections with hlimit | hlimit
  · obtain ⟨text, htext⟩ := ofMaxConnections_of_lt hlimit
    rw [htext] at h
    cases h
  · rw [ofMaxConnections_of_le hlimit] at h
    split at h
    · rename_i hpos
      cases h
      exact ⟨rfl, hpos⟩
    · cases h

end Semaphore

/-- The settings both ports read. -/
structure ListenerSettings where
  maxConnections : Nat
  recuseWhenFull : Bool
  autoReconnect : Bool
  tls : Bool
  deriving DecidableEq, Repr

structure TcpSettingsServer extends ListenerSettings where
  bytes : BytesOptions
  order : OrderOptions
  deriving DecidableEq, Repr

structure WebSocketSettingsServer extends ListenerSettings
  deriving DecidableEq, Repr

def TcpSettingsServer.default : TcpSettingsServer where
  maxConnections := 0
  recuseWhenFull := false
  autoReconnect := true
  tls := false
  bytes := .u32
  order := .littleEndian

def WebSocketSettingsServer.default : WebSocketSettingsServer where
  maxConnections := 0
  recuseWhenFull := false
  autoReconnect := true
  tls := false

/-- The two implementations of `ServerSettingsTrait`. -/
inductive ServerSettings
  | tcp (settings : TcpSettingsServer)
  | webSocket (settings : WebSocketSettingsServer)
  deriving DecidableEq, Repr

namespace ServerSettings

def listener : ServerSettings → ListenerSettings
  | .tcp settings => settings.toListenerSettings
  | .webSocket settings => settings.toListenerSettings

def framing : ServerSettings → StreamFraming
  | .tcp settings => some (settings.bytes, settings.order)
  | .webSocket _ => none

end ServerSettings

/-- The tasks a port spawns. -/
inductive Task
  | bind
  | accept (listener : TcpListener) (maxConnections : Nat) (recuseWhenFull tls : Bool)
  | read (stream : Stream) (framing : StreamFraming) (target : Uuid)
      (isAuthenticated : Bool)
  | write (stream : Stream) (framing : StreamFraming) (buf : List UInt8)
  deriving DecidableEq, Repr

/-- The task panics before it does anything else. -/
def Task.panics : Task → Bool
  | .accept _ maxConnections _ _ => !(Semaphore.ofMaxConnections maxConnections).isOk
  | _ => false

theorem Task.panics_accept (tcpListener : TcpListener) (maxConnections : Nat)
    (recuseWhenFull tls : Bool) :
    (accept tcpListener maxConnections recuseWhenFull tls).panics =
      decide (Semaphore.maxPermits < maxConnections) := by
  rcases Nat.lt_or_ge Semaphore.maxPermits maxConnections with h | h
  · obtain ⟨text, htext⟩ := Semaphore.ofMaxConnections_of_lt h
    rw [panics, htext, decide_eq_true h]
    rfl
  · rw [panics, Semaphore.ofMaxConnections_of_le h, decide_eq_false (Nat.not_lt.mpr h)]
    rfl

structure ListeningInfos where
  readWriteType : Stream
  listening : Bool
  deriving DecidableEq, Repr

/-- The fields of `ServerTcp` and of `ServerWebSocket`. A channel is the list of what is in it,
oldest first. -/
structure ServerPort where
  settings : ServerSettings
  connecting : Bool
  connected : Bool
  mainPort : Bool
  acceptingConnections : Bool
  tcpListener : Option TcpListener
  portConnected : List TcpListener
  connectionDown : List Unit
  clientDisconnected : List (Uuid × Bool)
  messageReceived : List (List UInt8 × Uuid)
  clientConnected : List Stream
  clientAuthenticated : List Uuid
  listeningClients : AssocMap Uuid ListeningInfos
  notAuthenticatedListening : AssocMap Uuid ListeningInfos
  deriving DecidableEq

/-- `ServerTcp::start_listening_not_authenticated_client`. -/
def ServerTcp.startListeningNotAuthenticatedClient (port : ServerPort) (target : Uuid)
    (runtime : Option Runtime) : List Task :=
  match runtime with
  | none => []
  | some _ =>
    match port.notAuthenticatedListening.lookup target with
    | none => []
    | some infos => [.read infos.readWriteType port.settings.framing target false]

/-- `ServerWebSocket::start_listening_not_authenticated_client`. It looks the target up among
the authenticated clients. -/
def ServerWebSocket.startListeningNotAuthenticatedClient (port : ServerPort) (target : Uuid)
    (runtime : Option Runtime) : List Task :=
  match runtime with
  | none => []
  | some _ =>
    match port.listeningClients.lookup target with
    | none => []
    | some infos => [.read infos.readWriteType port.settings.framing target false]

namespace ServerPort

/-- `ServerSettingsTrait::create_server_port`: `ServerTcp::new`, `ServerWebSocket::new`. -/
def new (settings : ServerSettings) : ServerPort where
  settings := settings
  connecting := false
  connected := false
  mainPort := false
  acceptingConnections := false
  tcpListener := none
  portConnected := []
  connectionDown := []
  clientDisconnected := []
  messageReceived := []
  clientConnected := []
  clientAuthenticated := []
  listeningClients := ∅
  notAuthenticatedListening := ∅

def connect (port : ServerPort) (runtime : Option Runtime) : ServerPort × List Task :=
  match runtime with
  | none => (port, [])
  | some _ =>
    if port.connecting then (port, []) else ({ port with connecting := true }, [.bind])

def startListeningAuthenticatedClient (port : ServerPort) (target : Uuid)
    (runtime : Option Runtime) : List Task :=
  match runtime with
  | none => []
  | some _ =>
    match port.listeningClients.lookup target with
    | none => []
    | some infos => [.read infos.readWriteType port.settings.framing target true]

def startListeningNotAuthenticatedClient (port : ServerPort) (target : Uuid)
    (runtime : Option Runtime) : List Task :=
  match port.settings with
  | .tcp _ => ServerTcp.startListeningNotAuthenticatedClient port target runtime
  | .webSocket _ => ServerWebSocket.startListeningNotAuthenticatedClient port target runtime

def authenticateClient (port : ServerPort) (uuid : Uuid) (runtime : Option Runtime) :
    ServerPort × List Task :=
  match port.notAuthenticatedListening.lookup uuid with
  | none => (port, [])
  | some infos =>
    let moved := { port with
      notAuthenticatedListening := port.notAuthenticatedListening.erase uuid
      listeningClients := port.listeningClients.insert uuid { infos with listening := true } }
    ({ moved with clientAuthenticated := moved.clientAuthenticated ++ [uuid] },
      moved.startListeningAuthenticatedClient uuid runtime)

def asMainPort (port : ServerPort) : ServerPort × Bool :=
  ({ port with mainPort := true }, true)

def checkMessagesReceived (port : ServerPort) : ServerPort × List (List UInt8 × Uuid) :=
  ({ port with messageReceived := [] }, port.messageReceived)

def checkPortDropped (port : ServerPort) : ServerPort × (Bool × Bool) :=
  match port.connectionDown with
  | [] => (port, (false, false))
  | _ :: rest =>
    ({ port with
        connectionDown := rest
        connected := false
        connecting := false
        acceptingConnections := false
        tcpListener := none }, (true, port.settings.listener.autoReconnect))

def checkPortConnected (port : ServerPort) : ServerPort × Bool :=
  if port.connected then (port, false)
  else
    match port.portConnected with
    | [] => (port, false)
    | tcpListener :: rest =>
      ({ port with
          portConnected := rest
          connected := true
          tcpListener := some tcpListener }, true)

def startAcceptingConnections (port : ServerPort) (runtime : Option Runtime) :
    ServerPort × List Task :=
  match runtime with
  | none => (port, [])
  | some _ =>
    if port.acceptingConnections || !port.connected then (port, [])
    else
      match port.tcpListener with
      | none => ({ port with acceptingConnections := false }, [])
      | some tcpListener =>
        ({ port with acceptingConnections := true },
          [.accept tcpListener port.settings.listener.maxConnections
            port.settings.listener.recuseWhenFull port.settings.listener.tls])

def checkClientsDiconnected (port : ServerPort) : ServerPort × List Uuid :=
  match port.clientDisconnected with
  | [] => (port, [])
  | (uuid, authenticated) :: rest =>
    if authenticated then
      ({ port with
          clientDisconnected := rest
          listeningClients := port.listeningClients.erase uuid }, [uuid])
    else
      ({ port with
          clientDisconnected := rest
          notAuthenticatedListening := port.notAuthenticatedListening.erase uuid }, [uuid])

/-- `check_clients_connected`; the argument is the result of `Uuid::new_v4`. -/
def checkClientsConnected (port : ServerPort) (newUuid : Uuid) : ServerPort × List Uuid :=
  match port.clientConnected with
  | [] => (port, [])
  | stream :: rest =>
    ({ port with
        clientConnected := rest
        notAuthenticatedListening :=
          port.notAuthenticatedListening.insert newUuid ⟨stream, false⟩ }, [newUuid])

/-- The clients no reader was started for, in iteration order. -/
def keysToStart (port : ServerPort) : List Uuid :=
  AssocMap.collect (fun key infos => if infos.listening then [] else [key])
    port.notAuthenticatedListening

def checkNotAuthenticatedClients (port : ServerPort) (runtime : Option Runtime) :
    ServerPort × List Task :=
  let marked := { port with
    notAuthenticatedListening := AssocMap.mapVals
      (fun _ infos => { infos with listening := true }) port.notAuthenticatedListening }
  (marked, port.keysToStart.flatMap fun key =>
    marked.startListeningNotAuthenticatedClient key runtime)

end ServerPort

/-- The operations of `ServerPortTrait` but `authenticate_client` and `send_message`. -/
inductive PortOp
  | connect
  | asMainPort
  | checkMessagesReceived
  | checkPortDropped
  | checkPortConnected
  | startAcceptingConnections
  | checkClientsDiconnected
  | checkClientsConnected (newUuid : Uuid)
  | checkNotAuthenticatedClients
  | startListeningNotAuthenticatedClient (target : Uuid)
  | startListeningAuthenticatedClient (target : Uuid)
  deriving DecidableEq, Repr

/-- The port after an operation, and the tasks it spawns. -/
def PortOp.run (port : ServerPort) (runtime : Option Runtime) : PortOp → ServerPort × List Task
  | .connect => port.connect runtime
  | .asMainPort => (port.asMainPort.1, [])
  | .checkMessagesReceived => (port.checkMessagesReceived.1, [])
  | .checkPortDropped => (port.checkPortDropped.1, [])
  | .checkPortConnected => (port.checkPortConnected.1, [])
  | .startAcceptingConnections => port.startAcceptingConnections runtime
  | .checkClientsDiconnected => (port.checkClientsDiconnected.1, [])
  | .checkClientsConnected newUuid => ((port.checkClientsConnected newUuid).1, [])
  | .checkNotAuthenticatedClients => port.checkNotAuthenticatedClients runtime
  | .startListeningNotAuthenticatedClient target =>
    (port, port.startListeningNotAuthenticatedClient target runtime)
  | .startListeningAuthenticatedClient target =>
    (port, port.startListeningAuthenticatedClient target runtime)

namespace PortOp

/-- The operations that only other operations of the port call. -/
def internal : PortOp → Bool
  | .startListeningNotAuthenticatedClient _ | .startListeningAuthenticatedClient _ => true
  | _ => false

/-- What an operation does to the clients of a port: mostly nothing. Only
`check_clients_connected` enters one, and none enters one as authenticated. -/
inductive Effect (port : ServerPort) : PortOp → ServerPort → Prop
  | quiet {op : PortOp} {port' : ServerPort}
      (settings : port'.settings = port.settings)
      (clientConnected : port'.clientConnected = port.clientConnected)
      (clientDisconnected : port'.clientDisconnected = port.clientDisconnected)
      (clientAuthenticated : port'.clientAuthenticated = port.clientAuthenticated)
      (listeningClients : port'.listeningClients = port.listeningClients)
      (notAuthenticatedListening :
        port'.notAuthenticatedListening = port.notAuthenticatedListening) :
      Effect port op port'
  | marked : Effect port .checkNotAuthenticatedClients { port with
      notAuthenticatedListening := AssocMap.mapVals
        (fun _ infos => { infos with listening := true }) port.notAuthenticatedListening }
  | disconnected {uuid : Uuid} {rest : List (Uuid × Bool)}
      (popped : port.clientDisconnected = (uuid, true) :: rest) :
      Effect port .checkClientsDiconnected { port with
        clientDisconnected := rest
        listeningClients := port.listeningClients.erase uuid }
  | disconnectedWaiting {uuid : Uuid} {rest : List (Uuid × Bool)}
      (popped : port.clientDisconnected = (uuid, false) :: rest) :
      Effect port .checkClientsDiconnected { port with
        clientDisconnected := rest
        notAuthenticatedListening := port.notAuthenticatedListening.erase uuid }
  | admitted {newUuid : Uuid} {stream : Stream} {rest : List Stream}
      (popped : port.clientConnected = stream :: rest) :
      Effect port (.checkClientsConnected newUuid) { port with
        clientConnected := rest
        notAuthenticatedListening :=
          port.notAuthenticatedListening.insert newUuid ⟨stream, false⟩ }

theorem run_effect (port : ServerPort) (runtime : Option Runtime) (op : PortOp) :
    Effect port op (op.run port runtime).1 := by
  cases op with
  | connect =>
    simp only [run, ServerPort.connect]
    split
    · exact .quiet rfl rfl rfl rfl rfl rfl
    · split <;> exact .quiet rfl rfl rfl rfl rfl rfl
  | checkPortDropped =>
    simp only [run, ServerPort.checkPortDropped]
    split <;> exact .quiet rfl rfl rfl rfl rfl rfl
  | checkPortConnected =>
    simp only [run, ServerPort.checkPortConnected]
    split
    · exact .quiet rfl rfl rfl rfl rfl rfl
    · split <;> exact .quiet rfl rfl rfl rfl rfl rfl
  | startAcceptingConnections =>
    simp only [run, ServerPort.startAcceptingConnections]
    split
    · exact .quiet rfl rfl rfl rfl rfl rfl
    · split
      · exact .quiet rfl rfl rfl rfl rfl rfl
      · split <;> exact .quiet rfl rfl rfl rfl rfl rfl
  | checkClientsDiconnected =>
    simp only [run, ServerPort.checkClientsDiconnected]
    split
    · exact .quiet rfl rfl rfl rfl rfl rfl
    · rename_i uuid authenticated rest hpopped
      cases authenticated with
      | true => exact .disconnected hpopped
      | false => exact .disconnectedWaiting hpopped
  | checkClientsConnected newUuid =>
    simp only [run, ServerPort.checkClientsConnected]
    split
    · exact .quiet rfl rfl rfl rfl rfl rfl
    · rename_i stream rest hpopped
      exact .admitted hpopped
  | checkNotAuthenticatedClients => exact .marked
  | asMainPort => exact .quiet rfl rfl rfl rfl rfl rfl
  | checkMessagesReceived => exact .quiet rfl rfl rfl rfl rfl rfl
  | startListeningNotAuthenticatedClient target => exact .quiet rfl rfl rfl rfl rfl rfl
  | startListeningAuthenticatedClient target => exact .quiet rfl rfl rfl rfl rfl rfl

theorem run_settings (port : ServerPort) (runtime : Option Runtime) (op : PortOp) :
    (op.run port runtime).1.settings = port.settings := by
  have heffect := op.run_effect port runtime
  generalize (op.run port runtime).1 = after at heffect
  cases heffect with
  | quiet settings => exact settings
  | marked | disconnected | disconnectedWaiting | admitted => rfl

/-- No operation sends to the channel of the authenticated clients, or takes from it. -/
theorem run_clientAuthenticated (port : ServerPort) (runtime : Option Runtime) (op : PortOp) :
    (op.run port runtime).1.clientAuthenticated = port.clientAuthenticated := by
  have heffect := op.run_effect port runtime
  generalize (op.run port runtime).1 = after at heffect
  cases heffect with
  | quiet _ _ _ channel => exact channel
  | marked | disconnected | disconnectedWaiting | admitted => rfl

end PortOp

/-- The tasks that operations spawn: none of them writes to a stream, and what they read is the
stream of an entry, from either map. -/
inductive ServerPort.Spawns (port : ServerPort) : Task → Prop
  | bind : port.Spawns .bind
  | accept {tcpListener : TcpListener} :
      port.Spawns (.accept tcpListener port.settings.listener.maxConnections
        port.settings.listener.recuseWhenFull port.settings.listener.tls)
  | read {target : Uuid} {infos : ListeningInfos} {isAuthenticated : Bool}
      (entry : port.notAuthenticatedListening.lookup target = some infos ∨
        port.listeningClients.lookup target = some infos) :
      port.Spawns (.read infos.readWriteType port.settings.framing target isAuthenticated)

/-- Starting to listen to a client spawns a reader for it, or nothing. -/
theorem ServerPort.startListeningAuthenticatedClient_reads {port : ServerPort} {target : Uuid}
    {runtime : Option Runtime} {task : Task}
    (h : task ∈ port.startListeningAuthenticatedClient target runtime) :
    ∃ infos, (port.notAuthenticatedListening.lookup target = some infos ∨
        port.listeningClients.lookup target = some infos) ∧
      task = .read infos.readWriteType port.settings.framing target true := by
  unfold startListeningAuthenticatedClient at h
  split at h
  · cases h
  · split at h
    · cases h
    · rename_i infos hlookup
      exact ⟨infos, .inr hlookup, List.mem_singleton.mp h⟩

theorem ServerPort.startListeningNotAuthenticatedClient_reads {port : ServerPort} {target : Uuid}
    {runtime : Option Runtime} {task : Task}
    (h : task ∈ port.startListeningNotAuthenticatedClient target runtime) :
    ∃ infos, (port.notAuthenticatedListening.lookup target = some infos ∨
        port.listeningClients.lookup target = some infos) ∧
      task = .read infos.readWriteType port.settings.framing target false := by
  unfold startListeningNotAuthenticatedClient at h
  split at h
  · unfold ServerTcp.startListeningNotAuthenticatedClient at h
    split at h
    · cases h
    · split at h
      · cases h
      · rename_i infos hlookup
        exact ⟨infos, .inl hlookup, List.mem_singleton.mp h⟩
  · unfold ServerWebSocket.startListeningNotAuthenticatedClient at h
    split at h
    · cases h
    · split at h
      · cases h
      · rename_i infos hlookup
        exact ⟨infos, .inr hlookup, List.mem_singleton.mp h⟩

/-- **What the operations spawn.** -/
theorem PortOp.run_spawns {port : ServerPort} {runtime : Option Runtime} {op : PortOp}
    {task : Task} (h : task ∈ (op.run port runtime).2) : port.Spawns task := by
  cases op with
  | connect =>
    simp only [run, ServerPort.connect] at h
    split at h
    · cases h
    · split at h
      · cases h
      · cases List.mem_singleton.mp h
        exact .bind
  | startAcceptingConnections =>
    simp only [run, ServerPort.startAcceptingConnections] at h
    split at h
    · cases h
    · split at h
      · cases h
      · split at h
        · cases h
        · cases List.mem_singleton.mp h
          exact .accept
  | checkNotAuthenticatedClients =>
    obtain ⟨key, -, hread⟩ := List.mem_flatMap.mp h
    obtain ⟨infos, entry, rfl⟩ := ServerPort.startListeningNotAuthenticatedClient_reads hread
    -- the entries that are marked as listening have the streams they had
    rcases entry with hwaiting | hlistening
    · rw [AssocMap.lookup_mapVals] at hwaiting
      obtain ⟨infos, hinfos, rfl⟩ := Option.map_eq_some_iff.mp hwaiting
      have hread : port.Spawns (.read infos.readWriteType port.settings.framing key false) :=
        .read (.inl hinfos)
      exact hread
    · exact .read (.inr hlistening)
  | startListeningNotAuthenticatedClient target =>
    obtain ⟨infos, entry, rfl⟩ := ServerPort.startListeningNotAuthenticatedClient_reads h
    exact .read entry
  | startListeningAuthenticatedClient target =>
    obtain ⟨infos, entry, rfl⟩ := ServerPort.startListeningAuthenticatedClient_reads h
    exact .read entry
  | asMainPort | checkMessagesReceived | checkPortDropped | checkPortConnected => cases h
  | checkClientsDiconnected | checkClientsConnected newUuid => cases h

/-- Of the operations that the systems call, only `check_not_authenticated_clients` spawns
readers. -/
theorem PortOp.read_notMem_run {port : ServerPort} {runtime : Option Runtime} {op : PortOp}
    (hinternal : op.internal = false) (hop : op ≠ .checkNotAuthenticatedClients) (stream : Stream)
    (framing : StreamFraming) (target : Uuid) (isAuthenticated : Bool) :
    .read stream framing target isAuthenticated ∉ (op.run port runtime).2 := by
  intro h
  cases op with
  | connect =>
    simp only [run, ServerPort.connect] at h
    split at h
    · cases h
    · split at h
      · cases h
      · cases List.mem_singleton.mp h
  | startAcceptingConnections =>
    simp only [run, ServerPort.startAcceptingConnections] at h
    split at h
    · cases h
    · split at h
      · cases h
      · split at h
        · cases h
        · cases List.mem_singleton.mp h
  | checkNotAuthenticatedClients => exact hop rfl
  | startListeningNotAuthenticatedClient | startListeningAuthenticatedClient => cases hinternal
  | asMainPort | checkMessagesReceived | checkPortDropped | checkPortConnected => cases h
  | checkClientsDiconnected | checkClientsConnected newUuid => cases h

/-- The readers a `ServerTcp` spawns for the clients that none was started for. -/
theorem ServerTcp.checkNotAuthenticatedClients_tasks {port : ServerPort}
    {settings : TcpSettingsServer} (hsettings : port.settings = .tcp settings)
    (runtime : Runtime) :
    (port.checkNotAuthenticatedClients (some runtime)).2 =
      AssocMap.collect (fun key infos => if infos.listening then [] else
        [.read infos.readWriteType port.settings.framing key false])
          port.notAuthenticatedListening := by
  simp only [ServerPort.checkNotAuthenticatedClients, ServerPort.keysToStart, AssocMap.collect,
    List.flatMap_assoc]
  refine List.flatMap_congr fun entry hentry => ?_
  have hlookup := AssocMap.mem_entries.mp hentry
  cases hlistening : entry.2.listening with
  | true => rfl
  | false =>
    simp only [Bool.false_eq_true, if_false, List.flatMap_singleton,
      ServerPort.startListeningNotAuthenticatedClient, hsettings,
      ServerTcp.startListeningNotAuthenticatedClient, AssocMap.lookup_mapVals, hlookup,
      Option.map_some]

theorem ServerPort.authenticateClient_none {port : ServerPort} {uuid : Uuid}
    (h : port.notAuthenticatedListening.lookup uuid = none) (runtime : Option Runtime) :
    port.authenticateClient uuid runtime = (port, []) := by
  simp only [authenticateClient, h]

theorem ServerPort.authenticateClient_some {port : ServerPort} {uuid : Uuid}
    {infos : ListeningInfos}
    (h : port.notAuthenticatedListening.lookup uuid = some infos) (runtime : Option Runtime) :
    port.authenticateClient uuid runtime =
      ({ port with
          notAuthenticatedListening := port.notAuthenticatedListening.erase uuid
          listeningClients := port.listeningClients.insert uuid { infos with listening := true }
          clientAuthenticated := port.clientAuthenticated ++ [uuid] },
        match runtime with
        | none => []
        | some _ => [.read infos.readWriteType port.settings.framing uuid true]) := by
  simp only [authenticateClient, h]
  cases runtime with
  | none => rfl
  | some runtime => simp only [startListeningAuthenticatedClient, AList.lookup_insert]

theorem ServerPort.authenticateClient_spawns {port : ServerPort} {uuid : Uuid}
    {runtime : Option Runtime} {task : Task} (h : task ∈ (port.authenticateClient uuid runtime).2) :
    port.Spawns task := by
  cases hinfos : port.notAuthenticatedListening.lookup uuid with
  | none =>
    rw [authenticateClient_none hinfos] at h
    cases h
  | some infos =>
    rw [authenticateClient_some hinfos] at h
    cases runtime with
    | none => cases h
    | some runtime =>
      cases List.mem_singleton.mp h
      exact .read (.inl hinfos)

@[simp] theorem ServerPort.authenticateClient_clientConnected (port : ServerPort) (uuid : Uuid)
    (runtime : Option Runtime) :
    (port.authenticateClient uuid runtime).1.clientConnected = port.clientConnected := by
  cases h : port.notAuthenticatedListening.lookup uuid with
  | none => rw [authenticateClient_none h]
  | some infos => rw [authenticateClient_some h]

/-- `authenticate_client` of a port moves the client from the one map to the other. -/
theorem ServerPort.mem_listeningClients_authenticateClient {port : ServerPort} {uuid k : Uuid}
    {runtime : Option Runtime} :
    k ∈ (port.authenticateClient uuid runtime).1.listeningClients ↔
      k ∈ port.listeningClients ∨ k = uuid ∧ uuid ∈ port.notAuthenticatedListening := by
  cases h : port.notAuthenticatedListening.lookup uuid with
  | none =>
    have habsent : uuid ∉ port.notAuthenticatedListening := AList.lookup_eq_none.mp h
    rw [authenticateClient_none h]
    simp only [habsent, and_false, or_false]
  | some infos =>
    have hpresent := AssocMap.mem_of_lookup h
    rw [authenticateClient_some h]
    simp only [AList.mem_insert, hpresent, and_true]
    exact or_comm

/-- The port has the client in one of its maps. -/
def ServerPort.Holds (port : ServerPort) (uuid : Uuid) : Prop :=
  uuid ∈ port.listeningClients ∨ uuid ∈ port.notAuthenticatedListening

theorem ServerPort.holds_authenticateClient {port : ServerPort} {uuid k : Uuid}
    {runtime : Option Runtime} :
    (port.authenticateClient uuid runtime).1.Holds k ↔ port.Holds k := by
  unfold Holds
  rw [mem_listeningClients_authenticateClient]
  cases h : port.notAuthenticatedListening.lookup uuid with
  | none =>
    have habsent : uuid ∉ port.notAuthenticatedListening := AList.lookup_eq_none.mp h
    rw [authenticateClient_none h]
    simp only [habsent, and_false, or_false]
  | some infos =>
    have hpresent := AssocMap.mem_of_lookup h
    rw [authenticateClient_some h]
    simp only [AList.mem_erase, hpresent, and_true]
    by_cases hk : k = uuid
    · subst hk
      simp only [or_true, true_or, hpresent]
    · simp only [hk, or_false, ne_eq, not_false_eq_true, true_and]

/-- The client that an operation enters. -/
def ServerPort.admits (port : ServerPort) : PortOp → Option (Uuid × Stream)
  | .checkClientsConnected newUuid => port.clientConnected.head?.map (newUuid, ·)
  | _ => none

theorem ServerPort.admits_eq_some {port : ServerPort} {op : PortOp} {client : Uuid × Stream} :
    port.admits op = some client ↔ op = .checkClientsConnected client.1 ∧
      ∃ rest, port.clientConnected = client.2 :: rest := by
  obtain ⟨newUuid, stream⟩ := client
  cases op with
  | checkClientsConnected newUuid' =>
    cases hqueue : port.clientConnected with
    | nil => simp [admits, hqueue]
    | cons first rest => simp [admits, hqueue]
  | _ => simp [admits]

theorem ServerPort.admits_eq_none {port : ServerPort} {op : PortOp} :
    port.admits op = none ↔
      ∀ newUuid, op = .checkClientsConnected newUuid → port.clientConnected = [] := by
  rw [Option.eq_none_iff_forall_ne_some]
  constructor
  · rintro h newUuid rfl
    cases hqueue : port.clientConnected with
    | nil => rfl
    | cons stream rest =>
      exact absurd (admits_eq_some.mpr ⟨rfl, rest, hqueue⟩ : _ = some (newUuid, stream))
        (h (newUuid, stream))
  · intro h client hadmits
    obtain ⟨hop, rest, hqueue⟩ := admits_eq_some.mp hadmits
    rw [h client.1 hop] at hqueue
    cases hqueue

/-- What a task spawned by a port does to the channels of the port. -/
inductive TaskEvent
  | portConnected (tcpListener : TcpListener)
  | clientConnected (stream : Stream)
  | connectionDown
  | messageReceived (bytes : List UInt8) (target : Uuid)
  | clientDisconnected (target : Uuid) (isAuthenticated : Bool)
  | popClientAuthenticated
  deriving DecidableEq, Repr

namespace TaskEvent

/-- Which task does it. Only a reader started before authentication pops the channel. -/
def By : TaskEvent → Task → Prop
  | .portConnected _, .bind => True
  | .clientConnected stream, .accept _ _ _ tls =>
    stream.kind = if tls then .tlsStream else .stream
  | .connectionDown, .accept .. => True
  | .messageReceived _ target, .read _ _ target' _ => target = target'
  | .clientDisconnected target isAuthenticated, .read _ _ target' isAuthenticated' =>
    target = target' ∧ isAuthenticated = isAuthenticated'
  | .popClientAuthenticated, .read _ _ _ isAuthenticated => isAuthenticated = false
  | _, _ => False

instance (ev : TaskEvent) (task : Task) : Decidable (ev.By task) := by
  unfold By
  split <;> infer_instance

/-- Whether the task has returned after it. A reader of a `ServerTcp` returns once it has
announced the end of its stream, a reader of a `ServerWebSocket` goes on; a reader that finds its
own UUID in the channel returns. -/
def returns (port : ServerPort) : TaskEvent → Task → Bool
  | .portConnected _, _ | .connectionDown, _ => true
  | .clientConnected _, _ | .messageReceived .., _ => false
  | .clientDisconnected .., _ =>
    match port.settings with
    | .tcp _ => true
    | .webSocket _ => false
  | .popClientAuthenticated, .read _ _ target _ => port.clientAuthenticated.head? == some target
  | .popClientAuthenticated, _ => false

end TaskEvent

def ServerPort.receive (port : ServerPort) : TaskEvent → ServerPort
  | .portConnected tcpListener => { port with portConnected := port.portConnected ++ [tcpListener] }
  | .clientConnected stream => { port with clientConnected := port.clientConnected ++ [stream] }
  | .connectionDown => { port with connectionDown := port.connectionDown ++ [()] }
  | .messageReceived bytes target =>
    { port with messageReceived := port.messageReceived ++ [(bytes, target)] }
  | .clientDisconnected target isAuthenticated =>
    { port with clientDisconnected := port.clientDisconnected ++ [(target, isAuthenticated)] }
  | .popClientAuthenticated => { port with clientAuthenticated := port.clientAuthenticated.tail }

@[simp] theorem ServerPort.receive_settings (port : ServerPort) (event : TaskEvent) :
    (port.receive event).settings = port.settings := by
  cases event <;> rfl

@[simp] theorem ServerPort.receive_listeningClients (port : ServerPort) (event : TaskEvent) :
    (port.receive event).listeningClients = port.listeningClients := by
  cases event <;> rfl

@[simp] theorem ServerPort.receive_notAuthenticatedListening (port : ServerPort)
    (event : TaskEvent) :
    (port.receive event).notAuthenticatedListening = port.notAuthenticatedListening := by
  cases event <;> rfl

section SendMessage
variable {τ : Type} [UserMessages τ] [Ciborium τ] {t : MessageType τ}

/-- `ServerTcp::send_message`. -/
def ServerTcp.sendMessage (port : ServerPort) (message : t.Message) (target : Uuid)
    (runtime : Option Runtime) : List Task :=
  match runtime with
  | none => []
  | some _ =>
    match Ciborium.intoWriter message with
    | .error _ => []
    | .ok buf =>
      match port.listeningClients.lookup target with
      | none => []
      | some infos => [.write infos.readWriteType port.settings.framing buf]

/-- `ServerWebSocket::send_message`. It looks the target up before it encodes the message. -/
def ServerWebSocket.sendMessage (port : ServerPort) (message : t.Message) (target : Uuid)
    (runtime : Option Runtime) : List Task :=
  match runtime with
  | none => []
  | some _ =>
    match port.listeningClients.lookup target with
    | none => []
    | some infos =>
      match Ciborium.intoWriter message with
      | .error _ => []
      | .ok buf => [.write infos.readWriteType port.settings.framing buf]

def ServerPort.sendMessage (port : ServerPort) (message : t.Message) (target : Uuid)
    (runtime : Option Runtime) : List Task :=
  match port.settings with
  | .tcp _ => ServerTcp.sendMessage port message target runtime
  | .webSocket _ => ServerWebSocket.sendMessage port message target runtime

/-- **The order of the two tests does not matter**: either port writes exactly when there is a
runtime, the target is an authenticated client and the message encodes. -/
theorem ServerPort.mem_sendMessage {port : ServerPort} {message : t.Message} {target : Uuid}
    {runtime : Option Runtime} {task : Task} :
    task ∈ port.sendMessage message target runtime ↔
      ∃ infos buf, runtime.isSome ∧ port.listeningClients.lookup target = some infos ∧
        Ciborium.intoWriter message = .ok buf ∧
        task = .write infos.readWriteType port.settings.framing buf := by
  cases hs : port.settings <;> cases runtime <;>
    cases hb : Ciborium.intoWriter message <;>
    cases hl : port.listeningClients.lookup target <;>
    simp [sendMessage, ServerTcp.sendMessage, ServerWebSocket.sendMessage, hs, hb, hl]

end SendMessage

end Inator
