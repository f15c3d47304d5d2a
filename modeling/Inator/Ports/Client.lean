import Inator.Ports.Runtime

/-! # The client ports (`ports/tcp/client.rs`, `ports/websocket/client.rs`,
`ports/websocket_wasm/client.rs`)

`ClientTcp`, `ClientWebSocket` and `WasmClient` are one `ClientPort`, which differs in its
settings and in the bodies of `connect`, `start_listening_to_server` and `send_message`. -/

namespace Inator

structure TcpSettingsClient where
  bytes : BytesOptions
  order : OrderOptions
  tryReconnect : Bool
  tls : Bool
  /-- Whether `ServerName::try_from` accepts `tls_domain_name`. -/
  serverName : Bool
  deriving DecidableEq, Repr

structure WebSocketSettingsClient where
  tryReconnect : Bool
  tls : Bool
  deriving DecidableEq, Repr

structure WasmSettingsClient where
  tryReconnect : Bool
  deriving DecidableEq, Repr

def TcpSettingsClient.default : TcpSettingsClient where
  bytes := .u32
  order := .littleEndian
  tryReconnect := true
  tls := false
  serverName := true

def WebSocketSettingsClient.default : WebSocketSettingsClient where
  tryReconnect := true
  tls := false

def WasmSettingsClient.default : WasmSettingsClient where
  tryReconnect := true

/-- The three implementations of `ClientSettingsTrait`. -/
inductive ClientSettings
  | tcp (settings : TcpSettingsClient)
  | webSocket (settings : WebSocketSettingsClient)
  | wasm (settings : WasmSettingsClient)
  deriving DecidableEq, Repr

namespace ClientSettings

def tryReconnect : ClientSettings → Bool
  | .tcp settings => settings.tryReconnect
  | .webSocket settings => settings.tryReconnect
  | .wasm settings => settings.tryReconnect

def framing : ClientSettings → StreamFraming
  | .tcp settings => some (settings.bytes, settings.order)
  | .webSocket _ | .wasm _ => none

end ClientSettings

/-- The tasks a client port spawns, on its runtime or, in a browser, on the event loop. -/
inductive ClientTask
  | connect (tryReconnect tls : Bool)
  | read (stream : Stream) (framing : StreamFraming)
  | write (stream : Stream) (framing : StreamFraming) (buf : List UInt8)
  | sendQueue (stream : Stream)
  deriving DecidableEq, Repr

/-- The fields of the three ports. `sending_messages` and the message queue are `WasmClient`'s. -/
structure ClientPort where
  settings : ClientSettings
  connecting : Bool
  connected : Bool
  listening : Bool
  mainPort : Bool
  connectionDown : List Unit
  messageReceived : List (List UInt8)
  connectedToServer : List Stream
  writeHalf : Option Stream
  readHalf : Option Stream
  sendingMessages : Bool
  messageQueue : List (List UInt8)
  deriving DecidableEq

namespace ClientTcp

def connect (port : ClientPort) (settings : TcpSettingsClient) (runtime : Option Runtime) :
    ClientPort × List ClientTask :=
  match runtime with
  | none => (port, [])
  | some _ =>
    if port.connecting then (port, [])
    else if !settings.serverName then ({ port with connecting := false }, [])
    else ({ port with connecting := true }, [.connect settings.tryReconnect settings.tls])

/-- `ClientTcp::start_listening_to_server`. It marks the port as listening before it looks
whether there is a read half. -/
def startListeningToServer (port : ClientPort) (runtime : Option Runtime) :
    ClientPort × List ClientTask :=
  if port.listening then (port, [])
  else
    match runtime with
    | none => (port, [])
    | some _ =>
      ({ port with listening := true },
        match port.readHalf with
        | none => []
        | some stream => [.read stream port.settings.framing])

end ClientTcp

namespace ClientWebSocket

def connect (port : ClientPort) (settings : WebSocketSettingsClient) (runtime : Option Runtime) :
    ClientPort × List ClientTask :=
  if port.connecting then (port, [])
  else
    match runtime with
    | none => (port, [])
    | some _ => ({ port with connecting := true }, [.connect settings.tryReconnect settings.tls])

/-- `ClientWebSocket::start_listening_to_server`. -/
def startListeningToServer (port : ClientPort) (runtime : Option Runtime) :
    ClientPort × List ClientTask :=
  if port.listening then (port, [])
  else
    match runtime with
    | none => (port, [])
    | some _ =>
      match port.readHalf with
      | none => (port, [])
      | some stream =>
        ({ port with listening := true }, [.read stream port.settings.framing])

end ClientWebSocket

namespace WasmClient

def connect (port : ClientPort) (settings : WasmSettingsClient) : ClientPort × List ClientTask :=
  if port.connecting then (port, [])
  else ({ port with connecting := true }, [.connect settings.tryReconnect false])

/-- `WasmClient::start_listening_to_server`. -/
def startListeningToServer (port : ClientPort) : ClientPort × List ClientTask :=
  if port.listening then (port, [])
  else
    ({ port with listening := true },
      match port.readHalf with
      | none => []
      | some stream => [.read stream port.settings.framing])

end WasmClient

namespace ClientPort

/-- `ClientSettingsTrait::create_client_port`. -/
def new (settings : ClientSettings) : ClientPort where
  settings := settings
  connecting := false
  connected := false
  listening := false
  mainPort := false
  connectionDown := []
  messageReceived := []
  connectedToServer := []
  writeHalf := none
  readHalf := none
  sendingMessages := false
  messageQueue := []

def connect (port : ClientPort) (runtime : Option Runtime) : ClientPort × List ClientTask :=
  match port.settings with
  | .tcp settings => ClientTcp.connect port settings runtime
  | .webSocket settings => ClientWebSocket.connect port settings runtime
  | .wasm settings => WasmClient.connect port settings

def asMainPort (port : ClientPort) : ClientPort × Bool :=
  ({ port with mainPort := true }, true)

def checkMessagesReceived (port : ClientPort) : ClientPort × List (List UInt8) :=
  ({ port with messageReceived := [] }, port.messageReceived)

def checkPortDropped (port : ClientPort) : ClientPort × (Bool × Bool) :=
  match port.connectionDown with
  | [] => (port, (false, false))
  | _ :: rest =>
    ({ port with
        connectionDown := rest
        connected := false
        connecting := false
        listening := false
        writeHalf := none
        readHalf := none }, (true, port.settings.tryReconnect))

def checkConnectedToServer (port : ClientPort) : ClientPort × Bool :=
  if port.connected then (port, false)
  else
    match port.connectedToServer with
    | [] => (port, false)
    | stream :: rest =>
      ({ port with
          connectedToServer := rest
          connected := true
          writeHalf := some stream
          readHalf := some stream }, true)

def startListeningToServer (port : ClientPort) (runtime : Option Runtime) :
    ClientPort × List ClientTask :=
  match port.settings with
  | .tcp _ => ClientTcp.startListeningToServer port runtime
  | .webSocket _ => ClientWebSocket.startListeningToServer port runtime
  | .wasm _ => WasmClient.startListeningToServer port

end ClientPort

namespace ClientPort

/-- `connect` does nothing unless the port is free; then it starts an attempt, or gives up on a
domain name that does not convert. -/
theorem connect_cases (port : ClientPort) (runtime : Option Runtime) :
    port.connect runtime = (port, []) ∨ port.connecting = false ∧
      (port.connect runtime = ({ port with connecting := false }, []) ∨
        ∃ tryReconnect tls, port.connect runtime =
          ({ port with connecting := true }, [.connect tryReconnect tls])) := by
  cases hsettings : port.settings <;> cases runtime <;> cases hconnecting : port.connecting <;>
    simp only [connect, hsettings, ClientTcp.connect, ClientWebSocket.connect, WasmClient.connect,
      hconnecting, Bool.false_eq_true, if_false, if_true, true_or, true_and]
  case tcp.some.false settings runtime =>
    cases settings.serverName with
    | true => exact .inr (.inr ⟨_, _, rfl⟩)
    | false => exact .inr (.inl rfl)
  all_goals exact .inr (.inr ⟨_, _, rfl⟩)

/-- `check_connected_to_server` installs the halves of a stream, or does nothing. -/
theorem checkConnected_cases (port : ClientPort) :
    (port.connected = true ∨ port.connectedToServer = []) ∧
      port.checkConnectedToServer = (port, false) ∨
    port.connected = false ∧ ∃ stream rest, port.connectedToServer = stream :: rest ∧
      port.checkConnectedToServer = ({ port with
        connectedToServer := rest
        connected := true
        writeHalf := some stream
        readHalf := some stream }, true) := by
  cases hup : port.connected with
  | true => exact .inl ⟨.inl rfl, by rw [checkConnectedToServer, if_pos hup]⟩
  | false =>
    cases harrived : port.connectedToServer with
    | nil => exact .inl ⟨.inr rfl, by rw [checkConnectedToServer, hup, harrived]; rfl⟩
    | cons stream rest =>
      exact .inr ⟨rfl, stream, rest, rfl, by rw [checkConnectedToServer, hup, harrived]; rfl⟩

/-- `start_listening_to_server` does nothing to a port that listens; one that does not has a
reader afterwards if it has a read half. -/
theorem startListening_cases (port : ClientPort) (runtime : Option Runtime) :
    port.startListeningToServer runtime = (port, []) ∨ port.listening = false ∧
      (port.readHalf = none ∧
        port.startListeningToServer runtime = ({ port with listening := true }, []) ∨
      ∃ stream, port.readHalf = some stream ∧ port.startListeningToServer runtime =
        ({ port with listening := true }, [.read stream port.settings.framing])) := by
  cases hsettings : port.settings <;> cases runtime <;> cases hlistening : port.listening <;>
    cases hhalf : port.readHalf <;>
    simp only [startListeningToServer, hsettings, ClientTcp.startListeningToServer,
      ClientWebSocket.startListeningToServer, WasmClient.startListeningToServer, hlistening, hhalf,
      Bool.false_eq_true, if_false, if_true, true_or, or_true, true_and]
  all_goals exact .inr (.inr ⟨_, rfl, rfl⟩)

end ClientPort

/-- What a spawned task does: it writes to a channel of its port, or ends without. -/
inductive ClientEvent
  | connectedToServer (stream : Stream)
  | connectionDown
  | messageReceived (bytes : List UInt8)
  | returned
  /-- The connect task of a `ClientTcp` panics: `peer_addr` of the stream that it has got fails. -/
  | panicked
  deriving DecidableEq, Repr

namespace ClientEvent

/-- Which task does it. A connect task gives up only if it may not try again. One that may goes
on in its loop, but a `ClientTcp`'s returns after a failed handshake, and a `ClientWebSocket`'s
has no loop. -/
def By (settings : ClientSettings) : ClientEvent → ClientTask → Prop
  | .connectedToServer stream, .connect _ tls =>
    stream.kind = if tls then .tlsStream else .stream
  | .connectionDown, .connect tryReconnect _ => tryReconnect = false
  | .connectionDown, .read .. => True
  | .messageReceived _, .read .. => True
  | .returned, .connect tryReconnect tls =>
    match settings with
    | .tcp _ => tryReconnect = true ∧ tls = true
    | .webSocket _ => tryReconnect = true
    | .wasm _ => False
  | .returned, _ => True
  | .panicked, .connect .. =>
    match settings with
    | .tcp _ => True
    | .webSocket _ | .wasm _ => False
  | _, _ => False

instance (settings : ClientSettings) (ev : ClientEvent) (task : ClientTask) :
    Decidable (ev.By settings task) := by
  unfold By
  split
  case h_5 | h_7 => split <;> infer_instance
  all_goals infer_instance

/-- Whether the task has returned after it. The reader of a `ClientWebSocket` goes on after an
error. -/
def returns (settings : ClientSettings) : ClientEvent → ClientTask → Bool
  | .messageReceived _, _ => false
  | .connectionDown, .read .. =>
    match settings with
    | .tcp _ | .wasm _ => true
    | .webSocket _ => false
  | _, _ => true

end ClientEvent

def ClientPort.receive (port : ClientPort) : ClientEvent → ClientPort
  | .connectedToServer stream =>
    { port with connectedToServer := port.connectedToServer ++ [stream] }
  | .connectionDown => { port with connectionDown := port.connectionDown ++ [()] }
  | .messageReceived bytes => { port with messageReceived := port.messageReceived ++ [bytes] }
  | .returned | .panicked => port

section SendMessage
variable {τ : Type} [UserMessages τ] [Ciborium τ] {t : MessageType τ}

/-- `ClientTcp::send_message`. -/
def ClientTcp.sendMessage (port : ClientPort) (message : t.Message) (runtime : Option Runtime) :
    ClientPort × List ClientTask :=
  match runtime with
  | none => (port, [])
  | some _ =>
    match Ciborium.intoWriter message with
    | .error _ => (port, [])
    | .ok buf =>
      match port.writeHalf with
      | none => (port, [])
      | some stream => (port, [.write stream port.settings.framing buf])

/-- `ClientWebSocket::send_message`. -/
def ClientWebSocket.sendMessage (port : ClientPort) (message : t.Message)
    (runtime : Option Runtime) : ClientPort × List ClientTask :=
  match runtime with
  | none => (port, [])
  | some _ =>
    match port.writeHalf with
    | none => (port, [])
    | some stream =>
      match Ciborium.intoWriter message with
      | .error _ => (port, [])
      | .ok buf => (port, [.write stream port.settings.framing buf])

/-- `WasmClient::send_message`. The buffer is queued even when there is no sink yet. -/
def WasmClient.sendMessage (port : ClientPort) (message : t.Message) :
    ClientPort × List ClientTask :=
  match Ciborium.intoWriter message with
  | .error _ => (port, [])
  | .ok buf =>
    let queued := { port with messageQueue := port.messageQueue ++ [buf] }
    match queued.writeHalf with
    | none => (queued, [])
    | some stream =>
      if queued.sendingMessages then (queued, [])
      else ({ queued with sendingMessages := true }, [.sendQueue stream])

def ClientPort.sendMessage (port : ClientPort) (message : t.Message) (runtime : Option Runtime) :
    ClientPort × List ClientTask :=
  match port.settings with
  | .tcp _ => ClientTcp.sendMessage port message runtime
  | .webSocket _ => ClientWebSocket.sendMessage port message runtime
  | .wasm _ => WasmClient.sendMessage port message

end SendMessage

end Inator
