import Inator.Lib.Loop
import Inator.Ports.Client
import Inator.Ports.Server
import Inator.Ports.Tcp.Stream

/-! # The loops of the reading tasks

One turn of each loop that reads a connection: `ReadType::read` of `ports/tcp/client.rs` and
`ports/tcp/server.rs`, and the listeners that `ports/websocket` and `ports/websocket_wasm` spawn.
The state of a loop is what is still to come on its stream; a framed stream that has come to its
end gives errors, a stream of messages `None`. -/

namespace Inator
open Loop

/-- How the task of `ReadType::read` ends. -/
inductive ReadExit
  /-- After its notification. -/
  | notified
  /-- On finding its UUID in the `client_authenticated` channel. -/
  | handedOver
  | panicked
  /-- With the whole process. -/
  | aborted
  deriving DecidableEq, Repr

/-- The body of the loop of `ReadType::read`, with the two things that it sends. -/
def ReadType.turn {ε : Type} (memory : Allocator) (io : FrameIo) (bytes : BytesOptions)
    (order : OrderOptions) (received : List UInt8 → ε) (down : ε) (s : List UInt8) :
    Turn (List UInt8) ε ReadExit :=
  match io.readFromSettings bytes order s with
  | some (value, rest) =>
    let size := (io.readValueToUsize value).toNat
    -- `vec![0u8; size]`
    if isizeMax < size then .exit [] .panicked
    else if !memory.gives size then .exit [] .aborted
    else if rest.length < size then .exit [down] .notified
    else .next [received (rest.take size)] (rest.drop size)
  | none => .exit [down] .notified

/-- `ReadType::read` of `ports/tcp/client.rs`. -/
def ClientTcp.readTurn (memory : Allocator) (kind : StreamKind) (bytes : BytesOptions)
    (order : OrderOptions) : List UInt8 → Turn (List UInt8) ClientEvent ReadExit :=
  ReadType.turn memory (frameIo .client kind) bytes order .messageReceived .connectionDown

namespace ServerTcp

/-- The inner loop of `ReadType::read`, on what it finds in the `client_authenticated` channel:
the UUIDs it takes out, and whether the last one is its own. -/
def drain (target : Uuid) : List Uuid → List TaskEvent × Bool
  | [] => ([], false)
  | uuid :: rest =>
    if uuid = target then ([.popClientAuthenticated], true)
    else (.popClientAuthenticated :: (drain target rest).1, (drain target rest).2)

/-- `ReadType::read` of `ports/tcp/server.rs`, with what the channel holds at each turn. A reader
of an authenticated client has no channel. -/
def readTurn (memory : Allocator) (kind : StreamKind) (bytes : BytesOptions)
    (order : OrderOptions) (target : Uuid) (isAuthenticated : Bool) :
    List UInt8 × List (List Uuid) → Turn (List UInt8 × List (List Uuid)) TaskEvent ReadExit
  | (s, channel) =>
    let drained := if isAuthenticated then ([], false) else drain target (channel.headD [])
    if drained.2 then .exit drained.1 .handedOver
    else
      match ReadType.turn memory (frameIo .server kind) bytes order (.messageReceived · target)
        (.clientDisconnected target isAuthenticated) s with
      | .next sent rest => .next (drained.1 ++ sent) (rest, channel.tail)
      | .exit sent result => .exit (drained.1 ++ sent) result

end ServerTcp

/-- What the stream of a WebSocket gives before its `None`: a message of bytes, one of another
kind, or an error. -/
inductive WebSocketItem
  | binary (bytes : List UInt8)
  | other
  | error
  deriving DecidableEq, Repr

/-- The loop of the native listeners, with the two things that it sends. It has no `break` and no
`return`, and does nothing when there is no message. -/
def WebSocketItem.turn {ε : Type} (received : List UInt8 → ε) (down : ε) :
    List WebSocketItem → Turn (List WebSocketItem) ε Unit
  | .binary bytes :: rest => .next [received bytes] rest
  | .error :: rest => .next [down] rest
  | .other :: rest => .next [] rest
  | [] => .next [] []

/-- The loop that `ClientWebSocket::start_listening_to_server` spawns. -/
def ClientWebSocket.listenTurn : List WebSocketItem → Turn (List WebSocketItem) ClientEvent Unit :=
  WebSocketItem.turn .messageReceived .connectionDown

/-- The inner loop that `ServerWebSocket::start_listening_authenticated_client` spawns; the outer
one does nothing else. -/
def ServerWebSocket.listenTurn (target : Uuid) :
    List WebSocketItem → Turn (List WebSocketItem) TaskEvent Unit :=
  WebSocketItem.turn (.messageReceived · target) (.clientDisconnected target true)

/-- The loop that `WasmClient::start_listening_to_server` spawns. -/
def WasmClient.listenTurn : List WebSocketItem → Turn (List WebSocketItem) ClientEvent Unit
  | .binary bytes :: rest => .next [.messageReceived bytes] rest
  | .other :: rest => .next [] rest
  | .error :: _ => .exit [.connectionDown] ()
  | [] => .exit [.connectionDown] ()

end Inator
