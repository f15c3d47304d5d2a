import Inator.Lib.Endian
import Inator.Plugins.Messaging

/-! # What the read systems do with arbitrary buffers, and with the buffers the ports send

`readsBatch_iff` says when a batch is read to its end; `endToEnd_iff` when a message that a port
sends is dispatched at the other end. -/

namespace Inator

/-! ## Arbitrary buffers -/

section Batch
variable {τ : Type} [DecidableEq τ] [UserMessages τ] [Ciborium τ]

/-- The server's system ends normally, and queues for each message of each connection, in
order, what it should. -/
def ReadsBatchServer (messagesRegistry : MessagesRegistry τ)
    (serverConnections : NetworkConnections ServerConnection) : Prop :=
  readMessagesServer messagesRegistry serverConnections =
    .ok (AssocMap.mapVals (fun _ connection => connection.drained) serverConnections,
      AssocMap.collect (fun _ connection => connection.batch.flatMap fun message =>
        dispatchServer messagesRegistry connection message.1 message.2) serverConnections)

/-- The client's system ends normally, and queues for each message of each connection, in
order, what it should. -/
def ReadsBatchClient (messagesRegistry : MessagesRegistry τ)
    (clientConnections : NetworkConnections ClientConnection) : Prop :=
  readMessagesClient messagesRegistry clientConnections =
    .ok (AssocMap.mapVals (fun _ connection => connection.drained) clientConnections,
      AssocMap.collect (fun _ connection => connection.batch.flatMap
        (dispatchClient messagesRegistry connection)) clientConnections)

variable {messagesRegistry : MessagesRegistry τ}

theorem readsBatchServer_iff (serverConnections : NetworkConnections ServerConnection) :
    ReadsBatchServer messagesRegistry serverConnections ↔
      ∀ name connection, serverConnections.lookup name = some connection →
        ∀ message ∈ connection.batch, ¬messagesRegistry.Undecodable message.1 := by
  constructor
  · intro h name connection hlookup message hmessage
    obtain ⟨commands, hloop, -⟩ := Panicking.bind_eq_ok.mp h
    obtain ⟨queued, hturn⟩ := Panicking.forEach_ok hloop _ (AssocMap.mem_entries.mpr hlookup)
    obtain ⟨out, hout⟩ := Panicking.forEach_ok hturn message hmessage
    exact not_undecodable_of_ok hout
  · intro h
    refine Panicking.bind_eq_ok.mpr ⟨_, Panicking.forEach_eq ?_, rfl⟩
    intro entry hentry
    apply Panicking.forEach_eq
    intro message hmessage
    exact readMessageServer_ok entry.2 message.2
      (h entry.1 entry.2 (AssocMap.mem_entries.mp hentry) message hmessage)

theorem readsBatchClient_iff (clientConnections : NetworkConnections ClientConnection) :
    ReadsBatchClient messagesRegistry clientConnections ↔
      ∀ name connection, clientConnections.lookup name = some connection →
        ∀ bytes ∈ connection.batch, ¬messagesRegistry.Undecodable bytes := by
  constructor
  · intro h name connection hlookup bytes hbytes
    obtain ⟨commands, hloop, -⟩ := Panicking.bind_eq_ok.mp h
    obtain ⟨queued, hturn⟩ := Panicking.forEach_ok hloop _ (AssocMap.mem_entries.mpr hlookup)
    obtain ⟨out, hout⟩ := Panicking.forEach_ok hturn bytes hbytes
    exact not_undecodable_of_ok hout
  · intro h
    refine Panicking.bind_eq_ok.mpr ⟨_, Panicking.forEach_eq ?_, rfl⟩
    intro entry hentry
    apply Panicking.forEach_eq
    intro bytes hbytes
    exact readMessageClient_ok entry.2
      (h entry.1 entry.2 (AssocMap.mem_entries.mp hentry) bytes hbytes)

/-- **When a batch is read to its end**: exactly when no buffer of it is an envelope of a
registered type around bytes that do not decode at that type. -/
theorem readsBatch_iff (messagesRegistry : MessagesRegistry τ)
    (serverConnections : NetworkConnections ServerConnection)
    (clientConnections : NetworkConnections ClientConnection) :
    (ReadsBatchServer messagesRegistry serverConnections ↔
      ∀ name connection, serverConnections.lookup name = some connection →
        ∀ message ∈ connection.batch, ¬messagesRegistry.Undecodable message.1) ∧
    (ReadsBatchClient messagesRegistry clientConnections ↔
      ∀ name connection, clientConnections.lookup name = some connection →
        ∀ bytes ∈ connection.batch, ¬messagesRegistry.Undecodable bytes) :=
  ⟨readsBatchServer_iff serverConnections, readsBatchClient_iff clientConnections⟩

end Batch

/-! ## A small program

Its own message type is a number, which authenticates. The codec writes what CBOR prescribes
for numbers, for UUIDs and for the envelopes of short messages, and refuses the rest. -/

/-- The message types of the small program. -/
inductive Sample
  | ticket
  deriving DecidableEq

namespace Sample

instance : UserMessages Sample where
  Message _ := UInt8
  asAuthentication _ := true

/-- An unsigned number of one byte. -/
def encodeByte (n : UInt8) : List UInt8 := if n < 24 then [n] else [0x18, n]

/-- `n` unsigned numbers of one byte. -/
def decodeBytes : Nat → List UInt8 → Except String (List UInt8)
  | 0, _ => .ok []
  | _, [] => .error "unexpected end"
  | n + 1, b :: rest =>
    if b < 24 then (b :: ·) <$> decodeBytes n rest
    else
      match b, rest with
      | 0x18, c :: rest => (c :: ·) <$> decodeBytes n rest
      | _, _ => .error "invalid type"

/-- A map of two entries whose first key is the text `message_id`. -/
def messageIdHead : List UInt8 :=
  [0xA2, 0x6A, 0x6D, 0x65, 0x73, 0x73, 0x61, 0x67, 0x65, 0x5F, 0x69, 0x64]

/-- The text `message`. -/
def messageHead : List UInt8 := [0x67, 0x6D, 0x65, 0x73, 0x73, 0x61, 0x67, 0x65]

def encodeMessageInfos (messageInfos : MessageInfos) : List UInt8 :=
  messageIdHead ++ encodeByte (.ofNat messageInfos.messageId.toNat) ++ messageHead ++
    [0x80 + .ofNat messageInfos.message.length] ++ messageInfos.message.flatMap encodeByte

def decodeMessageInfos (bytes : List UInt8) : Except String MessageInfos :=
  match messageIdHead.isPrefixOf? bytes with
  | some (id :: rest) =>
    match messageHead.isPrefixOf? rest with
    | some (head :: items) =>
      if id < 24 ∧ 0x80 ≤ head ∧ head < 0x98 then
        (⟨id.toNat, ·⟩) <$> decodeBytes (head - 0x80).toNat items
      else .error "invalid type"
    | _ => .error "missing field"
  | _ => .error "invalid type"

instance : Ciborium Sample where
  intoWriter {t} message :=
    match t, message with
    | .authenticationMessage, _ => .error "text"
    | .authenticatedUuid, message => .ok (0x50 :: Endian.bigBytes 16 message.uuid.toNat)
    | .user .ticket, n => .ok (encodeByte n)
  fromReader
    | .authenticationMessage, _ => .error "invalid type"
    | .authenticatedUuid, bytes =>
      match bytes with
      | 0x50 :: rest =>
        if rest.length < 16 then .error "unexpected end"
        else .ok ⟨.ofNat 128 (Endian.ofBig (rest.take 16))⟩
      | _ => .error "invalid type"
    | .user .ticket, bytes =>
      match decodeBytes 1 bytes with
      | .ok [n] => .ok n
      | _ => .error "invalid type"
  fromReaderMessageInfos := decodeMessageInfos

/-- What the program registers: the types of `AuthenticationPlugin`, then its own. -/
def registry : MessagesRegistry Sample :=
  ((MessagesRegistry.default.registerMessage .authenticationMessage).registerMessage
    .authenticatedUuid).registerMessage (.user .ticket)

/-- A server nobody has authenticated at, with messages to read. -/
def server (messages : List (List UInt8 × Uuid)) : ServerConnection where
  runtime := some .new
  connectionName := "main"
  connected := true
  mainPort := some { ServerPort.new (.tcp .default) with messageReceived := messages }
  clientsConnected := ∅
  spawned := []
  running := []

end Sample

/-- An envelope that names `AuthenticationMessage` and holds nothing takes the server down,
though nobody has authenticated, and the ticket behind it is never read. -/
theorem hostile_panics :
    (∃ e, readMessagesServer Sample.registry (AList.singleton "main" (Sample.server
        [(Sample.encodeMessageInfos ⟨1, []⟩, 1), (Sample.encodeMessageInfos ⟨3, [7]⟩, 2)])) =
          .error ("Failed to decode message: " ++ e)) ∧
      ¬ReadsBatchServer Sample.registry (AList.singleton "main" (Sample.server
        [(Sample.encodeMessageInfos ⟨1, []⟩, 1), (Sample.encodeMessageInfos ⟨3, [7]⟩, 2)])) := by
  have hpanic : readMessagesServer Sample.registry (AList.singleton "main" (Sample.server
      [(Sample.encodeMessageInfos ⟨1, []⟩, 1), (Sample.encodeMessageInfos ⟨3, [7]⟩, 2)])) =
        .error ("Failed to decode message: " ++ "invalid type") := rfl
  refine ⟨⟨"invalid type", hpanic⟩, ?_⟩
  intro h
  rw [ReadsBatchServer, hpanic] at h
  cases h

/-! ## What the ports send -/

/-- A server port with one authenticated client. -/
def sendingServer : ServerPort :=
  { ServerPort.new (.tcp .default) with
    listeningClients := AList.singleton 0 ⟨⟨0, .stream⟩, true⟩ }

/-- A client with messages to read. -/
def receivingClient (messages : List (List UInt8)) : ClientConnection where
  runtime := some .new
  connectionName := "main"
  connected := true
  mainPort := some { ClientPort.new (.tcp .default) with messageReceived := messages }
  localUuid := none
  spawned := []
  running := []

section EndToEnd
variable {τ : Type} [DecidableEq τ] [UserMessages τ] [Ciborium τ] {t : MessageType τ}
  {message : t.Message}

/-- `send_message` of the server port has a task write the buffer. -/
def ServerPort.Sends (port : ServerPort) (message : t.Message) (target : Uuid)
    (runtime : Option Runtime) (buf : List UInt8) : Prop :=
  ∃ stream framing, .write stream framing buf ∈ port.sendMessage message target runtime

/-- `send_message` of the client port has a task write the buffer, or queues it for one. -/
def ClientPort.Sends (port : ClientPort) (message : t.Message) (runtime : Option Runtime)
    (buf : List UInt8) : Prop :=
  (∃ stream framing, .write stream framing buf ∈ (port.sendMessage message runtime).2) ∨
    (port.sendMessage message runtime).1.messageQueue = port.messageQueue ++ [buf]

/-- A buffer that either end sends for the message, received unchanged as the only message of
a connection, is dispatched once, with that message. -/
structure EndToEnd (messagesRegistry : MessagesRegistry τ) (message : t.Message) : Prop where
  toClient : ∀ (port : ServerPort) target runtime buf, port.Sends message target runtime buf →
    ∀ name (connection : ClientConnection), connection.batch = [buf] →
      readMessagesClient messagesRegistry (AList.singleton name connection) =
        .ok (AList.singleton name connection.drained,
          [.ok (.fromServer t ⟨message, .tcp, connection.connectionName, 0⟩)])
  toServer : ∀ (port : ClientPort) runtime buf, port.Sends message runtime buf →
    ∀ name (connection : ServerConnection) sender, sender ∈ connection.clientsConnected →
      connection.batch = [(buf, sender)] →
      readMessagesServer messagesRegistry (AList.singleton name connection) =
        .ok (AList.singleton name connection.drained,
          [.ok (.fromClient t ⟨message, .tcp, some sender, connection.connectionName, 0⟩)])

omit [DecidableEq τ] in
theorem ServerPort.Sends.encodes {port : ServerPort}
    (h : port.Sends message target runtime buf) : Ciborium.intoWriter message = .ok buf := by
  obtain ⟨stream, framing, hmem⟩ := h
  obtain ⟨infos, buf', -, -, hbuf, heq⟩ := ServerPort.mem_sendMessage.mp hmem
  cases heq
  exact hbuf

omit [DecidableEq τ] in
theorem ClientPort.Sends.encodes {port : ClientPort}
    (h : port.Sends message runtime buf) : Ciborium.intoWriter message = .ok buf := by
  cases hbuf : Ciborium.intoWriter message with
  | error e =>
    cases hs : port.settings <;> cases runtime <;> cases hw : port.writeHalf <;>
      simp [Sends, sendMessage, ClientTcp.sendMessage, ClientWebSocket.sendMessage,
        WasmClient.sendMessage, hs, hbuf, hw] at h
  | ok buf' =>
    cases hs : port.settings <;> cases runtime <;> cases hw : port.writeHalf <;>
      cases hm : port.sendingMessages <;>
      simp_all [Sends, sendMessage, ClientTcp.sendMessage, ClientWebSocket.sendMessage,
        WasmClient.sendMessage]

variable {messagesRegistry : MessagesRegistry τ}

theorem readMessagesClient_singleton {connection : ClientConnection}
    (hbatch : connection.batch = [buf]) :
    readMessagesClient messagesRegistry (AList.singleton name connection) =
      (readMessageClient messagesRegistry connection buf).map
        (AList.singleton name connection.drained, ·) := by
  rw [readMessagesClient, AList.singleton_entries, Panicking.forEach_singleton, hbatch,
    Panicking.forEach_singleton]
  cases readMessageClient messagesRegistry connection buf <;> rfl

theorem readMessagesServer_singleton {connection : ServerConnection}
    (hbatch : connection.batch = [(buf, sender)]) :
    readMessagesServer messagesRegistry (AList.singleton name connection) =
      (readMessageServer messagesRegistry connection buf sender).map
        (AList.singleton name connection.drained, ·) := by
  rw [readMessagesServer, AList.singleton_entries, Panicking.forEach_singleton, hbatch,
    Panicking.forEach_singleton]
  cases readMessageServer messagesRegistry connection buf sender <;> rfl

/-- A client dispatches the message only if the buffer decodes to it. -/
theorem decode_of_readMessageClient {connection : ClientConnection}
    (h : readMessageClient messagesRegistry connection buf =
      .ok [.ok (.fromServer t ⟨message, .tcp, connection.connectionName, 0⟩)]) :
    messagesRegistry.decode buf = some ⟨t, message⟩ := by
  rw [readMessageClient_ok connection (not_undecodable_of_ok h), dispatchClient] at h
  cases hdecode : messagesRegistry.decode buf with
  | none =>
    rw [hdecode] at h
    cases h
  | some decoded =>
    rw [hdecode] at h
    cases h
    rfl

/-- **When the two ends agree** on a message: exactly when its own encoding is an envelope
that names its type and holds the message again. No port puts a message in an envelope. -/
theorem endToEnd_iff (messagesRegistry : MessagesRegistry τ) (t : MessageType τ)
    (message : t.Message) :
    EndToEnd messagesRegistry message ↔
      ∀ buf, Ciborium.intoWriter message = .ok buf →
        ∃ messageInfos, Ciborium.fromReaderMessageInfos τ buf = .ok messageInfos ∧
          messagesRegistry.types.lookup messageInfos.messageId = some t ∧
          Ciborium.fromReader t messageInfos.message = .ok message := by
  simp only [← MessagesRegistry.decode_eq_some]
  constructor
  · intro h buf hbuf
    have hsends : sendingServer.Sends message 0 (some .new) buf :=
      ⟨_, _, ServerPort.mem_sendMessage.mpr ⟨_, _, rfl, rfl, hbuf, rfl⟩⟩
    have hread := h.toClient _ _ _ _ hsends "" (receivingClient [buf]) rfl
    rw [readMessagesClient_singleton rfl] at hread
    obtain ⟨commands, hcommands, heq⟩ := Panicking.map_eq_ok.mp hread
    cases heq
    exact decode_of_readMessageClient hcommands
  · intro h
    constructor
    · intro port target runtime buf hsends name connection hbatch
      have hdecode := h buf hsends.encodes
      have hok := MessagesRegistry.not_undecodable_of_decode hdecode
      rw [readMessagesClient_singleton hbatch, readMessageClient_ok connection hok, dispatchClient,
        hdecode]
      rfl
    · intro port runtime buf hsends name connection sender hsender hbatch
      have hdecode := h buf hsends.encodes
      have hok := MessagesRegistry.not_undecodable_of_decode hdecode
      rw [readMessagesServer_singleton hbatch, readMessageServer_ok connection sender hok,
        dispatchServer, hdecode]
      simp only [hsender, true_or, if_true]
      rfl

end EndToEnd

/-- The UUID a server sends to a client it has authenticated is a byte string, which no client
takes for an envelope. -/
theorem authenticatedUuid_lost :
    ¬EndToEnd Sample.registry
      (show (MessageType.authenticatedUuid : MessageType Sample).Message from ⟨0⟩) := by
  intro h
  have hsends : sendingServer.Sends (τ := Sample) (t := .authenticatedUuid) ⟨0⟩ 0 (some .new)
      (0x50 :: Endian.bigBytes 16 0) :=
    ⟨_, _, ServerPort.mem_sendMessage.mpr ⟨_, _, rfl, rfl, rfl, rfl⟩⟩
  have hread := h.toClient _ _ _ _ hsends "main" (receivingClient _) rfl
  cases hread

end Inator
