import Inator.Plugins.Connection

/-! # Reading messages (`read_messages_server`, `read_messages_client` of
`plugins/messaging.rs`)

Both systems drain the channel of every main port and queue a command for each message they
dispatch; a command writes its message when the queue is applied. `MessagesRegistry.decode` is
what the two nested decoders make of a buffer, `Undecodable` the buffers the inner one panics
on. `readMessageServer_ok` and `readMessageClient_ok` say what is queued for any other. -/

namespace Inator
variable {τ : Type} [DecidableEq τ] [UserMessages τ] [Ciborium τ]

/-- What a command on the queue writes to the world when it is applied. -/
abbrev Command (τ : Type) [UserMessages τ] := Panicking (WorldMessage τ)

/-- The body both loops share: open the envelope, look its type up, decode the message and
`queue` it. -/
def readMessage (messagesRegistry : MessagesRegistry τ) (bytes : List UInt8)
    (queue : MessageFunctions τ → AnyMessage τ → Panicking (List (Command τ))) :
    Panicking (List (Command τ)) :=
  match Ciborium.fromReaderMessageInfos τ bytes with
  | .error _ => return []
  | .ok messageInfos =>
    match messagesRegistry.functions.lookup messageInfos.messageId with
    | none => return []
    | some messageFunctions => do
      let message ← messageFunctions.deserialize messageInfos.message
      queue messageFunctions message

/-- The body of the loop of `read_messages_server`, for one message of a connection. -/
def readMessageServer (messagesRegistry : MessagesRegistry τ) (serverConnection : ServerConnection)
    (bytes : List UInt8) (sender : Uuid) : Panicking (List (Command τ)) :=
  readMessage messagesRegistry bytes fun messageFunctions message => do
    let admitted ←
      if sender ∈ serverConnection.clientsConnected then pure true
      else messageFunctions.isAuthenticationMessage message
    if admitted then
      return [messageFunctions.dispatch message .server .tcp 0 serverConnection.connectionName
        (some sender)]
    else return []

/-- The body of the loop of `read_messages_client`. -/
def readMessageClient (messagesRegistry : MessagesRegistry τ) (clientConnection : ClientConnection)
    (bytes : List UInt8) : Panicking (List (Command τ)) :=
  readMessage messagesRegistry bytes fun messageFunctions message =>
    return [messageFunctions.dispatch message .client .tcp 0 clientConnection.connectionName none]

namespace ServerConnection

/-- What `check_messages_received` takes from the main port. -/
def batch (connection : ServerConnection) : List (List UInt8 × Uuid) :=
  match connection.mainPort with
  | none => []
  | some port => port.checkMessagesReceived.2

def drained (connection : ServerConnection) : ServerConnection :=
  { connection with mainPort := connection.mainPort.map (·.checkMessagesReceived.1) }

end ServerConnection

namespace ClientConnection

/-- What `check_messages_received` takes from the main port. -/
def batch (connection : ClientConnection) : List (List UInt8) :=
  match connection.mainPort with
  | none => []
  | some port => port.checkMessagesReceived.2

def drained (connection : ClientConnection) : ClientConnection :=
  { connection with mainPort := connection.mainPort.map (·.checkMessagesReceived.1) }

end ClientConnection

def readMessagesServer (messagesRegistry : MessagesRegistry τ)
    (serverConnections : NetworkConnections ServerConnection) :
    Panicking (NetworkConnections ServerConnection × List (Command τ)) := do
  let commands ← Panicking.forEach (fun entry =>
    Panicking.forEach (fun message =>
      readMessageServer messagesRegistry entry.2 message.1 message.2) entry.2.batch)
    serverConnections.entries
  return (AssocMap.mapVals (fun _ connection => connection.drained) serverConnections, commands)

def readMessagesClient (messagesRegistry : MessagesRegistry τ)
    (clientConnections : NetworkConnections ClientConnection) :
    Panicking (NetworkConnections ClientConnection × List (Command τ)) := do
  let commands ← Panicking.forEach (fun entry =>
    Panicking.forEach (readMessageClient messagesRegistry entry.2) entry.2.batch)
    clientConnections.entries
  return (AssocMap.mapVals (fun _ connection => connection.drained) clientConnections, commands)

/-- Apply the queued commands. -/
def applyCommands (commands : List (Command τ)) : Panicking (List (WorldMessage τ)) :=
  Panicking.forEach (fun command => (fun written => [written]) <$> command) commands

/-! ## What a buffer holds -/

namespace MessagesRegistry

/-- The message of a buffer that both decoders accept. -/
def decode (messagesRegistry : MessagesRegistry τ) (bytes : List UInt8) : Option (AnyMessage τ) :=
  match Ciborium.fromReaderMessageInfos τ bytes with
  | .error _ => none
  | .ok messageInfos =>
    match messagesRegistry.types.lookup messageInfos.messageId with
    | none => none
    | some t =>
      match Ciborium.fromReader t messageInfos.message with
      | .error _ => none
      | .ok message => some ⟨t, message⟩

/-- The buffer is an envelope of a registered type, but what is in it does not decode at that
type. -/
def Undecodable (messagesRegistry : MessagesRegistry τ) (bytes : List UInt8) : Prop :=
  ∃ messageInfos t e, Ciborium.fromReaderMessageInfos τ bytes = .ok messageInfos ∧
    messagesRegistry.types.lookup messageInfos.messageId = some t ∧
    Ciborium.fromReader t messageInfos.message = .error e

theorem decode_eq_some {messagesRegistry : MessagesRegistry τ} {bytes : List UInt8}
    {t : MessageType τ} {message : t.Message} :
    messagesRegistry.decode bytes = some ⟨t, message⟩ ↔
      ∃ messageInfos, Ciborium.fromReaderMessageInfos τ bytes = .ok messageInfos ∧
        messagesRegistry.types.lookup messageInfos.messageId = some t ∧
        Ciborium.fromReader t messageInfos.message = .ok message := by
  cases hinfos : Ciborium.fromReaderMessageInfos τ bytes with
  | error e => simp [decode, hinfos]
  | ok messageInfos =>
    cases htype : messagesRegistry.types.lookup messageInfos.messageId with
    | none => simp [decode, hinfos, htype]
    | some t' =>
      constructor
      · intro h
        simp only [decode, hinfos, htype] at h
        split at h
        · cases h
        · rename_i hmessage
          cases h
          exact ⟨messageInfos, rfl, htype, hmessage⟩
      · rintro ⟨messageInfos', heq, htype', hmessage⟩
        cases heq
        cases htype.symm.trans htype'
        simp [decode, hinfos, htype, hmessage]

theorem not_undecodable_of_decode {messagesRegistry : MessagesRegistry τ} {bytes : List UInt8}
    {message : AnyMessage τ} (h : messagesRegistry.decode bytes = some message) :
    ¬messagesRegistry.Undecodable bytes := by
  rintro ⟨messageInfos, t, e, hinfos, htype, herror⟩
  obtain ⟨messageInfos', hinfos', htype', hmessage⟩ := decode_eq_some.mp h
  cases hinfos.symm.trans hinfos'
  cases htype.symm.trans htype'
  cases herror.symm.trans hmessage

end MessagesRegistry

/-- What the server should queue for one message: its dispatch, if the sender is authenticated
or the message is an authentication message. -/
def dispatchServer (messagesRegistry : MessagesRegistry τ) (serverConnection : ServerConnection)
    (bytes : List UInt8) (sender : Uuid) : List (Command τ) :=
  match messagesRegistry.decode bytes with
  | none => []
  | some ⟨t, message⟩ =>
    if sender ∈ serverConnection.clientsConnected ∨ t.asAuthentication message then
      [.ok (.fromClient t ⟨message, .tcp, some sender, serverConnection.connectionName, 0⟩)]
    else []

/-- What the client should queue for one message. -/
def dispatchClient (messagesRegistry : MessagesRegistry τ) (clientConnection : ClientConnection)
    (bytes : List UInt8) : List (Command τ) :=
  match messagesRegistry.decode bytes with
  | none => []
  | some ⟨t, message⟩ =>
    [.ok (.fromServer t ⟨message, .tcp, clientConnection.connectionName, 0⟩)]

variable {messagesRegistry : MessagesRegistry τ} {bytes : List UInt8}

/-- What the loops do with a buffer that is not undecodable. -/
theorem readMessage_ok (queue : MessageFunctions τ → AnyMessage τ → Panicking (List (Command τ)))
    (h : ¬messagesRegistry.Undecodable bytes) :
    readMessage messagesRegistry bytes queue =
      match messagesRegistry.decode bytes with
      | none => .ok []
      | some message => queue (messageFunctions message.type) message := by
  cases hinfos : Ciborium.fromReaderMessageInfos τ bytes with
  | error e =>
    simp only [readMessage, MessagesRegistry.decode, hinfos]
    rfl
  | ok messageInfos =>
    have herased := messagesRegistry.erased messageInfos.messageId
    cases htype : messagesRegistry.types.lookup messageInfos.messageId with
    | none =>
      rw [htype, Option.map_none] at herased
      simp only [readMessage, MessagesRegistry.decode, hinfos, herased, htype]
      rfl
    | some t =>
      rw [htype, Option.map_some] at herased
      cases hmessage : Ciborium.fromReader t messageInfos.message with
      | error e => exact absurd ⟨messageInfos, t, e, hinfos, htype, hmessage⟩ h
      | ok message =>
        have hdeserialize : (messageFunctions t).deserialize messageInfos.message =
            .ok ⟨t, message⟩ := deserializeMessage_ok hmessage
        simp only [readMessage, MessagesRegistry.decode, hinfos, herased, htype, hmessage,
          hdeserialize]
        rfl

/-- **An undecodable buffer panics**, whatever would be done with its message. -/
theorem readMessage_error (queue : MessageFunctions τ → AnyMessage τ → Panicking (List (Command τ)))
    (h : messagesRegistry.Undecodable bytes) :
    ∃ e, readMessage messagesRegistry bytes queue = .error ("Failed to decode message: " ++ e) := by
  obtain ⟨messageInfos, t, e, hinfos, htype, hmessage⟩ := h
  have herased := messagesRegistry.erased messageInfos.messageId
  rw [htype, Option.map_some] at herased
  have hdeserialize : (messageFunctions t).deserialize messageInfos.message =
      .error ("Failed to decode message: " ++ e) := deserializeMessage_error hmessage
  refine ⟨e, ?_⟩
  simp only [readMessage, hinfos, herased, hdeserialize]
  rfl

theorem readMessageServer_ok (serverConnection : ServerConnection) (sender : Uuid)
    (h : ¬messagesRegistry.Undecodable bytes) :
    readMessageServer messagesRegistry serverConnection bytes sender =
      .ok (dispatchServer messagesRegistry serverConnection bytes sender) := by
  rw [readMessageServer, readMessage_ok _ h, dispatchServer]
  cases messagesRegistry.decode bytes with
  | none => rfl
  | some message =>
    obtain ⟨t, message⟩ := message
    simp only [messageFunctions, isAuthenticationMessage_mk, dispatchMessage_server]
    by_cases hsender : sender ∈ serverConnection.clientsConnected
    · simp [hsender, bind, Except.bind, pure, Except.pure]
    · cases hauth : t.asAuthentication message <;>
        simp [hsender, bind, Except.bind, pure, Except.pure]

theorem not_undecodable_of_ok
    {queue : MessageFunctions τ → AnyMessage τ → Panicking (List (Command τ))}
    {out : List (Command τ)} (h : readMessage messagesRegistry bytes queue = .ok out) :
    ¬messagesRegistry.Undecodable bytes := by
  intro hundecodable
  obtain ⟨e, he⟩ := readMessage_error queue hundecodable
  rw [h] at he
  cases he

theorem mem_dispatchServer {serverConnection : ServerConnection} {sender : Uuid}
    {command : Command τ}
    (h : command ∈ dispatchServer messagesRegistry serverConnection bytes sender) :
    ∃ t message, (sender ∈ serverConnection.clientsConnected ∨ t.asAuthentication message) ∧
      command = .ok (.fromClient t
        ⟨message, .tcp, some sender, serverConnection.connectionName, 0⟩) := by
  unfold dispatchServer at h
  split at h
  · cases h
  · rename_i t message hdecode
    split at h
    · rename_i hadmitted
      exact ⟨t, message, hadmitted, List.mem_singleton.mp h⟩
    · cases h

/-- Every command that `read_messages_server` queues dispatches a message of a connection, from
a sender that is authenticated there or in an authentication message. -/
theorem mem_of_readMessagesServer {serverConnections left : NetworkConnections ServerConnection}
    {commands : List (Command τ)}
    (h : readMessagesServer messagesRegistry serverConnections = .ok (left, commands))
    {command : Command τ} (hcommand : command ∈ commands) :
    ∃ name serverConnection, serverConnections.lookup name = some serverConnection ∧
      ∃ t message sender,
        (sender ∈ serverConnection.clientsConnected ∨ t.asAuthentication message) ∧
        command = .ok (.fromClient t
          ⟨message, .tcp, some sender, serverConnection.connectionName, 0⟩) := by
  obtain ⟨commands', hloop, heq⟩ := Panicking.bind_eq_ok.mp h
  cases heq
  obtain ⟨entry, hentry, queued, hturn, hqueued⟩ := Panicking.mem_of_forEach hloop hcommand
  obtain ⟨message, -, out, hout, hmem⟩ := Panicking.mem_of_forEach hturn hqueued
  have hok := not_undecodable_of_ok hout
  rw [readMessageServer_ok entry.2 message.2 hok] at hout
  cases hout
  obtain ⟨t, m, hadmitted, heq⟩ := mem_dispatchServer hmem
  exact ⟨entry.1, entry.2, AssocMap.mem_entries.mp hentry, t, m, message.2, hadmitted, heq⟩

omit [DecidableEq τ] [Ciborium τ] in
/-- What applying the queue writes is what its commands write. -/
theorem mem_of_applyCommands {commands : List (Command τ)} {written : List (WorldMessage τ)}
    (h : applyCommands commands = .ok written) {message : WorldMessage τ}
    (hmessage : message ∈ written) : .ok message ∈ commands := by
  obtain ⟨command, hcommand, out, hout, hmem⟩ := Panicking.mem_of_forEach h hmessage
  obtain ⟨message', hmessage', rfl⟩ := Panicking.map_eq_ok.mp hout
  cases List.mem_singleton.mp hmem
  cases hmessage'
  exact hcommand

theorem readMessageClient_ok (clientConnection : ClientConnection)
    (h : ¬messagesRegistry.Undecodable bytes) :
    readMessageClient messagesRegistry clientConnection bytes =
      .ok (dispatchClient messagesRegistry clientConnection bytes) := by
  rw [readMessageClient, readMessage_ok _ h, dispatchClient]
  cases messagesRegistry.decode bytes with
  | none => rfl
  | some message =>
    obtain ⟨t, message⟩ := message
    simp only [messageFunctions, dispatchMessage_client]
    rfl

/-- Every command that `read_messages_client` queues dispatches what a buffer of a connection
decodes to. -/
theorem mem_of_readMessagesClient {clientConnections left : NetworkConnections ClientConnection}
    {commands : List (Command τ)}
    (h : readMessagesClient messagesRegistry clientConnections = .ok (left, commands))
    {command : Command τ} (hcommand : command ∈ commands) :
    ∃ name clientConnection bytes t message,
      clientConnections.lookup name = some clientConnection ∧ bytes ∈ clientConnection.batch ∧
        messagesRegistry.decode bytes = some ⟨t, message⟩ ∧
        command = .ok (.fromServer t ⟨message, .tcp, clientConnection.connectionName, 0⟩) := by
  obtain ⟨commands', hloop, heq⟩ := Panicking.bind_eq_ok.mp h
  cases heq
  obtain ⟨entry, hentry, queued, hturn, hqueued⟩ := Panicking.mem_of_forEach hloop hcommand
  obtain ⟨bytes, hbytes, out, hout, hmem⟩ := Panicking.mem_of_forEach hturn hqueued
  rw [readMessageClient_ok entry.2 (not_undecodable_of_ok hout)] at hout
  cases hout
  simp only [dispatchClient] at hmem
  split at hmem
  · cases hmem
  · rename_i t message hdecode
    exact ⟨entry.1, entry.2, bytes, t, message, AssocMap.mem_entries.mp hentry, hbytes, hdecode,
      List.mem_singleton.mp hmem⟩

end Inator
