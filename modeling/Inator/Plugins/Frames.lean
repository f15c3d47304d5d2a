import Inator.Plugins.ServerApp

/-! # The messages of successive frames

In `PreUpdate` a server runs `read_messages_server` and, after it, with the commands applied,
`authentication_message_server`. Here messages come in between these runs, a batch before each. -/

namespace Inator
variable {τ : Type} [DecidableEq τ] [UserMessages τ] [Ciborium τ]

/-- A message as it comes in, with its sender. -/
abbrev Incoming := List UInt8 × Uuid

/-- A message with the connection it comes in on. -/
abbrev Arrival := String × Incoming

/-- The readers of the connections forward the messages. -/
def ServerConnections.arrive (batch : List Arrival) (connections : ServerConnections) :
    ServerConnections :=
  batch.foldl (fun connections arrival =>
    connections.receive (arrival.1, .messageReceived arrival.2.1 arrival.2.2)) connections

/-- The two systems of a frame, with the handler of `AuthenticationMessage`, and what they
dispatch. -/
def messagesFrame (registry : MessagesRegistry τ) (connections : ServerConnections)
    (batch : List Arrival) : Panicking (ServerConnections × List (WorldMessage τ)) := do
  let (read, commands) ← readMessagesServer registry (connections.arrive batch)
  let dispatched ← applyCommands commands
  let (left, _) ← authenticationMessageServer AuthenticationMessage.authenticationTrait read
    (dispatched.filterMap (·.fromClient? .authenticationMessage))
  return (left, dispatched)

/-- A frame for each batch. -/
def messagesFrames (registry : MessagesRegistry τ) :
    ServerConnections → List (List Arrival) →
      Panicking (ServerConnections × List (WorldMessage τ))
  | connections, [] => return (connections, [])
  | connections, batch :: batches => do
    let (connections, dispatched) ← messagesFrame registry connections batch
    let (left, more) ← messagesFrames registry connections batches
    return (left, dispatched ++ more)

end Inator
