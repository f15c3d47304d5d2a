import Mathlib.Data.PEquiv
import Inator.Plugins.ClientApp
import Inator.Plugins.ServerApp

/-! # A server and its clients

The wiring says which end of a client is behind an end of the server. Behind the others is anybody:
there a reader may bring any message. Between two ends that are wired the stream carries what the
write tasks of either end put on it: bytes, or the messages of a web socket. No two tasks have the
lock of a write half at once, so the step of a write task is that of its whole frame, or of the
beginning that a write that failed has left; and that of a reader takes a whole frame, as its own
settings cut it. What is on the way may be lost when the connection fails. -/

namespace Inator

/-- A stream of the server, at the connection that accepted it. -/
structure ServerEnd where
  connectionName : String
  stream : Stream
  deriving DecidableEq, Repr

/-- A stream of a client, at the connection that it was installed in. -/
structure ClientEnd where
  client : Nat
  connectionName : String
  stream : Stream
  deriving DecidableEq, Repr

/-- Two ends at most are wired. -/
abbrev Wiring := PEquiv ServerEnd ClientEnd

/-- What a stream carries in one direction: bytes, or the messages of a web socket. -/
structure Transit where
  bytes : List UInt8
  messages : List (List UInt8)
  deriving DecidableEq, Repr

namespace Transit

def nothing : Transit := ⟨[], []⟩

/-- A write task writes its buffer; a write that fails has put so many bytes of it on the stream. -/
def write (side : NetworkSide) (kind : StreamKind) (framing : StreamFraming) (buf : List UInt8)
    (failed : Option Nat) (transit : Transit) : Transit :=
  match framing, failed with
  | some (bytes, order), none => { transit with
      bytes := transit.bytes ++ WriteType.write (frameIo side kind) bytes order buf }
  | some (bytes, order), some count => { transit with
      bytes := transit.bytes ++ (WriteType.write (frameIo side kind) bytes order buf).take count }
  | none, none => { transit with messages := transit.messages ++ [buf] }
  | none, some _ => transit

/-- A reader takes the first message, if it is there. -/
def read (framing : StreamFraming) (transit : Transit) : Option (List UInt8 × Transit) :=
  match framing with
  | some (bytes, order) =>
    (Framing.takeFrame (frameHeader bytes order) transit.bytes).map fun (body, rest) =>
      (body, { transit with bytes := rest })
  | none =>
    match transit.messages with
    | [] => none
    | message :: rest => some (message, { transit with messages := rest })

end Transit

/-- What is on the way to each end, or from it. -/
abbrev Links := ClientEnd → Transit

/-- Take a message that is at the front, if one is taken. -/
def Links.take (links : Links) : Option (ClientEnd × StreamFraming × List UInt8) → Option Links
  | none => some links
  | some (link, framing, bytes) =>
    match (links link).read framing with
    | none => none
    | some (bytes', transit) =>
      if bytes' = bytes then some (Function.update links link transit) else none

/-- The messages that were written so far, at each end. -/
abbrev Written (ends : Type) := ends → List (List UInt8)

def Written.push {ends : Type} [DecidableEq ends] (written : Written ends) (source : ends)
    (buf : List UInt8) : Written ends :=
  Function.update written source (written source ++ [buf])

structure Deployment (τ : Type) [DecidableEq τ] [UserMessages τ] [Ciborium τ] where
  server : ServerApp τ
  clients : Nat → ClientApp τ
  /-- What the clients have written and the server has not read. -/
  up : Links
  /-- What the server has written and the clients have not read. -/
  down : Links
  clientWrote : Written ClientEnd
  serverWrote : Written ServerEnd

inductive DeploymentInput (τ : Type) [UserMessages τ]
  | server (input : ServerInput τ)
  | client (i : Nat) (input : ClientInput τ)
  | serverWrite (source : ServerEnd) (framing : StreamFraming) (buf : List UInt8)
      (failed : Option Nat)
  | clientWrite (source : ClientEnd) (framing : StreamFraming) (buf : List UInt8)
      (failed : Option Nat)
  | lose (link : ClientEnd)

inductive DeploymentOutput (τ : Type) [UserMessages τ]
  | server (output : ServerOutput τ)
  | client (dispatched : List (WorldMessage τ))
  | quiet

/-- The message that a reader of the server takes from a wired end. -/
def ServerInput.takes {τ : Type} [UserMessages τ] (wiring : Wiring) :
    ServerInput τ → Option (ClientEnd × StreamFraming × List UInt8)
  | .task connectionName (.read stream framing _ _) (.messageReceived bytes _) =>
    (wiring ⟨connectionName, stream⟩).map (·, framing, bytes)
  | _ => none

/-- The message that a reader of a client takes from a wired end. -/
def ClientInput.takes {τ : Type} [UserMessages τ] (wiring : Wiring) (i : Nat) :
    ClientInput τ → Option (ClientEnd × StreamFraming × List UInt8)
  | .task connectionName (.read stream framing) (.messageReceived bytes) =>
    if (wiring.symm ⟨i, connectionName, stream⟩).isSome then
      some (⟨i, connectionName, stream⟩, framing, bytes)
    else none
  | _ => none

/-- The buffer of a task that writes to the stream. -/
def Task.buffer (stream : Stream) : Task → Option (List UInt8)
  | .write stream' _ buf => if stream' = stream then some buf else none
  | _ => none

/-- The buffer of a task that writes to the stream. -/
def ClientTask.buffer (stream : Stream) : ClientTask → Option (List UInt8)
  | .write stream' _ buf => if stream' = stream then some buf else none
  | _ => none

variable {τ : Type} [DecidableEq τ] [UserMessages τ] [Ciborium τ]

/-- The buffers of the write tasks of an end. -/
def ServerApp.buffers (app : ServerApp τ) (source : ServerEnd) : List (List UInt8) :=
  ((app.connections.lookup source.connectionName).map fun connection =>
    connection.spawned.filterMap (·.buffer source.stream)).getD []

/-- The buffers of the write tasks of an end. -/
def ClientApp.buffers (app : ClientApp τ) (source : ClientEnd) : List (List UInt8) :=
  ((app.connections.lookup source.connectionName).map fun connection =>
    connection.spawned.filterMap (·.buffer source.stream)).getD []

/-- An end has a task that writes the buffer. -/
def ServerApp.Writes (app : ServerApp τ) (source : ServerEnd) (framing : StreamFraming)
    (buf : List UInt8) : Prop :=
  ∃ connection ∈ app.connections.lookup source.connectionName,
    .write source.stream framing buf ∈ connection.spawned

instance (app : ServerApp τ) (source : ServerEnd) (framing : StreamFraming) (buf : List UInt8) :
    Decidable (app.Writes source framing buf) := inferInstanceAs (Decidable (∃ _ ∈ _, _))

/-- An end has a task that writes the buffer. -/
def ClientApp.Writes (app : ClientApp τ) (source : ClientEnd) (framing : StreamFraming)
    (buf : List UInt8) : Prop :=
  ∃ connection ∈ app.connections.lookup source.connectionName,
    .write source.stream framing buf ∈ connection.spawned

instance (app : ClientApp τ) (source : ClientEnd) (framing : StreamFraming) (buf : List UInt8) :
    Decidable (app.Writes source framing buf) := inferInstanceAs (Decidable (∃ _ ∈ _, _))

namespace Deployment

def new : Deployment τ where
  server := .new
  clients _ := .new
  up _ := .nothing
  down _ := .nothing
  clientWrote _ := []
  serverWrote _ := []

/-- The steps of a deployment. A write task writes once. -/
def step (wiring : Wiring) (deployment : Deployment τ) :
    DeploymentInput τ → Option (Deployment τ × DeploymentOutput τ)
  | .server input =>
    match deployment.up.take (input.takes wiring) with
    | none => none
    | some up =>
      (deployment.server.step input).map fun (server, output) =>
        ({ deployment with server := server, up := up }, .server output)
  | .client i input =>
    match deployment.down.take (input.takes wiring i) with
    | none => none
    | some down =>
      ((deployment.clients i).step input).map fun (client, dispatched) =>
        ({ deployment with
          clients := Function.update deployment.clients i client
          down := down }, .client dispatched)
  | .serverWrite source framing buf failed =>
    if deployment.server.Writes source framing buf ∧ (deployment.serverWrote source).count buf <
        (deployment.server.buffers source).count buf then
      some ({ deployment with
        serverWrote := deployment.serverWrote.push source buf
        down :=
          match wiring source with
          | none => deployment.down
          | some link => Function.update deployment.down link
              ((deployment.down link).write .server source.stream.kind framing buf failed) },
        .quiet)
    else none
  | .clientWrite source framing buf failed =>
    if (deployment.clients source.client).Writes source framing buf ∧
        (deployment.clientWrote source).count buf <
          ((deployment.clients source.client).buffers source).count buf then
      some ({ deployment with
        clientWrote := deployment.clientWrote.push source buf
        up := Function.update deployment.up source
          ((deployment.up source).write .client source.stream.kind framing buf failed) }, .quiet)
    else none
  | .lose link =>
    some ({ deployment with
      up := Function.update deployment.up link .nothing
      down := Function.update deployment.down link .nothing }, .quiet)

end Deployment

/-- The runs of a deployment. -/
def deploymentMachine (τ : Type) [DecidableEq τ] [UserMessages τ] [Ciborium τ] (wiring : Wiring) :
    Machine (Deployment τ) (DeploymentInput τ) (DeploymentOutput τ) where
  step := Deployment.step wiring

end Inator
