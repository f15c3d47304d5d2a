import Inator.Lib.Machine
import Inator.Ports.Client
import Inator.Ports.Server

/-! # The writers of a TCP stream

Each call of `WriteType::write` spawns a task of its own, and all the tasks of a stream share one
lock, which a task has from before its header until after its payload. A step of a task is its
way to the lock, or to the next byte. A byte on the wire is labelled with the call it belongs
to. -/

namespace Inator
open Ieee

/-- Where a writer is. -/
inductive WriterPhase
  | locking
  | header (rest : List UInt8)
  | payload (rest : List UInt8)
  | returned
  deriving DecidableEq

/-- A task of `WriteType::write`. -/
structure Writer where
  side : NetworkSide
  kind : StreamKind
  bytes : BytesOptions
  order : OrderOptions
  buf : List UInt8
  phase : WriterPhase

namespace Writer

/-- What `write_from_settings` puts on the stream. -/
def header (writer : Writer) : List UInt8 :=
  let io := frameIo writer.side writer.kind
  io.writeFromSettings (io.valueFromNumber (Binary.ofNat writer.buf.length) writer.bytes)
    writer.order

/-- All that the task puts on the stream. -/
def frame (writer : Writer) : List UInt8 :=
  WriteType.write (frameIo writer.side writer.kind) writer.bytes writer.order writer.buf

/-- The writer that a task of a server is, if it is one. -/
def spawn : Task → Option Writer
  | .write stream (some (bytes, order)) buf =>
    some ⟨.server, stream.kind, bytes, order, buf, .locking⟩
  | _ => none

/-- The writer that a task of a client is, if it is one. -/
def spawnClient : ClientTask → Option Writer
  | .write stream (some (bytes, order)) buf =>
    some ⟨.client, stream.kind, bytes, order, buf, .locking⟩
  | _ => none

end Writer

/-- A port and the peer it is connected to: a `ClientTcp`, or a `ServerTcp` and one of its
clients. -/
inductive TcpSender
  | client (port : ClientPort)
  | server (port : ServerPort) (target : Uuid)

namespace TcpSender

/-- The stream of the peer, and how its messages are framed. -/
def writeHalf : TcpSender → Option (Stream × StreamFraming)
  | .client port => port.writeHalf.map fun stream => (stream, port.settings.framing)
  | .server port target => (port.listeningClients.lookup target).map fun infos =>
      (infos.readWriteType, port.settings.framing)

/-- A call of `WriteType::write` on the stream of the peer. -/
def write (sender : TcpSender) (buf : List UInt8) : List Writer :=
  match sender, sender.writeHalf with
  | .client _, some (stream, some (bytes, order)) =>
    [⟨.client, stream.kind, bytes, order, buf, .locking⟩]
  | .server _ _, some (stream, some (bytes, order)) =>
    [⟨.server, stream.kind, bytes, order, buf, .locking⟩]
  | _, _ => []

variable {τ : Type} [UserMessages τ] [Ciborium τ] {t : MessageType τ}

/-- A call of `send_message` to the peer. -/
def sendMessage (sender : TcpSender) (message : t.Message) (runtime : Option Runtime) :
    List Writer :=
  match sender with
  | .client port => (ClientTcp.sendMessage port message runtime).2.filterMap Writer.spawnClient
  | .server port target =>
    (ServerTcp.sendMessage port message target runtime).filterMap Writer.spawn

/-- **`send_message` writes the message once**, if there is a runtime and the message encodes. -/
theorem sendMessage_eq (sender : TcpSender) (message : t.Message) (runtime : Option Runtime) :
    sender.sendMessage message runtime =
      match runtime, Ciborium.intoWriter message with
      | some _, .ok buf => sender.write buf
      | _, _ => [] := by
  cases runtime with
  | none => cases sender <;> rfl
  | some runtime =>
    cases hbuf : Ciborium.intoWriter message with
    | error e => cases sender <;> simp only [sendMessage, ClientTcp.sendMessage,
        ServerTcp.sendMessage, hbuf, List.filterMap_nil]
    | ok buf =>
      cases sender with
      | client port =>
        simp only [sendMessage, ClientTcp.sendMessage, hbuf, write, writeHalf]
        cases port.writeHalf with
        | none => rfl
        | some stream => cases port.settings.framing <;> rfl
      | server port target =>
        simp only [sendMessage, ServerTcp.sendMessage, hbuf, write, writeHalf]
        cases port.listeningClients.lookup target with
        | none => rfl
        | some infos => cases port.settings.framing <;> rfl

end TcpSender

/-- The writers of a stream, in the order of the calls, the one that has the lock, and the bytes
on the wire. -/
structure TcpWriters where
  writers : List Writer
  holder : Option Nat
  wire : List (Nat × UInt8)

/-- What the main thread and the tasks do. -/
inductive WriterInput (τ : Type) [UserMessages τ]
  | sendMessage (t : MessageType τ) (message : t.Message)
  | write (buf : List UInt8)
  | writer (i : Nat)
  /-- A write of task `i` fails. -/
  | fail (i : Nat)

namespace TcpWriters

def new : TcpWriters := ⟨[], none, []⟩

/-- Task `i` is in a new phase. -/
def move (s : TcpWriters) (i : Nat) (writer : Writer) (phase : WriterPhase) : List Writer :=
  s.writers.set i { writer with phase := phase }

/-- A step of task `i`, if it need not wait. -/
def writerStep (s : TcpWriters) (i : Nat) : Option TcpWriters :=
  match s.writers[i]? with
  | none => none
  | some writer =>
    match writer.phase with
    | .locking =>
      match s.holder with
      | some _ => none
      | none =>
        some { s with writers := s.move i writer (.header writer.header), holder := some i }
    | .header [] => some { s with writers := s.move i writer (.payload writer.buf) }
    | .header (b :: rest) =>
      some { s with writers := s.move i writer (.header rest), wire := s.wire ++ [(i, b)] }
    -- the guard is dropped at the end of the task
    | .payload [] => some { s with writers := s.move i writer .returned, holder := none }
    | .payload (b :: rest) =>
      some { s with writers := s.move i writer (.payload rest), wire := s.wire ++ [(i, b)] }
    | .returned => none

/-- A write of task `i` fails: the task returns, and drops the guard. -/
def failStep (s : TcpWriters) (i : Nat) : Option TcpWriters :=
  match s.writers[i]? with
  | none => none
  | some writer =>
    match writer.phase with
    | .header _ | .payload _ =>
      some { s with writers := s.move i writer .returned, holder := none }
    | .locking | .returned => none

variable {τ : Type} [UserMessages τ] [Ciborium τ]

def step (sender : TcpSender) (runtime : Option Runtime) (s : TcpWriters) :
    WriterInput τ → Option (TcpWriters × Unit)
  | .sendMessage _ message =>
    some ({ s with writers := s.writers ++ sender.sendMessage message runtime }, ())
  | .write buf => some ({ s with writers := s.writers ++ sender.write buf }, ())
  | .writer i => (s.writerStep i).map (·, ())
  | .fail i => (s.failStep i).map (·, ())

end TcpWriters

/-- The runs of the writers of a stream. -/
def writerMachine (τ : Type) [UserMessages τ] [Ciborium τ] (sender : TcpSender)
    (runtime : Option Runtime) : Machine TcpWriters (WriterInput τ) Unit where
  step := TcpWriters.step sender runtime

end Inator
