import Inator.Ports.Tcp.Readers
import Inator.Ports.Tcp.Writers
import Mathlib.Logic.Function.Basic

/-! # TCP clients, their server, and the wires between them

Each stream that a `ServerTcp` accepts is the other end of a wire. The writers of a client put
their bytes on it, and the network brings them to the server in pieces of any size, where the
readers take them. A stream with no client of this crate behind it brings any bytes. In the other
direction, the writers of the server put the bytes for one client on a wire, and the one reader
that `start_listening_to_server` spawns takes them there. -/

namespace Inator

/-- The server with its readers, the writers of each stream, and how many bytes of each wire have
come to the server. -/
structure TcpNetwork where
  server : TcpServer
  writers : Nat → TcpWriters
  arrived : Nat → Nat

inductive NetworkInput (τ : Type) [UserMessages τ]
  | server (input : TcpInput)
  | writers (stream : Nat) (input : WriterInput τ)
  | arrive (stream : Nat) (count : Nat)

namespace TcpNetwork

def new (settings : TcpSettingsServer) : TcpNetwork where
  server := .new settings
  writers _ := .new
  arrived _ := 0

/-- The bytes on the wire of a stream. -/
def wire (network : TcpNetwork) (stream : Nat) : List UInt8 :=
  (network.writers stream).wire.map Prod.snd

/-- The next bytes that come to the server. -/
def next (network : TcpNetwork) (stream count : Nat) : List UInt8 :=
  ((network.wire stream).drop (network.arrived stream)).take count

/-- Bytes at a stream that has a client are the ones that the client has put on its wire. -/
def forges (senders : Nat → Option TcpSender) : TcpInput → Bool
  | .send stream _ => (senders stream).isSome
  | _ => false

variable {τ : Type} [UserMessages τ] [Ciborium τ]

/-- The client of a stream is given by `senders`, with the port that the stream is installed in. -/
def step (senders : Nat → Option TcpSender) (runtime : Option Runtime) (network : TcpNetwork) :
    NetworkInput τ → Option (TcpNetwork × TcpOutput)
  | .server input =>
    if forges senders input then none
    else (network.server.step input).map fun (server, output) =>
      ({ network with server := server }, output)
  | .writers stream input =>
    match senders stream with
    | none => none
    | some sender =>
      (TcpWriters.step sender runtime (network.writers stream) input).map fun (writers, _) =>
        ({ network with writers := Function.update network.writers stream writers },
          TcpServer.quiet)
  | .arrive stream count =>
    if (senders stream).isSome then
      (network.server.step (.send stream (network.next stream count))).map fun (server, output) =>
        ({ network with
            server := server
            arrived := Function.update network.arrived stream
              (network.arrived stream + (network.next stream count).length) }, output)
    else none

end TcpNetwork

/-- The runs of a server and the clients that are connected to it. -/
def networkMachine (τ : Type) [UserMessages τ] [Ciborium τ] (senders : Nat → Option TcpSender)
    (runtime : Option Runtime) : Machine TcpNetwork (NetworkInput τ) TcpOutput where
  step := TcpNetwork.step senders runtime

/-! ## From the server to a client -/

/-- Where the reader of a client is. -/
inductive ClientReaderPhase
  | locking
  | reading (state : Framing.State UInt8)
  | returned
  deriving DecidableEq

/-- `ReadType::read` of `ports/tcp/client.rs`, with the stream that it reads: the bytes it has
taken, those that have arrived since, and whether no more will come. -/
structure ClientReader where
  bytes : BytesOptions
  order : OrderOptions
  consumed : List UInt8
  pending : List UInt8
  closed : Bool
  phase : ClientReaderPhase
  deriving DecidableEq

namespace ClientReader

def new (bytes : BytesOptions) (order : OrderOptions) : ClientReader :=
  ⟨bytes, order, [], [], false, .locking⟩

/-- A byte is there to be read. -/
def take (reader : ClientReader) (state : Framing.State UInt8) (b : UInt8) (rest : List UInt8) :
    ClientReader × List ClientEvent :=
  let taken := { reader with consumed := reader.consumed ++ [b], pending := rest }
  match Framing.feed (frameHeader reader.bytes reader.order) state b with
  | (_, some body) => ({ taken with phase := .reading .start }, [.messageReceived body])
  -- `vec![0u8; size]` panics
  | (.refused, none) => ({ taken with phase := .returned }, [])
  | (state', none) => ({ taken with phase := .reading state' }, [])

/-- A step of the reader, if it need not wait, with what it sends. Nobody else has the lock of
its read half. -/
def run (reader : ClientReader) : Option (ClientReader × List ClientEvent) :=
  match reader.phase with
  | .locking => some ({ reader with phase := .reading .start }, [])
  | .reading state =>
    match reader.pending with
    | b :: rest => some (reader.take state b rest)
    | [] =>
      if reader.closed then some ({ reader with phase := .returned }, [.connectionDown]) else none
  | .returned => none

end ClientReader

/-- The writers of one client's stream at the server, how many bytes of their wire have come to
the client, and its reader. -/
structure TcpDownlink where
  writers : TcpWriters
  arrived : Nat
  reader : ClientReader

inductive DownlinkInput (τ : Type) [UserMessages τ]
  | writers (input : WriterInput τ)
  | arrive (count : Nat)
  | close
  | fail
  | reader

namespace TcpDownlink

def new (bytes : BytesOptions) (order : OrderOptions) : TcpDownlink :=
  ⟨.new, 0, .new bytes order⟩

/-- The next bytes that come to the client. -/
def next (link : TcpDownlink) (count : Nat) : List UInt8 :=
  ((link.writers.wire.map Prod.snd).drop link.arrived).take count

variable {τ : Type} [UserMessages τ] [Ciborium τ]

def step (sender : TcpSender) (runtime : Option Runtime) (link : TcpDownlink) :
    DownlinkInput τ → Option (TcpDownlink × List ClientEvent)
  | .writers input =>
    (TcpWriters.step sender runtime link.writers input).map fun (writers, _) =>
      ({ link with writers := writers }, [])
  | .arrive count =>
    if link.reader.closed then none
    else some ({ link with
        arrived := link.arrived + (link.next count).length
        reader := { link.reader with
          pending := link.reader.pending ++ link.next count } }, [])
  | .close =>
    if link.reader.closed then none
    else some ({ link with reader := { link.reader with closed := true } }, [])
  -- what has arrived is lost with a failed stream
  | .fail =>
    if link.reader.closed then none
    else some ({ link with reader := { link.reader with closed := true, pending := [] } }, [])
  | .reader => link.reader.run.map fun (reader, events) => ({ link with reader := reader }, events)

end TcpDownlink

/-- The runs of the wire from a server to one of its clients. -/
def downlinkMachine (τ : Type) [UserMessages τ] [Ciborium τ] (sender : TcpSender)
    (runtime : Option Runtime) : Machine TcpDownlink (DownlinkInput τ) (List ClientEvent) where
  step := TcpDownlink.step sender runtime

end Inator
