import Inator.Lib.Machine
import Inator.Ports.Server

/-! # The readers of a `ServerTcp`

A port, the streams it has accepted, and the tasks that `ReadType::read` has spawned on them,
where a step of a task is its way to the next byte or to the next lock. A reader keeps the lock
of its read half until it returns; one that was started before authentication also takes the
lock of the `client_authenticated` channel in each turn of its loop. A task is not cancelled,
and a stream that has ended, or failed, stays so. A run is one of a process that goes on: an
allocation that fails ends it, and no step of any task comes after. -/

namespace Inator

/-- The receiving end of a stream: the bytes its readers have taken, those that have arrived
since, whether no more will come, and the task that has the lock of the read half. -/
structure Peer where
  consumed : List UInt8
  arrived : List UInt8
  closed : Bool
  holder : Option Nat
  deriving DecidableEq

/-- Where a reader is in its loop. -/
inductive ReaderPhase
  | locking
  | lockingChannel
  | draining
  | reading (state : Framing.State UInt8)
  | returned
  deriving DecidableEq

/-- A task of `ReadType::read`. -/
structure Reader where
  stream : Stream
  bytes : BytesOptions
  order : OrderOptions
  target : Uuid
  isAuthenticated : Bool
  phase : ReaderPhase
  deriving DecidableEq

/-- What a step of a reader leaves: its phase, the stream, the port, the task that has the lock
of the channel, and the messages it has sent. -/
structure ReaderStep where
  phase : ReaderPhase
  peer : Peer
  port : ServerPort
  channelHolder : Option Nat
  pushed : List (List UInt8 × Uuid)
  deriving DecidableEq

namespace Reader

/-- The reader that a task is, if it is one. -/
def spawn : Task → Option Reader
  | .read stream (some (bytes, order)) target isAuthenticated =>
    some ⟨stream, bytes, order, target, isAuthenticated, .locking⟩
  | _ => none

/-- The beginning of a turn of the loop. -/
def loopStart (reader : Reader) : ReaderPhase :=
  if reader.isAuthenticated then .reading .start else .lockingChannel

/-- A byte is there to be read. -/
def take (reader : Reader) (state : Framing.State UInt8) (b : UInt8) (rest : List UInt8)
    (peer : Peer) (port : ServerPort) (channelHolder : Option Nat) : ReaderStep :=
  let taken := { peer with consumed := peer.consumed ++ [b], arrived := rest }
  match Framing.feed (frameHeader reader.bytes reader.order) state b with
  | (_, some body) =>
    ⟨reader.loopStart, taken, port.receive (.messageReceived body reader.target), channelHolder,
      [(body, reader.target)]⟩
  -- `vec![0u8; size]` panics, and unwinding drops the guard
  | (.refused, none) => ⟨.returned, { taken with holder := none }, port, channelHolder, []⟩
  | (state', none) => ⟨.reading state', taken, port, channelHolder, []⟩

/-- A step of the reader that is task `i`, if it need not wait. -/
def run (i : Nat) (reader : Reader) (peer : Peer) (port : ServerPort)
    (channelHolder : Option Nat) : Option ReaderStep :=
  match reader.phase with
  | .locking =>
    match peer.holder with
    | some _ => none
    | none => some ⟨reader.loopStart, { peer with holder := some i }, port, channelHolder, []⟩
  | .lockingChannel =>
    match channelHolder with
    | some _ => none
    | none => some ⟨.draining, peer, port, some i, []⟩
  | .draining =>
    match port.clientAuthenticated with
    | [] => some ⟨.reading .start, peer, port, none, []⟩
    | uuid :: _ =>
      let popped := port.receive .popClientAuthenticated
      if uuid = reader.target then some ⟨.returned, { peer with holder := none }, popped, none, []⟩
      else some ⟨.draining, peer, popped, channelHolder, []⟩
  | .reading state =>
    match peer.arrived with
    | b :: rest => some (reader.take state b rest peer port channelHolder)
    | [] =>
      if peer.closed then
        some ⟨.returned, { peer with holder := none },
          port.receive (.clientDisconnected reader.target reader.isAuthenticated),
          channelHolder, []⟩
      else none
  | .returned => none

/-- The steps of a reader, one by one. -/
inductive Moves (i : Nat) (reader : Reader) (peer : Peer) (port : ServerPort)
    (channelHolder : Option Nat) : ReaderStep → Prop
  | locked (phase : reader.phase = .locking) (free : peer.holder = none) :
      Moves i reader peer port channelHolder
        ⟨reader.loopStart, { peer with holder := some i }, port, channelHolder, []⟩
  | lockedChannel (phase : reader.phase = .lockingChannel) (free : channelHolder = none) :
      Moves i reader peer port channelHolder ⟨.draining, peer, port, some i, []⟩
  | drained (phase : reader.phase = .draining) (empty : port.clientAuthenticated = []) :
      Moves i reader peer port channelHolder ⟨.reading .start, peer, port, none, []⟩
  | popped {uuid : Uuid} {rest : List Uuid} (phase : reader.phase = .draining)
      (queue : port.clientAuthenticated = uuid :: rest) (other : uuid ≠ reader.target) :
      Moves i reader peer port channelHolder
        ⟨.draining, peer, port.receive .popClientAuthenticated, channelHolder, []⟩
  | handedOver {rest : List Uuid} (phase : reader.phase = .draining)
      (queue : port.clientAuthenticated = reader.target :: rest) :
      Moves i reader peer port channelHolder ⟨.returned, { peer with holder := none },
        port.receive .popClientAuthenticated, none, []⟩
  | took {state state' : Framing.State UInt8} {b : UInt8} {rest : List UInt8}
      (phase : reader.phase = .reading state) (arrived : peer.arrived = b :: rest)
      (fed : Framing.feed (frameHeader reader.bytes reader.order) state b = (state', none)) :
      Moves i reader peer port channelHolder ⟨.reading state',
        { peer with consumed := peer.consumed ++ [b], arrived := rest }, port, channelHolder, []⟩
  | panicked {state : Framing.State UInt8} {b : UInt8} {rest : List UInt8}
      (phase : reader.phase = .reading state) (arrived : peer.arrived = b :: rest)
      (fed : Framing.feed (frameHeader reader.bytes reader.order) state b = (.refused, none)) :
      Moves i reader peer port channelHolder ⟨.returned,
        { peer with consumed := peer.consumed ++ [b], arrived := rest, holder := none }, port,
        channelHolder, []⟩
  | finished {state state' : Framing.State UInt8} {b : UInt8} {rest body : List UInt8}
      (phase : reader.phase = .reading state) (arrived : peer.arrived = b :: rest)
      (fed : Framing.feed (frameHeader reader.bytes reader.order) state b = (state', some body)) :
      Moves i reader peer port channelHolder ⟨reader.loopStart,
        { peer with consumed := peer.consumed ++ [b], arrived := rest },
        port.receive (.messageReceived body reader.target), channelHolder,
        [(body, reader.target)]⟩
  | disconnected {state : Framing.State UInt8} (phase : reader.phase = .reading state)
      (arrived : peer.arrived = []) (closed : peer.closed = true) :
      Moves i reader peer port channelHolder ⟨.returned, { peer with holder := none },
        port.receive (.clientDisconnected reader.target reader.isAuthenticated), channelHolder, []⟩

variable {i : Nat} {reader : Reader} {peer : Peer} {port : ServerPort}
  {channelHolder : Option Nat} {after : ReaderStep}

theorem run_moves (h : reader.run i peer port channelHolder = some after) :
    Moves i reader peer port channelHolder after := by
  unfold run at h
  split at h
  · rename_i hphase
    split at h
    · cases h
    · rename_i hfree
      cases h
      exact .locked hphase hfree
  · rename_i hphase
    split at h
    · cases h
    · cases h
      exact .lockedChannel hphase rfl
  · rename_i hphase
    split at h
    · rename_i hempty
      cases h
      exact .drained hphase hempty
    · rename_i uuid rest hqueue
      dsimp only at h
      split at h
      · rename_i htarget
        cases h
        exact .handedOver hphase (htarget ▸ hqueue)
      · rename_i hother
        cases h
        exact .popped hphase hqueue hother
  · rename_i state hphase
    split at h
    · rename_i b rest harrived
      cases h
      unfold take
      dsimp only
      split
      · rename_i hfed
        exact .finished hphase harrived hfed
      · rename_i hfed
        exact .panicked hphase harrived hfed
      · rename_i hfed
        exact .took hphase harrived hfed
    · rename_i harrived
      split at h
      · rename_i hclosed
        cases h
        exact .disconnected hphase harrived hclosed
      · cases h
  · cases h

end Reader

/-- A `ServerTcp` and what goes on around it. `issued` are the UUIDs `check_clients_connected` has
given out, with their streams; a stream is known by its place in `peers`. -/
structure TcpServer where
  port : ServerPort
  runtime : Option Runtime
  issued : List (Uuid × Stream)
  peers : List Peer
  readers : List Reader
  channelHolder : Option Nat
  deriving DecidableEq

inductive TcpInput
  | startRuntime
  | portOp (op : PortOp)
  | authenticateClient (uuid : Uuid)
  | connect (kind : StreamKind)
  | send (stream : Nat) (bytes : List UInt8)
  | close (stream : Nat)
  | fail (stream : Nat)
  | reader (i : Nat)
  deriving DecidableEq

/-- The messages a step pushes to `message_received`, and the UUIDs that
`check_clients_diconnected` returns. -/
structure TcpOutput where
  pushed : List (List UInt8 × Uuid)
  returned : List Uuid
  deriving DecidableEq

namespace TcpServer

def new (settings : TcpSettingsServer) : TcpServer where
  port := .new (.tcp settings)
  runtime := none
  issued := []
  peers := []
  readers := []
  channelHolder := none

/-- The port after an operation, with the readers the operation has spawned. -/
def operated (server : TcpServer) (result : ServerPort × List Task) : TcpServer :=
  { server with
    port := result.1
    readers := server.readers ++ result.2.filterMap Reader.spawn }

def quiet : TcpOutput := ⟨[], []⟩

/-- The client that an operation gives out. -/
def admits (server : TcpServer) : PortOp → Option (Uuid × Stream)
  | .checkClientsConnected newUuid => server.port.clientConnected.head?.map (newUuid, ·)
  | _ => none

/-- The UUIDs that an operation reports as disconnected. -/
def returns (server : TcpServer) : PortOp → List Uuid
  | .checkClientsDiconnected => server.port.checkClientsDiconnected.2
  | _ => []

/-- A call of an operation. `Uuid::new_v4` gives a new UUID. -/
def portOp (server : TcpServer) (op : PortOp) : Option (TcpServer × TcpOutput) :=
  if ∃ client ∈ server.admits op, client.1 ∈ server.issued.map Prod.fst then none
  else
    some ({ server.operated (op.run server.port server.runtime) with
        issued := (server.admits op).toList ++ server.issued }, ⟨[], server.returns op⟩)

/-- A client connects, and its stream waits to be taken up. -/
def accept (server : TcpServer) (kind : StreamKind) : TcpServer :=
  { server with
    port := server.port.receive (.clientConnected ⟨server.peers.length, kind⟩)
    peers := server.peers ++ [⟨[], [], false, none⟩] }

/-- The other end of an open stream does something. -/
def modifyPeer (server : TcpServer) (stream : Nat) (f : Peer → Peer) :
    Option (TcpServer × TcpOutput) :=
  match server.peers[stream]? with
  | none => none
  | some peer =>
    if peer.closed then none
    else some ({ server with peers := server.peers.set stream (f peer) }, quiet)

/-- What task `i` leaves when it has taken a step on its stream. -/
def stepped (server : TcpServer) (i : Nat) (reader : Reader) (moved : ReaderStep) : TcpServer :=
  { server with
    port := moved.port
    peers := server.peers.set reader.stream.id moved.peer
    readers := server.readers.set i { reader with phase := moved.phase }
    channelHolder := moved.channelHolder }

/-- A step of task `i`. -/
def readerStep (server : TcpServer) (i : Nat) : Option (TcpServer × TcpOutput) :=
  match server.readers[i]? with
  | none => none
  | some reader =>
    match server.peers[reader.stream.id]? with
    | none => none
    | some peer =>
      (reader.run i peer server.port server.channelHolder).map fun moved =>
        (server.stepped i reader moved, ⟨moved.pushed, []⟩)

def step (server : TcpServer) : TcpInput → Option (TcpServer × TcpOutput)
  | .startRuntime => some ({ server with runtime := some .new }, quiet)
  | .portOp op => if op.internal then none else server.portOp op
  | .authenticateClient uuid =>
    some (server.operated (server.port.authenticateClient uuid server.runtime), quiet)
  | .connect kind => some (server.accept kind, quiet)
  | .send stream bytes =>
    server.modifyPeer stream fun peer => { peer with arrived := peer.arrived ++ bytes }
  | .close stream => server.modifyPeer stream fun peer => { peer with closed := true }
  -- what has arrived is lost with a failed stream
  | .fail stream => server.modifyPeer stream fun peer => { peer with closed := true, arrived := [] }
  | .reader i => server.readerStep i

end TcpServer

/-- The runs of a `ServerTcp` with its readers. -/
def tcpMachine : Machine TcpServer TcpInput TcpOutput where
  step := TcpServer.step

end Inator
