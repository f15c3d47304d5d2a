import Inator.Lib.Machine
import Inator.Ports.Server

/-! # A server port and its accept tasks

Either server port, the streams its accept tasks have passed on, and the tasks it has spawned. A
step of an accept task is its way to the next connection, to a permit of its semaphore, or to the
end of a handshake. The other tasks of the port are known by what they send to it: nothing is
assumed of when, or how often, they send it. -/

namespace Inator

/-- Where an accept task is in its loop. -/
inductive AcceptPhase
  | accepting
  | acquiring
  | handshaking
  | ended
  deriving DecidableEq

/-- A task of `start_accepting_connections`. -/
structure Acceptor where
  tls : Bool
  recuseWhenFull : Bool
  semaphore : Option Semaphore
  phase : AcceptPhase
  deriving DecidableEq

namespace Acceptor

/-- The accept task that a task is, if it is one and does not panic before its loop. -/
def spawn : Task → Option Acceptor
  | .accept _ maxConnections recuseWhenFull tls =>
    match Semaphore.ofMaxConnections maxConnections with
    | .error _ => none
    | .ok semaphore => some ⟨tls, recuseWhenFull, semaphore, .accepting⟩
  | _ => none

/-- The task has a permit. It drops it, and goes on to the handshake. -/
def permitted (acceptor : Acceptor) (permit : Semaphore) : Acceptor :=
  { acceptor with semaphore := some permit.release, phase := .handshaking }

/-- `accept` of the listener returns a stream. -/
def accepted (acceptor : Acceptor) : Acceptor :=
  match acceptor.semaphore with
  | none => { acceptor with phase := .handshaking }
  | some semaphore =>
    if acceptor.recuseWhenFull then
      match semaphore.tryAcquire with
      | some permit => acceptor.permitted permit
      -- the connection is rejected, and the loop goes on
      | none => acceptor
    else { acceptor with phase := .acquiring }

/-- `acquire` of the semaphore returns, if it need not wait. -/
def acquired (acceptor : Acceptor) : Option Acceptor :=
  match acceptor.semaphore with
  | none => none
  | some semaphore => semaphore.tryAcquire.map acceptor.permitted

/-- The kind of the streams that the task passes on. -/
def kind (acceptor : Acceptor) : StreamKind := if acceptor.tls then .tlsStream else .stream

end Acceptor

/-- What a task sends to its port, if it is no accept task. -/
def TaskEvent.fromOthers : TaskEvent → Bool
  | .clientConnected _ | .connectionDown => false
  | _ => true

/-- A handshake can fail only if there is one. -/
def ServerSettings.handshakes : ServerSettings → Bool
  | .tcp settings => settings.tls
  | .webSocket _ => true

/-- A port with its tasks. `issued` are the UUIDs `check_clients_connected` has given out, with
their streams; a stream is known by its place among those that were passed on. -/
structure AcceptingPort where
  port : ServerPort
  runtime : Option Runtime
  issued : List (Uuid × Stream)
  spawned : List Task
  acceptors : List Acceptor
  streams : Nat
  deriving DecidableEq

inductive AcceptingInput
  | startRuntime
  | portOp (op : PortOp)
  | authenticateClient (uuid : Uuid)
  | accepted (i : Nat)
  | acquired (i : Nat)
  | handshake (i : Nat) (ok : Bool)
  /-- `accept` of the listener of task `i` returns an error. -/
  | failed (i : Nat)
  | event (event : TaskEvent)
  deriving DecidableEq

namespace AcceptingPort

def new (settings : ServerSettings) : AcceptingPort where
  port := .new settings
  runtime := none
  issued := []
  spawned := []
  acceptors := []
  streams := 0

/-- The port after an operation, with the tasks the operation has spawned. -/
def operated (s : AcceptingPort) (result : ServerPort × List Task) : AcceptingPort :=
  { s with
    port := result.1
    spawned := s.spawned ++ result.2
    acceptors := s.acceptors ++ result.2.filterMap Acceptor.spawn }

/-- A call of an operation. `Uuid::new_v4` gives a new UUID. -/
def portOp (s : AcceptingPort) (op : PortOp) : Option AcceptingPort :=
  if ∃ client ∈ s.port.admits op, client.1 ∈ s.issued.map Prod.fst then none
  else
    some { s.operated (op.run s.port s.runtime) with
      issued := (s.port.admits op).toList ++ s.issued }

/-- A step of accept task `i` from the given phase. -/
def acceptorStep (s : AcceptingPort) (i : Nat) (phase : AcceptPhase)
    (f : Acceptor → Option Acceptor) : Option AcceptingPort :=
  match s.acceptors[i]? with
  | none => none
  | some acceptor =>
    if acceptor.phase = phase then
      (f acceptor).map fun acceptor' => { s with acceptors := s.acceptors.set i acceptor' }
    else none

/-- Accept task `i` passes its stream on. -/
def pass (s : AcceptingPort) (i : Nat) (acceptor : Acceptor) : AcceptingPort :=
  { s with
    port := s.port.receive (.clientConnected ⟨s.streams, acceptor.kind⟩)
    streams := s.streams + 1
    acceptors := s.acceptors.set i { acceptor with phase := .accepting } }

/-- The handshake of accept task `i` is over. -/
def handshake (s : AcceptingPort) (i : Nat) (ok : Bool) : Option AcceptingPort :=
  if ok then
    match s.acceptors[i]? with
    | none => none
    | some acceptor =>
      if acceptor.phase = .handshaking then some (s.pass i acceptor) else none
  else if s.port.settings.handshakes then
    s.acceptorStep i .handshaking fun acceptor => some { acceptor with phase := .accepting }
  else none

def step (s : AcceptingPort) : AcceptingInput → Option (AcceptingPort × Unit)
  | .startRuntime => some ({ s with runtime := some .new }, ())
  | .portOp op => if op.internal then none else (s.portOp op).map (·, ())
  | .authenticateClient uuid => some (s.operated (s.port.authenticateClient uuid s.runtime), ())
  | .accepted i =>
    (s.acceptorStep i .accepting fun acceptor => some acceptor.accepted).map (·, ())
  | .acquired i => (s.acceptorStep i .acquiring Acceptor.acquired).map (·, ())
  | .handshake i ok => (s.handshake i ok).map (·, ())
  -- the loop ends
  | .failed i =>
    (s.acceptorStep i .accepting fun acceptor => some { acceptor with phase := .ended }).map
      fun s => ({ s with port := s.port.receive .connectionDown }, ())
  | .event event =>
    if event.fromOthers then some ({ s with port := s.port.receive event }, ()) else none

end AcceptingPort

/-- The runs of a server port. -/
def portMachine : Machine AcceptingPort AcceptingInput Unit where
  step := AcceptingPort.step

end Inator
