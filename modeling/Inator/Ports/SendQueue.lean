import Inator.Lib.Panic
import Inator.Ports.Sessions

/-! # The send queue of a `WasmClient`

`send_message` puts the encoded message in a queue, and if there is a sink and no task is sending
it spawns one, which captures that sink and empties the queue. The task is suspended only while it
waits for `sink.send`; the port, whose methods are called in any order, may get another sink
meanwhile. The sinks are numbered by connection, from 1, and beside each queued buffer stands the
connection whose sink was there when it was accepted (0 when there was none). -/

namespace Inator

/-- The `RefCell`s that the port and its send task share. -/
inductive SharedCell
  | sendingMessages
  | messageQueueReceiver
  | sink (connection : Nat)
  deriving DecidableEq, Repr

/-- A task that `send_message` has spawned: the sink it has captured, and whether it is suspended
in `sink.send`, where it holds the borrow of that sink, or has not run yet. -/
structure SendTask where
  sink : Nat
  sending : Bool
  deriving DecidableEq, Repr

/-- A call of `sink.send`. -/
structure HandedOver where
  buf : List UInt8
  accepted : Nat
  sink : Nat
  deriving DecidableEq, Repr

/-- The port with its tasks, the number of sinks so far, the send tasks, and the cells that are
borrowed while all tasks are suspended. `acceptedUnder` goes with the message queue; `accepted`
and `handedOver` log every buffer that `send_message` has queued and every call of `sink.send`. -/
structure QueuePort where
  session : SessionPort
  connections : Nat
  sendTasks : List SendTask
  borrowed : List SharedCell
  acceptedUnder : List Nat
  accepted : List (List UInt8)
  handedOver : List HandedOver
  deriving DecidableEq

inductive QueueInput (τ : Type) [UserMessages τ]
  | session (input : SessionInput)
  | sendMessage (t : MessageType τ) (message : t.Message)
  /-- Send task `i` runs until it is suspended or has returned; `ok` is the result of the
  `sink.send` it was suspended in. -/
  | sendTask (i : Nat) (ok : Bool)

namespace QueuePort

def new (settings : WasmSettingsClient) : QueuePort where
  session := .new (.wasm settings)
  connections := 0
  sendTasks := []
  borrowed := []
  acceptedUnder := []
  accepted := []
  handedOver := []

def port (s : QueuePort) : ClientPort := s.session.port

def setPort (s : QueuePort) (port : ClientPort) : QueuePort :=
  { s with session := { s.session with port := port } }

/-- A borrow that ends with its statement. -/
def borrow (s : QueuePort) (cell : SharedCell) : Panicking Unit :=
  if cell ∈ s.borrowed then .error "RefCell already borrowed" else .ok ()

/-- `check_connected_to_server` and `check_port_dropped` replace the sink; the other methods and
the tasks of the session leave it. -/
def onSession (s : QueuePort) (input : SessionInput) : Option QueuePort :=
  (s.session.step input).map fun r => { s with
    session := r.1
    connections :=
      match input with
      | .checkConnectedToServer =>
        if s.port.checkConnectedToServer.2 then s.connections + 1 else s.connections
      | _ => s.connections }

/-- `WasmClient::send_message`. -/
def sendMessage {τ : Type} [UserMessages τ] [Ciborium τ] {t : MessageType τ} (s : QueuePort)
    (message : t.Message) : Panicking QueuePort :=
  match Ciborium.intoWriter message with
  | .error _ => .ok s
  | .ok buf =>
    let queued := { s.setPort { s.port with messageQueue := s.port.messageQueue ++ [buf] } with
      acceptedUnder := s.acceptedUnder ++ [if s.port.writeHalf.isSome then s.connections else 0]
      accepted := s.accepted ++ [buf] }
    match queued.port.writeHalf with
    | none => .ok queued
    | some _ => do
      queued.borrow .sendingMessages
      if queued.port.sendingMessages then return queued
      queued.borrow .sendingMessages
      return { queued.setPort { queued.port with sendingMessages := true } with
        sendTasks := queued.sendTasks ++ [⟨s.connections, false⟩] }

/-- The end of the send task: the loop is left, and the flag is cleared. -/
def finish (s : QueuePort) (i : Nat) : Panicking QueuePort := do
  s.borrow .sendingMessages
  return { s.setPort { s.port with sendingMessages := false } with
    sendTasks := s.sendTasks.eraseIdx i }

/-- The send task takes the next buffer and hands it to its sink, or leaves the loop. -/
def turn (s : QueuePort) (i sink : Nat) : Panicking QueuePort := do
  s.borrow .messageQueueReceiver
  match s.port.messageQueue with
  | [] => s.finish i
  | buf :: rest => do
    s.borrow (.sink sink)
    return { s.setPort { s.port with messageQueue := rest } with
      sendTasks := s.sendTasks.set i ⟨sink, true⟩
      borrowed := .sink sink :: s.borrowed
      acceptedUnder := s.acceptedUnder.tail
      handedOver := s.handedOver ++ [⟨buf, s.acceptedUnder.headD 0, sink⟩] }

/-- A send task goes on; one that was suspended gives its sink back first. -/
def resume (s : QueuePort) (i : Nat) (task : SendTask) (ok : Bool) : Panicking QueuePort :=
  if task.sending then
    let released := { s with borrowed := s.borrowed.erase (.sink task.sink) }
    if ok then released.turn i task.sink else released.finish i
  else s.turn i task.sink

/-- The output says whether the step has panicked. -/
def step {τ : Type} [UserMessages τ] [Ciborium τ] (s : QueuePort) :
    QueueInput τ → Option (QueuePort × Panicking Unit)
  | .session input => (s.onSession input).map (·, .ok ())
  | .sendMessage _ message =>
    match s.sendMessage message with
    | .ok s' => some (s', .ok ())
    | .error text => some (s, .error text)
  | .sendTask i ok =>
    match s.sendTasks[i]? with
    | none => none
    | some task =>
      match s.resume i task ok with
      | .ok s' => some (s', .ok ())
      | .error text => some (s, .error text)

end QueuePort

def queueMachine (τ : Type) [UserMessages τ] [Ciborium τ] :
    Machine QueuePort (QueueInput τ) (Panicking Unit) where
  step := QueuePort.step

abbrev QueueTransition (τ : Type) [UserMessages τ] :=
  Machine.Transition QueuePort (QueueInput τ) (Panicking Unit)

end Inator
