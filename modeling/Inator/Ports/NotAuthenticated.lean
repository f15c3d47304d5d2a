import Inator.Lib.Machine
import Inator.Ports.Listeners

/-! # The listener of a client that is not authenticated

The task that `ServerWebSocket::start_listening_not_authenticated_client` spawns, one poll after
the other. Its two sources are the stream of its client and the `client_authenticated` channel,
each with what has come and is still there; what comes, and when the runtime polls the task, is
the input. The channel is what the task finds in it: the readers of the other clients take from
the same one, and while one of them has the lock there is no poll of this task that gets it. -/

namespace Inator
open Machine

/-- Where the task waits. -/
inductive ListenerPhase
  /-- In `client_authenticated_receiver.lock()`, at the top of the outer loop. -/
  | locking
  /-- At the top of the inner loop, with the lock. -/
  | receiving
  /-- In `guard.next()`, still with the lock. -/
  | reading
  | returned
  deriving DecidableEq, Repr

structure NotAuthenticatedListener where
  phase : ListenerPhase
  stream : List WebSocketItem
  /-- The stream gives `None` after that. -/
  ended : Bool
  clientAuthenticated : List Uuid
  /-- The port has been dropped, and the sender of the channel with it. -/
  senderDropped : Bool
  deriving DecidableEq, Repr

inductive ListenerInput
  | arrives (item : WebSocketItem)
  | ends
  | sends (uuid : Uuid)
  | dropsSender
  /-- The runtime polls the task, which goes on to the next of its places. -/
  | polls
  deriving DecidableEq, Repr

namespace NotAuthenticatedListener

/-- The task has the lock of its stream. -/
def spawned : NotAuthenticatedListener where
  phase := .locking
  stream := []
  ended := false
  clientAuthenticated := []
  senderDropped := false

/-- From one of the places where the task waits to the next one. The receivers of what it sends are
dropped with the port: a `send` that comes after that panics, which is the end of the task, where
here it goes on and nobody receives it. -/
def poll (target : Uuid) (s : NotAuthenticatedListener) :
    NotAuthenticatedListener × List TaskEvent :=
  match s.phase with
  | .locking => ({ s with phase := .receiving }, [])
  | .receiving =>
    match s.clientAuthenticated with
    | uuid :: rest =>
      -- another client's UUID leads to `next()` as well: only `Empty` leaves the inner loop
      ({ s with
          phase := if uuid = target then .returned else .reading
          clientAuthenticated := rest },
        [.popClientAuthenticated])
    | [] => ({ s with phase := if s.senderDropped then .returned else .locking }, [])
  | .reading =>
    match s.stream with
    | item :: rest =>
      ({ s with phase := .receiving, stream := rest },
        match item with
        | .binary bytes => [.messageReceived bytes target]
        | .error => [.clientDisconnected target false]
        | .other => [])
    | [] => ({ s with phase := if s.ended then .receiving else .reading }, [])
  | .returned => (s, [])

def step (target : Uuid) (s : NotAuthenticatedListener) :
    ListenerInput → Option (NotAuthenticatedListener × List TaskEvent)
  | .arrives item => if s.ended then none else some ({ s with stream := s.stream ++ [item] }, [])
  | .ends => some ({ s with ended := true }, [])
  | .sends uuid =>
    if s.senderDropped then none
    else some ({ s with clientAuthenticated := s.clientAuthenticated ++ [uuid] }, [])
  | .dropsSender => some ({ s with senderDropped := true }, [])
  | .polls => some (s.poll target)

end NotAuthenticatedListener

def listenerMachine (target : Uuid) :
    Machine NotAuthenticatedListener ListenerInput (List TaskEvent) where
  step := NotAuthenticatedListener.step target

end Inator
