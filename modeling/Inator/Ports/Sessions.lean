import Inator.Lib.Machine
import Inator.Ports.Client

/-! # A client port and its tasks, attempt by attempt

A client port whose methods are called in any order, with the tasks that it has spawned. Neither
the streams in `connected_to_server` nor the notifications in `connection_down` say which call of
`connect` they come from; here that number stands beside each of them, and beside each task. -/

namespace Inator

/-- A port, the number of attempts so far, its running tasks each with its attempt, and the
attempts that the streams and notifications in its channels and its halves come from. -/
structure SessionPort where
  port : ClientPort
  attempt : Nat
  running : List (ClientTask × Nat)
  streams : List Nat
  notifications : List Nat
  installed : Nat
  deriving DecidableEq

inductive SessionInput
  | connect (runtime : Option Runtime)
  | checkConnectedToServer
  | startListeningToServer (runtime : Option Runtime)
  | checkPortDropped
  | task (task : ClientTask) (attempt : Nat) (event : ClientEvent)
  deriving DecidableEq

namespace SessionPort

/-- `ClientSettingsTrait::create_client_port`. -/
def new (settings : ClientSettings) : SessionPort where
  port := .new settings
  attempt := 0
  running := []
  streams := []
  notifications := []
  installed := 0

/-- A spawned connect task begins a new attempt. -/
def connect (s : SessionPort) (runtime : Option Runtime) : SessionPort :=
  let (port, tasks) := s.port.connect runtime
  { s with
    port := port
    attempt := s.attempt + tasks.length
    running := s.running ++ tasks.map (·, s.attempt + tasks.length) }

def checkConnectedToServer (s : SessionPort) : SessionPort :=
  match s.port.checkConnectedToServer with
  | (port, true) =>
    { s with port := port, streams := s.streams.tail, installed := s.streams.headD s.installed }
  | (port, false) => { s with port := port }

/-- A reader belongs to the attempt of the halves that it reads. -/
def startListeningToServer (s : SessionPort) (runtime : Option Runtime) : SessionPort :=
  let (port, tasks) := s.port.startListeningToServer runtime
  { s with port := port, running := s.running ++ tasks.map (·, s.installed) }

/-- `check_port_dropped`, with the attempt that the notification comes from if it took one. -/
def checkPortDropped (s : SessionPort) : SessionPort × Option Nat :=
  match s.port.checkPortDropped with
  | (port, true, _) =>
    ({ s with port := port, notifications := s.notifications.tail }, s.notifications.head?)
  | (port, false, _) => ({ s with port := port }, none)

/-- A task of an attempt does something. -/
def receive (s : SessionPort) (task : ClientTask) (attempt : Nat) (event : ClientEvent) :
    SessionPort :=
  { s with
    port := s.port.receive event
    running :=
      if event.returns s.port.settings task then s.running.erase (task, attempt) else s.running
    streams :=
      match event with
      | .connectedToServer _ => s.streams ++ [attempt]
      | _ => s.streams
    notifications :=
      match event with
      | .connectionDown => s.notifications ++ [attempt]
      | _ => s.notifications }

/-- The output is the attempt of the notification that `check_port_dropped` has taken. -/
def step (s : SessionPort) : SessionInput → Option (SessionPort × Option Nat)
  | .connect runtime => some (s.connect runtime, none)
  | .checkConnectedToServer => some (s.checkConnectedToServer, none)
  | .startListeningToServer runtime => some (s.startListeningToServer runtime, none)
  | .checkPortDropped => some s.checkPortDropped
  | .task task attempt event =>
    if (task, attempt) ∈ s.running ∧ event.By s.port.settings task then
      some (s.receive task attempt event, none)
    else none

/-- The steps, one by one. -/
inductive Steps (s : SessionPort) : SessionInput → SessionPort → Option Nat → Prop
  | connect (runtime : Option Runtime) : Steps s (.connect runtime) (s.connect runtime) none
  | checkConnectedToServer : Steps s .checkConnectedToServer s.checkConnectedToServer none
  | startListeningToServer (runtime : Option Runtime) :
    Steps s (.startListeningToServer runtime) (s.startListeningToServer runtime) none
  | checkPortDropped : Steps s .checkPortDropped s.checkPortDropped.1 s.checkPortDropped.2
  | task {task : ClientTask} {attempt : Nat} {event : ClientEvent}
    (runs : (task, attempt) ∈ s.running) (does : event.By s.port.settings task) :
    Steps s (.task task attempt event) (s.receive task attempt event) none

theorem step_steps {s s' : SessionPort} {input : SessionInput} {output : Option Nat}
    (h : s.step input = some (s', output)) : s.Steps input s' output := by
  cases input with
  | connect runtime =>
    cases Option.some.inj h
    exact .connect runtime
  | checkConnectedToServer =>
    cases Option.some.inj h
    exact .checkConnectedToServer
  | startListeningToServer runtime =>
    cases Option.some.inj h
    exact .startListeningToServer runtime
  | checkPortDropped =>
    obtain ⟨rfl, rfl⟩ := Prod.mk.inj (Option.some.inj h)
    exact .checkPortDropped
  | task task attempt event =>
    rw [step] at h
    split at h
    · rename_i hdoes
      cases Option.some.inj h
      exact .task hdoes.1 hdoes.2
    · cases h

end SessionPort

def sessionMachine : Machine SessionPort SessionInput (Option Nat) where
  step := SessionPort.step

abbrev SessionTransition := Machine.Transition SessionPort SessionInput (Option Nat)

end Inator
