import Mathlib.Data.List.Count
import Inator.Verify.Authentication

/-! # The life of a listener

The flags, the channels and the tasks of a server port move together: at any time one of them
holds the listener, or what will become of it. `Stage` is that one thing by itself, and a
connection is at a stage if all its fields are as the stage says. One task holds nothing: that of
`start_accepting_connections` when the semaphore of its permits panics. -/

namespace Inator

/-- What is happening to the listener of a connection. -/
inductive Stage
  | idle
  | binding
  | bound
  | installed
  | accepting
  | down
  deriving DecidableEq

/-- Every stage leads to one other. -/
def Stage.next : Stage → Stage
  | .idle => .binding
  | .binding => .bound
  | .bound => .installed
  | .installed => .accepting
  | .accepting => .down
  | .down => .idle

namespace Task

/-- The task binds a listener. -/
def binds : Task → Bool
  | .bind => true
  | _ => false

/-- The task accepts connections. -/
def accepts : Task → Bool
  | .accept .. => true
  | _ => false

end Task

/-- The fields that are about the listener: the flags of the connection and of its port, whether a
listener is installed, and how many listeners, notifications, bind and accept tasks there are. -/
@[ext] structure ListenerView where
  started : Bool
  connecting : Bool
  connected : Bool
  acceptingConnections : Bool
  installed : Bool
  listeners : Nat
  notifications : Nat
  binds : Nat
  accepts : Nat
  deriving DecidableEq

def Stage.view : Stage → ListenerView
  | .idle => ⟨false, false, false, false, false, 0, 0, 0, 0⟩
  | .binding => ⟨true, true, false, false, false, 0, 0, 1, 0⟩
  | .bound => ⟨true, true, false, false, false, 1, 0, 0, 0⟩
  | .installed => ⟨true, true, true, false, true, 0, 0, 0, 0⟩
  | .accepting => ⟨true, true, true, true, true, 0, 0, 0, 1⟩
  | .down => ⟨true, true, true, true, true, 0, 1, 0, 0⟩

def ServerPort.view (port : ServerPort) (started : Bool) (running : List Task) : ListenerView where
  started := started
  connecting := port.connecting
  connected := port.connected
  acceptingConnections := port.acceptingConnections
  installed := port.tcpListener.isSome
  listeners := port.portConnected.length
  notifications := port.connectionDown.length
  binds := running.countP Task.binds
  accepts := running.countP Task.accepts

/-- By what a stage is told. -/
def ListenerView.Shows (view : ListenerView) : Stage → Prop
  | .idle => view.started = false
  | .binding => 0 < view.binds
  | .bound => 0 < view.listeners
  | .installed => view.connected = true ∧ view.acceptingConnections = false
  | .accepting => 0 < view.accepts
  | .down => 0 < view.notifications

instance (view : ListenerView) : (stage : Stage) → Decidable (view.Shows stage)
  | .idle => inferInstanceAs (Decidable (view.started = false))
  | .binding => inferInstanceAs (Decidable (0 < view.binds))
  | .bound => inferInstanceAs (Decidable (0 < view.listeners))
  | .installed =>
    inferInstanceAs (Decidable (view.connected = true ∧ view.acceptingConnections = false))
  | .accepting => inferInstanceAs (Decidable (0 < view.accepts))
  | .down => inferInstanceAs (Decidable (0 < view.notifications))

/-- **A stage shows itself, and no other.** -/
theorem Stage.view_shows {stage stage' : Stage} : stage.view.Shows stage' ↔ stage' = stage := by
  cases stage <;> cases stage' <;> decide

/-- The connection has a main port, and its fields are as the stage says. -/
def ServerConnection.At (connection : ServerConnection) (stage : Stage) : Prop :=
  ∃ port, connection.mainPort = some port ∧
    port.view connection.connected connection.running = stage.view

/-- The connection is at the stage, or at the next one. -/
def ServerConnection.AtOrNext (connection : ServerConnection) (stage : Stage) : Prop :=
  connection.At stage ∨ connection.At stage.next

/-! ## One operation of a port -/

namespace ServerPort
variable {port : ServerPort} {started : Bool} {running : List Task} {stage : Stage}

theorem stage_of_shows {stage' : Stage} (h : port.view started running = stage.view)
    (hshows : (port.view started running).Shows stage') : stage' = stage :=
  Stage.view_shows.mp (h ▸ hshows)

/-- Tasks that neither bind nor accept are not seen. -/
theorem view_append {tasks : List Task}
    (h : ∀ task ∈ tasks, task.binds = false ∧ task.accepts = false) :
    port.view started (running ++ tasks) = port.view started running := by
  have hbinds : tasks.countP Task.binds = 0 := by
    apply List.countP_eq_zero.mpr
    intro task htask
    rw [(h task htask).1]
    exact Bool.false_ne_true
  have haccepts : tasks.countP Task.accepts = 0 := by
    apply List.countP_eq_zero.mpr
    intro task htask
    rw [(h task htask).2]
    exact Bool.false_ne_true
  rw [view, List.countP_append, List.countP_append, hbinds, haccepts]
  rfl

/-- The end of a task that neither binds nor accepts is not seen. -/
theorem view_erase {task : Task} (hbinds : task.binds = false) (haccepts : task.accepts = false) :
    port.view started (running.erase task) = port.view started running := by
  have hcount : ∀ p : Task → Bool, p task = false →
      (running.erase task).countP p = running.countP p := by
    intro p hp
    rw [List.countP_erase, if_neg fun h => Bool.false_ne_true (hp.symm.trans h.2), Nat.sub_zero]
  rw [view, hcount _ hbinds, hcount _ haccepts]
  rfl

/-- The bind task has a listener. -/
theorem receive_portConnected (h : port.view started running = stage.view) (hruns : .bind ∈ running)
    (tcpListener : TcpListener) :
    (port.receive (.portConnected tcpListener)).view started (running.erase .bind) =
      stage.next.view := by
  have hpos : 0 < running.countP Task.binds := List.countP_pos_iff.mpr ⟨.bind, hruns, rfl⟩
  obtain rfl : .binding = stage := stage_of_shows h hpos
  simp only [view, Stage.view, ListenerView.mk.injEq] at h
  obtain ⟨hstarted, hconnecting, hconnected, haccepting, hinstalled, hlisteners, hdown, hone,
    haccepts⟩ := h
  refine ListenerView.ext hstarted hconnecting hconnected haccepting hinstalled ?_ hdown ?_ ?_
  · simp only [view, receive, List.length_append, hlisteners]
    rfl
  · simp only [view, List.countP_erase, hone, hruns]
    rfl
  · simp only [view, List.countP_erase, haccepts]
    exact Nat.zero_sub _

/-- The accept task has lost its listener. -/
theorem receive_connectionDown (h : port.view started running = stage.view) {task : Task}
    (hruns : task ∈ running) (htask : task.accepts = true) :
    (port.receive .connectionDown).view started (running.erase task) = stage.next.view := by
  have hpos : 0 < running.countP Task.accepts := List.countP_pos_iff.mpr ⟨task, hruns, htask⟩
  obtain rfl : .accepting = stage := stage_of_shows h hpos
  simp only [view, Stage.view, ListenerView.mk.injEq] at h
  obtain ⟨hstarted, hconnecting, hconnected, haccepting, hinstalled, hlisteners, hdown, hbinds,
    hone⟩ := h
  refine ListenerView.ext hstarted hconnecting hconnected haccepting hinstalled hlisteners ?_ ?_ ?_
  · simp only [view, receive, List.length_append, hdown]
    rfl
  · simp only [view, List.countP_erase, hbinds]
    exact Nat.zero_sub _
  · simp only [view, List.countP_erase, hone, hruns, htask, and_self, if_true]
    rfl

/-- `connect` of a port that does nothing yet spawns a bind task. -/
theorem connect_idle (h : port.view started running = Stage.idle.view) (runtime : Runtime) :
    (port.connect (some runtime)).1.view true
      (running ++ (port.connect (some runtime)).2.filter (!·.panics)) = Stage.binding.view := by
  simp only [view, Stage.view, ListenerView.mk.injEq] at h
  obtain ⟨-, hconnecting, hconnected, haccepting, hinstalled, hlisteners, hdown, hbinds,
    haccepts⟩ := h
  simp only [connect, hconnecting, Bool.false_eq_true, if_false, view, List.countP_append, hbinds,
    haccepts]
  exact ListenerView.ext rfl rfl hconnected haccepting hinstalled hlisteners hdown rfl rfl

/-- A listener that was bound is installed. -/
theorem checkPortConnected_view (h : port.view started running = stage.view) :
    port.checkPortConnected.1.view started running = stage.view ∨
      port.checkPortConnected.1.view started running = stage.next.view := by
  rw [checkPortConnected]
  split
  · exact .inl h
  · split
    · exact .inl h
    · rename_i tcpListener rest hqueue
      have hpos : 0 < port.portConnected.length := by
        rw [hqueue]
        exact Nat.succ_pos rest.length
      obtain rfl : .bound = stage := stage_of_shows h hpos
      simp only [view, Stage.view, ListenerView.mk.injEq, hqueue, List.length_cons] at h
      obtain ⟨hstarted, hconnecting, -, haccepting, -, hlisteners, hdown, hbinds, haccepts⟩ := h
      right
      exact ListenerView.ext hstarted hconnecting rfl haccepting rfl (Nat.succ.inj hlisteners)
        hdown hbinds haccepts

/-- If `start_accepting_connections` gets past its guards, there is a semaphore for the accept
task. -/
def Affords (port : ServerPort) (runtime : Option Runtime) : Prop :=
  runtime.isSome → port.connected = true → port.acceptingConnections = false →
    port.settings.listener.maxConnections ≤ Semaphore.maxPermits

/-- An installed listener gets an accept task. -/
theorem startAcceptingConnections_view (h : port.view started running = stage.view)
    (haffords : port.Affords runtime) :
    (port.startAcceptingConnections runtime).1.view started
        (running ++ (port.startAcceptingConnections runtime).2.filter (!·.panics)) =
          stage.view ∨
      (port.startAcceptingConnections runtime).1.view started
        (running ++ (port.startAcceptingConnections runtime).2.filter (!·.panics)) =
          stage.next.view := by
  unfold startAcceptingConnections
  split
  · rw [List.filter_nil, List.append_nil]
    exact .inl h
  · split
    · rw [List.filter_nil, List.append_nil]
      exact .inl h
    · rename_i hflags
      simp only [Bool.or_eq_true, Bool.not_eq_true', not_or, Bool.not_eq_true,
        Bool.not_eq_false] at hflags
      obtain rfl : .installed = stage := stage_of_shows h ⟨hflags.2, hflags.1⟩
      simp only [view, Stage.view, ListenerView.mk.injEq] at h
      obtain ⟨hstarted, hconnecting, hup, -, hinstalled, hlisteners, hdown, hbinds, haccepts⟩ := h
      split
      · rename_i hnone
        rw [hnone] at hinstalled
        cases hinstalled
      · right
        have hruns := decide_eq_false (Nat.not_lt.mpr (haffords rfl hflags.2 hflags.1))
        simp only [Task.panics_accept, hruns, Bool.not_false, List.filter_cons_of_pos,
          List.filter_nil, view, List.countP_append, hbinds, haccepts]
        exact ListenerView.ext hstarted hconnecting hup rfl hinstalled hlisteners hdown rfl rfl

/-- A port whose listener has gone does nothing any more. -/
theorem checkPortDropped_down (h : port.view started running = Stage.down.view) :
    port.checkPortDropped.2.1 = true ∧
      port.checkPortDropped.1.view false running = Stage.idle.view := by
  simp only [view, Stage.view, ListenerView.mk.injEq] at h
  obtain ⟨-, -, -, -, -, hlisteners, hdown, hbinds, haccepts⟩ := h
  obtain ⟨notification, hnotification⟩ := List.length_eq_one_iff.mp hdown
  simp only [checkPortDropped, hnotification, true_and]
  exact ListenerView.ext rfl rfl rfl rfl rfl hlisteners rfl hbinds haccepts

/-- A port is dropped only if its listener has gone. -/
theorem checkPortDropped_view (h : port.view started running = stage.view) :
    stage = .down ∨ port.checkPortDropped.2.1 = false ∧ port.checkPortDropped.1 = port := by
  rw [checkPortDropped]
  split
  · exact .inr ⟨rfl, rfl⟩
  · rename_i rest hdown
    have hpos : 0 < port.connectionDown.length := by
      rw [hdown]
      exact Nat.succ_pos rest.length
    have hstage : .down = stage := stage_of_shows h hpos
    exact .inl hstage.symm

end ServerPort

/-! ## What leaves the listener alone -/

/-- The operations that are about the listener. -/
def PortOp.ofListener : PortOp → Bool
  | .connect | .checkPortDropped | .checkPortConnected | .startAcceptingConnections => true
  | _ => false

theorem PortOp.run_view {op : PortOp} (hop : op.ofListener = false) (port : ServerPort)
    (runtime : Option Runtime) (started : Bool) (running : List Task) :
    (op.run port runtime).1.view started
        (running ++ (op.run port runtime).2.filter (!·.panics)) = port.view started running := by
  have hquiet : ∀ task ∈ (op.run port runtime).2, task.binds = false ∧ task.accepts = false := by
    intro task htask
    cases op with
    | connect | checkPortDropped | checkPortConnected | startAcceptingConnections => cases hop
    | asMainPort | checkMessagesReceived | checkClientsDiconnected => cases htask
    | checkClientsConnected newUuid => cases htask
    | checkNotAuthenticatedClients =>
      obtain ⟨key, -, hread⟩ := List.mem_flatMap.mp htask
      obtain ⟨infos, -, rfl⟩ := ServerPort.startListeningNotAuthenticatedClient_reads hread
      exact ⟨rfl, rfl⟩
    | startListeningNotAuthenticatedClient target =>
      obtain ⟨infos, -, rfl⟩ := ServerPort.startListeningNotAuthenticatedClient_reads htask
      exact ⟨rfl, rfl⟩
    | startListeningAuthenticatedClient target =>
      obtain ⟨infos, -, rfl⟩ := ServerPort.startListeningAuthenticatedClient_reads htask
      exact ⟨rfl, rfl⟩
  rw [ServerPort.view_append fun task htask => hquiet task (List.mem_of_mem_filter htask)]
  cases op with
  | connect | checkPortDropped | checkPortConnected | startAcceptingConnections => cases hop
  | checkClientsDiconnected =>
    simp only [run, ServerPort.checkClientsDiconnected]
    split
    · rfl
    · split <;> rfl
  | checkClientsConnected newUuid =>
    simp only [run, ServerPort.checkClientsConnected]
    split <;> rfl
  | _ => rfl

theorem ServerPort.authenticateClient_view (port : ServerPort) (uuid : Uuid)
    (runtime : Option Runtime) (started : Bool) (running : List Task) :
    (port.authenticateClient uuid runtime).1.view started
        (running ++ (port.authenticateClient uuid runtime).2.filter (!·.panics)) =
      port.view started running := by
  cases hinfos : port.notAuthenticatedListening.lookup uuid with
  | none => rw [authenticateClient_none hinfos, List.filter_nil, List.append_nil]
  | some infos =>
    rw [authenticateClient_some hinfos]
    apply view_append
    intro task htask
    replace htask := List.mem_of_mem_filter htask
    split at htask
    · cases htask
    · cases List.mem_singleton.mp htask
      exact ⟨rfl, rfl⟩

namespace ServerConnection
variable {before after connection : ServerConnection} {stage : Stage}

/-- The connection keeps its name and its stage. -/
def Keeps (before after : ServerConnection) : Prop :=
  after.connectionName = before.connectionName ∧ ∀ stage, before.At stage → after.At stage

theorem Keeps.refl (connection : ServerConnection) : connection.Keeps connection :=
  ⟨rfl, fun _ => id⟩

theorem Keeps.trans {third : ServerConnection} (h : before.Keeps after) (h' : after.Keeps third) :
    before.Keeps third :=
  ⟨h'.1.trans h.1, fun stage hat => h'.2 stage (h.2 stage hat)⟩

theorem keeps_onMainPort {op : ServerPort → Option Runtime → ServerPort × List Task}
    (hop : ∀ port runtime started running,
      (op port runtime).1.view started (running ++ (op port runtime).2.filter (!·.panics)) =
        port.view started running) : connection.Keeps (connection.onMainPort op) := by
  rw [onMainPort]
  split
  · exact .refl connection
  · rename_i port hport
    refine ⟨rfl, ?_⟩
    rintro stage ⟨port', hport', hview⟩
    cases hport.symm.trans hport'
    exact ⟨_, rfl, (hop port _ _ _).trans hview⟩

theorem keeps_portOp {op : PortOp} (hop : op.ofListener = false) :
    connection.Keeps (connection.onMainPort fun port runtime => op.run port runtime) :=
  keeps_onMainPort fun port runtime started running =>
    PortOp.run_view hop port runtime started running

theorem keeps_drained (connection : ServerConnection) : connection.Keeps connection.drained := by
  refine ⟨rfl, ?_⟩
  rintro stage ⟨port, hport, hview⟩
  refine ⟨port.checkMessagesReceived.1, ?_, hview⟩
  rw [drained, hport]
  rfl

theorem keeps_authenticateClient (connection : ServerConnection) (uuid : Uuid)
    (portNumber : Nat) : connection.Keeps (connection.authenticateClient uuid portNumber) := by
  rw [authenticateClient]
  split
  · exact .refl connection
  · have hentered : connection.Keeps { connection with
        clientsConnected := connection.clientsConnected.insert uuid [0] } := ⟨rfl, fun _ => id⟩
    dsimp only
    split
    · apply hentered.trans
      apply keeps_onMainPort
      intro port runtime started running
      exact port.authenticateClient_view uuid runtime started running
    · exact hentered

theorem keeps_sent {τ : Type} [UserMessages τ] [Ciborium τ] {t : MessageType τ}
    (message : t.Message) (target : Uuid) :
    connection.Keeps (connection.onMainPort fun port runtime =>
      (port, port.sendMessage message target runtime)) := by
  apply keeps_onMainPort
  intro port runtime started running
  apply ServerPort.view_append
  intro task htask
  obtain ⟨infos, buf, -, -, -, rfl⟩ :=
    ServerPort.mem_sendMessage.mp (List.mem_of_mem_filter htask)
  exact ⟨rfl, rfl⟩

theorem keeps_settled {τ : Type} [DecidableEq τ] [UserMessages τ] [Ciborium τ] (name : String)
    (connection : ServerConnection) (calls : List (AuthenticateCall τ)) :
    connection.Keeps (calls.foldl (settleCall name) connection) := by
  apply List.foldlRecOn _ _ (Keeps.refl connection)
  intro settled hsettled call _
  apply hsettled.trans
  unfold settleCall
  split
  · split
    · exact .refl settled
    · unfold acceptClient
      dsimp only
      split
      · exact (keeps_authenticateClient _ _ _).trans (keeps_sent _ _)
      · exact keeps_authenticateClient _ _ _
  · exact .refl settled

/-! ## What moves it on -/

/-- An operation of the main port that leaves the stage, or leads to the next one. -/
theorem atOrNext_onMainPort {op : ServerPort → Option Runtime → ServerPort × List Task}
    (hat : connection.At stage)
    (hop : ∀ port, connection.mainPort = some port →
      port.view connection.connected connection.running = stage.view →
      (op port connection.runtime).1.view connection.connected
          (connection.running ++ (op port connection.runtime).2.filter (!·.panics)) =
            stage.view ∨
        (op port connection.runtime).1.view connection.connected
          (connection.running ++ (op port connection.runtime).2.filter (!·.panics)) =
            stage.next.view) :
    (connection.onMainPort op).AtOrNext stage := by
  obtain ⟨port, hport, hview⟩ := hat
  simp only [onMainPort, hport]
  apply (hop port hport hview).imp
  · intro hsame
    exact ⟨_, rfl, hsame⟩
  · intro hnext
    exact ⟨_, rfl, hnext⟩

/-- A connection that is not started is started, with a bind task. -/
theorem At.startConnection (hat : connection.At .idle) :
    connection.startConnection.At .binding := by
  obtain ⟨port, hport, hview⟩ := hat
  simp only [ServerConnection.startConnection, onMainPort, hport]
  exact ⟨_, rfl, ServerPort.connect_idle hview _⟩

theorem checkDropped_down (hat : connection.At .down) : connection.checkDropped.At .idle := by
  obtain ⟨port, hport, hview⟩ := hat
  obtain ⟨hdropped, hidle⟩ := ServerPort.checkPortDropped_down hview
  simp only [checkDropped, hport, hdropped, if_true]
  exact ⟨_, rfl, hidle⟩

theorem checkDropped_eq (hat : connection.At stage) (hdown : stage ≠ .down) :
    connection.checkDropped = connection := by
  obtain ⟨port, hport, hview⟩ := hat
  obtain ⟨hdropped, hsame⟩ := (ServerPort.checkPortDropped_view hview).resolve_left hdown
  rw [checkDropped]
  rw [hport]
  simp only [hdropped, hsame, Bool.false_eq_true, if_false]
  rw [← hport]

theorem connectionName_onMainPort
    (op : ServerPort → Option Runtime → ServerPort × List Task) :
    (connection.onMainPort op).connectionName = connection.connectionName := by
  rw [onMainPort]
  split <;> rfl

theorem connectionName_turn (connection : ServerConnection) (system : FirstSystem) :
    (system.turn connection).connectionName = connection.connectionName := by
  cases system with
  | checkMainPortDropped =>
    simp only [FirstSystem.turn, checkDropped]
    split <;> rfl
  | startConnections =>
    simp only [FirstSystem.turn]
    split
    · exact connectionName_onMainPort _
    · rfl
  | _ => exact connectionName_onMainPort _

/-- The turn of the system does not spawn an accept task that panics. -/
def Affords (connection : ServerConnection) (system : FirstSystem) : Prop :=
  system = .startAcceptingConnectionsMainPort →
    ∀ port, connection.mainPort = some port → port.Affords connection.runtime

/-- **The turn of a system** leaves the stage, or leads to the next one. -/
theorem At.turn_stage (hat : connection.At stage) {system : FirstSystem}
    (haffords : connection.Affords system) : (system.turn connection).AtOrNext stage := by
  have hkept : connection.Keeps (system.turn connection) →
      (system.turn connection).AtOrNext stage := fun hkeeps => .inl (hkeeps.2 stage hat)
  cases system with
  | checkMainPortDropped =>
    by_cases hdown : stage = .down
    · subst hdown
      exact .inr (checkDropped_down hat)
    · rw [FirstSystem.turn, checkDropped_eq hat hdown]
      exact .inl hat
  | startConnections =>
    simp only [FirstSystem.turn]
    cases hstarted : connection.connected with
    | true => exact .inl hat
    | false =>
      obtain ⟨port, hport, hview⟩ := hat
      obtain rfl : .idle = stage := ServerPort.stage_of_shows hview hstarted
      exact .inr (At.startConnection ⟨port, hport, hview⟩)
  | receiveMainPortListener =>
    apply atOrNext_onMainPort hat
    intro port _ hview
    rw [List.filter_nil, List.append_nil]
    exact ServerPort.checkPortConnected_view hview
  | startAcceptingConnectionsMainPort =>
    apply atOrNext_onMainPort hat
    intro port hport hview
    exact ServerPort.startAcceptingConnections_view hview (haffords rfl port hport)
  | checkClientDisconnectedFromPort | checkClientConnectedToPort =>
    have hkeeps : connection.Keeps (connection.onMainPort fun port runtime =>
        PortOp.checkClientsDiconnected.run port runtime) := keeps_portOp rfl
    exact hkept hkeeps
  | startListeningNotAuthenticated =>
    have hkeeps : connection.Keeps (connection.onMainPort fun port runtime =>
        PortOp.checkNotAuthenticatedClients.run port runtime) := keeps_portOp rfl
    exact hkept hkeeps

/-- **What a task does** leaves the stage, or leads to the next one. -/
theorem At.receive_stage (hat : connection.At stage) {task : Task} {event : TaskEvent}
    (hruns : task ∈ connection.running) (hdoes : event.By task) :
    (connection.receive task event).AtOrNext stage := by
  obtain ⟨port, hport, hview⟩ := hat
  simp only [receive, hport]
  cases event with
  | portConnected tcpListener =>
    cases task with
    | bind => exact .inr ⟨_, rfl, ServerPort.receive_portConnected hview hruns tcpListener⟩
    | _ => cases hdoes
  | connectionDown =>
    cases task with
    | accept => exact .inr ⟨_, rfl, ServerPort.receive_connectionDown hview hruns rfl⟩
    | _ => cases hdoes
  | clientConnected stream | messageReceived bytes target => exact .inl ⟨_, rfl, hview⟩
  | clientDisconnected target isAuthenticated | popClientAuthenticated =>
    left
    cases task with
    | read =>
      refine ⟨_, rfl, ?_⟩
      split
      · rw [ServerPort.view_erase rfl rfl]
        exact hview
      · exact hview
    | _ => cases hdoes

/-! ## The life of a listener -/

/-- What is to be seen of a stage in a connection. -/
def Shows (connection : ServerConnection) (port : ServerPort) : Stage → Prop
  | .idle => port.connecting = false
  | .binding => .bind ∈ connection.running
  | .bound => port.portConnected ≠ []
  | .installed => port.connected = true ∧ port.acceptingConnections = false
  | .accepting => ∃ task ∈ connection.running, task.accepts = true
  | .down => port.connectionDown ≠ []

/-- The flags, the channels and the tasks of a connection agree on what its listener does. -/
structure Lives (connection : ServerConnection) (port : ServerPort) : Prop where
  started : connection.connected = port.connecting
  one : port.connecting = true → ∃! stage, stage ≠ .idle ∧ connection.Shows port stage
  none : port.connecting = false → ∀ stage, stage ≠ .idle → ¬connection.Shows port stage
  listener : port.tcpListener.isSome ↔ port.connected = true
  accepting : port.acceptingConnections = true → port.connected = true
  binds : connection.running.countP Task.binds ≤ 1
  accepts : connection.running.countP Task.accepts ≤ 1

variable {port : ServerPort}

theorem shows_iff (hview : port.view connection.connected connection.running = stage.view)
    (hstarted : connection.connected = port.connecting) {stage' : Stage} :
    connection.Shows port stage' ↔ stage' = stage := by
  rw [← Stage.view_shows, ← hview]
  cases stage' with
  | idle =>
    rw [Shows, ← hstarted]
    exact Iff.rfl
  | binding =>
    have hbinds : ListenerView.Shows (port.view connection.connected connection.running) .binding ↔
        ∃ task ∈ connection.running, task.binds = true := List.countP_pos_iff
    rw [hbinds]
    constructor
    · intro hbind
      exact ⟨.bind, hbind, rfl⟩
    · rintro ⟨task, htask, hbind⟩
      cases task with
      | bind => exact htask
      | _ => cases hbind
  | bound => exact List.length_pos_iff.symm
  | installed => exact Iff.rfl
  | accepting => exact List.countP_pos_iff.symm
  | down => exact List.length_pos_iff.symm

/-- **What holds at a stage.** -/
theorem At.lives (hat : connection.At stage) :
    ∃ port, connection.mainPort = some port ∧ connection.Lives port := by
  obtain ⟨port, hport, hview⟩ := hat
  have hconnecting : port.connecting = stage.view.connecting :=
    congrArg ListenerView.connecting hview
  have hconnected : port.connected = stage.view.connected := congrArg ListenerView.connected hview
  have hstarted : connection.connected = port.connecting := by
    have hflag : connection.connected = stage.view.started := congrArg ListenerView.started hview
    rw [hflag, hconnecting]
    cases stage <;> rfl
  have hshows : ∀ {stage'}, connection.Shows port stage' ↔ stage' = stage :=
    shows_iff hview hstarted
  refine ⟨port, hport, hstarted, ?_, ?_, ?_, ?_, ?_, ?_⟩
  · intro hup
    refine ⟨stage, ⟨?_, hshows.mpr rfl⟩, fun stage' hstage' => hshows.mp hstage'.2⟩
    rintro rfl
    cases hup.symm.trans hconnecting
  · intro hidle stage' hne hstage'
    have hstage : Stage.idle = stage := hshows.mp hidle
    exact hne ((hshows.mp hstage').trans hstage.symm)
  · have hinstalled : port.tcpListener.isSome = stage.view.installed :=
      congrArg ListenerView.installed hview
    rw [hinstalled, hconnected]
    cases stage <;> exact Iff.rfl
  · have haccepting : port.acceptingConnections = stage.view.acceptingConnections :=
      congrArg ListenerView.acceptingConnections hview
    rw [haccepting, hconnected]
    cases stage <;> decide
  · have hbinds : connection.running.countP Task.binds = stage.view.binds :=
      congrArg ListenerView.binds hview
    rw [hbinds]
    cases stage <;> decide
  · have haccepts : connection.running.countP Task.accepts = stage.view.accepts :=
      congrArg ListenerView.accepts hview
    rw [haccepts]
    cases stage <;> decide

end ServerConnection

/-! ## The runs of a server -/

/-- The step calls none of the operations that are about the listener by itself. -/
def ServerInput.byChain {τ : Type} [UserMessages τ] : ServerInput τ → Prop
  | .portOp _ op => op.ofListener = false
  | _ => True

section Runs
open ServerApp
variable {τ : Type} [DecidableEq τ] [UserMessages τ] [Ciborium τ]
  {app app' : ServerApp τ} {input : ServerInput τ} {output : ServerOutput τ} {name : String}
  {after : ServerConnection}

/-- The step spawns no accept task that panics. -/
def ServerApp.Affords (app : ServerApp τ) (input : ServerInput τ) : Prop :=
  ∀ system, input = .first system → ∀ name connection,
    app.connections.lookup name = some connection → connection.Affords system

/-- **What a step does to a listener.** The connection is a new one, or the step leaves its stage
or leads to the next one, unless its accept task panics. -/
theorem step_stage (h : app.step input = some (app', output)) (hchain : input.byChain)
    (hlookup : app'.connections.lookup name = some after) :
    (∃ settings, ServerConnection.new name settings = some after) ∨
      ∃ before, app.connections.lookup name = some before ∧
        after.connectionName = before.connectionName ∧
          ∀ stage, before.At stage →
            (∀ system, input = .first system → before.Affords system) → after.AtOrNext stage := by
  have hkept : ∀ {before}, app.connections.lookup name = some before → before.Keeps after →
      (∃ settings, ServerConnection.new name settings = some after) ∨
        ∃ before, app.connections.lookup name = some before ∧
          after.connectionName = before.connectionName ∧
            ∀ stage, before.At stage →
              (∀ system, input = .first system → before.Affords system) →
                after.AtOrNext stage :=
    fun hbefore hkeeps => .inr ⟨_, hbefore, hkeeps.1, fun stage hat _ => .inl (hkeeps.2 stage hat)⟩
  cases input with
  | first system =>
    rw [step_first h] at hlookup
    obtain ⟨before, hbefore, rfl⟩ := FirstSystem.lookup_turn hlookup
    exact .inr ⟨before, hbefore, before.connectionName_turn system,
      fun stage hat haffords => hat.turn_stage (haffords system rfl)⟩
  | readMessagesServer =>
    obtain ⟨connections, commands, dispatched, hread, -, -, rfl⟩ := step_readMessagesServer h
    obtain ⟨commands', -, heq⟩ := Panicking.bind_eq_ok.mp hread
    cases heq
    rw [AssocMap.lookup_mapVals] at hlookup
    obtain ⟨before, hbefore, rfl⟩ := Option.map_eq_some_iff.mp hlookup
    exact hkept hbefore before.keeps_drained
  | authenticationMessageServer t handler =>
    obtain ⟨connections, calls, hloop, rfl, rfl⟩ := step_authenticationMessageServer h
    rw [(authenticationLoop_spec hloop).1 name] at hlookup
    obtain ⟨before, hbefore, rfl⟩ := Option.map_eq_some_iff.mp hlookup
    exact hkept hbefore (ServerConnection.keeps_settled name before calls)
  | startConnection connectionName settings =>
    cases h
    rcases NetworkConnections.lookup_startConnection hlookup with hold | hnew
    · exact hkept hold (.refl after)
    · exact .inl ⟨settings, hnew⟩
  | disconnect connectionName =>
    cases h
    exact hkept (AssocMap.lookup_of_erase hlookup).2 (.refl after)
  | portOp connectionName op =>
    rw [(portOp_spec h).1] at hlookup
    rcases AssocMap.lookup_of_modify hlookup with ⟨-, hold⟩ | ⟨before, rfl, hbefore, rfl⟩
    · exact hkept hold (.refl after)
    · exact hkept hbefore (ServerConnection.keeps_portOp hchain)
  | sendMessage connectionName t message target =>
    cases h
    rcases AssocMap.lookup_of_modify hlookup with ⟨-, hold⟩ | ⟨before, rfl, hbefore, rfl⟩
    · exact hkept hold (.refl after)
    · exact hkept hbefore (ServerConnection.keeps_sent message target)
  | task connectionName task event =>
    obtain ⟨hconnections, ⟨connection, hconnection, hruns, hdoes⟩, -⟩ := task_spec h
    rw [hconnections] at hlookup
    rcases AssocMap.lookup_of_modify hlookup with ⟨-, hold⟩ | ⟨before, rfl, hbefore, rfl⟩
    · exact hkept hold (.refl after)
    · cases hbefore.symm.trans hconnection
      obtain ⟨running, heq⟩ := connection.receive_eq task event
      refine .inr ⟨connection, hbefore, ?_, fun stage hat _ => hat.receive_stage hruns hdoes⟩
      rw [heq]
      exact ServerConnection.connectionName_onMainPort _
  | registerMessage | updateMessages =>
    cases h
    exact hkept hlookup (.refl after)

/-- Every connection has the name it goes by. -/
def ServerApp.Named (app : ServerApp τ) : Prop :=
  ∀ name connection, app.connections.lookup name = some connection →
    connection.connectionName = name

/-- Every connection is at a stage. -/
def ServerApp.Staged (app : ServerApp τ) : Prop :=
  ∀ name connection, app.connections.lookup name = some connection →
    ∃ stage, connection.At stage

theorem new_staged {settings : PortSideSettings}
    (hnew : ServerConnection.new name settings = some after) :
    after.connectionName = name ∧ after.At .idle := by
  cases settings with
  | client settings => cases hnew
  | server settings =>
    cases hnew
    exact ⟨rfl, _, rfl, rfl⟩

theorem named_step (hnamed : app.Named) (h : app.step input = some (app', output))
    (hchain : input.byChain) : app'.Named := by
  intro name after hlookup
  rcases step_stage h hchain hlookup with ⟨settings, hnew⟩ | ⟨before, hbefore, hname, -⟩
  · exact (new_staged hnew).1
  · exact hname.trans (hnamed name before hbefore)

theorem staged_step (hstaged : app.Staged) (h : app.step input = some (app', output))
    (hchain : input.byChain) (haffords : app.Affords input) : app'.Staged := by
  intro name after hlookup
  rcases step_stage h hchain hlookup with ⟨settings, hnew⟩ | ⟨before, hbefore, -, hstage⟩
  · exact ⟨.idle, (new_staged hnew).2⟩
  · obtain ⟨stage, hat⟩ := hstaged name before hbefore
    have hmoved := hstage stage hat fun system hinput => haffords system hinput name before hbefore
    rcases hmoved with hsame | hnext
    · exact ⟨stage, hsame⟩
    · exact ⟨stage.next, hnext⟩

/-- A listener that has gone is given up, with its connection or without, and a connection without
one is started again. -/
structure Rebuilds (t : ServerTransition τ) : Prop where
  dropped : t.input = .first .checkMainPortDropped → ∀ name connection port,
    t.pre.connections.lookup name = some connection → connection.mainPort = some port →
      port.connectionDown ≠ [] →
        if port.settings.listener.autoReconnect then
          ∃ after, t.post.connections.lookup name = some after ∧ after.connected = false
        else t.post.connections.lookup name = none
  started : t.input = .first .startConnections → ∀ name connection,
    t.pre.connections.lookup name = some connection → connection.connected = false →
      ∃ after, t.post.connections.lookup name = some after ∧ .bind ∈ after.running

/-- The turn pushes the name of its connection, or nothing. -/
theorem toDisconnect_cases (connection : ServerConnection) :
    connection.toDisconnect = [] ∨ connection.toDisconnect = [connection.connectionName] := by
  rw [ServerConnection.toDisconnect]
  split
  · exact .inl rfl
  · dsimp only
    split
    · split
      · exact .inl rfl
      · exact .inr rfl
    · exact .inl rfl

/-- What `check_main_port_dropped` leaves of a connection. -/
theorem lookup_checkMainPortDropped (hnamed : app.Named) {connection : ServerConnection}
    (hlookup : app.connections.lookup name = some connection) :
    (checkMainPortDropped app.connections).lookup name =
      if connection.toDisconnect = [] then some connection.checkDropped else none := by
  have hself : ∀ name connection, app.connections.lookup name = some connection →
      connection.toDisconnect = [] ∨ connection.toDisconnect = [name] := by
    intro name connection hlookup
    have hname := hnamed name connection hlookup
    exact hname ▸ toDisconnect_cases connection
  refine (AssocMap.lookup_sweep hself name).trans ?_
  rw [hlookup]
  rfl

theorem rebuilds_step {t : ServerTransition τ} (hnamed : t.pre.Named) (hstaged : t.pre.Staged)
    (hof : t.Of (serverMachine τ)) : Rebuilds t := by
  obtain ⟨pre, input, output, post⟩ := t
  constructor
  · rintro rfl name connection port hlookup hport hdown
    have hpost : post.connections = checkMainPortDropped pre.connections := step_first hof
    have hdropped : port.checkPortDropped.2 = (true, port.settings.listener.autoReconnect) := by
      cases hqueue : port.connectionDown with
      | nil => exact absurd hqueue hdown
      | cons _ rest => simp only [ServerPort.checkPortDropped, hqueue]
    dsimp only
    rw [hpost, lookup_checkMainPortDropped hnamed hlookup]
    simp only [ServerConnection.toDisconnect, ServerConnection.checkDropped, hport, hdropped,
      if_true]
    cases port.settings.listener.autoReconnect with
    | true => exact ⟨_, rfl, rfl⟩
    | false => rfl
  · rintro rfl name connection hlookup hstopped
    have hpost : post.connections = startConnections pre.connections := step_first hof
    obtain ⟨stage, port, hport, hview⟩ := hstaged name connection hlookup
    obtain rfl : .idle = stage := ServerPort.stage_of_shows hview hstopped
    have hidle : connection.At .idle := ⟨port, hport, hview⟩
    obtain ⟨port', hport', hbinding⟩ := hidle.startConnection
    refine ⟨connection.startConnection, ?_, ?_⟩
    · dsimp only
      rw [hpost, startConnections, AssocMap.lookup_mapVals, hlookup, Option.map_some, hstopped]
      rfl
    · have hone : 0 < connection.startConnection.running.countP Task.binds := by
        have hbinds := congrArg ListenerView.binds hbinding
        exact hbinds.ge
      obtain ⟨task, htask, hbinds⟩ := List.countP_pos_iff.mp hone
      cases task with
      | bind => exact htask
      | _ => cases hbinds

/-- Of every connection the flags, the channels and the tasks agree. -/
def ServerApp.Lives (app : ServerApp τ) : Prop :=
  ∀ name connection, app.connections.lookup name = some connection →
    ∃ port, connection.mainPort = some port ∧ connection.Lives port

theorem ServerApp.Staged.lives (hstaged : app.Staged) : app.Lives := by
  intro name connection hlookup
  obtain ⟨stage, hat⟩ := hstaged name connection hlookup
  exact hat.lives

/-- **An accept task that panics leaves a connection without any of it**: its flags say that it
accepts, and no task does. -/
theorem affords_of_lives (hstaged : app.Staged) (h : app.step input = some (app', output))
    (hlives : app'.Lives) : app.Affords input := by
  rintro system rfl name connection hlookup rfl port hport hruntime hup hidle
  by_contra hlimit
  obtain ⟨stage, port', hport', hview⟩ := hstaged name connection hlookup
  cases hport.symm.trans hport'
  obtain rfl : .installed = stage := ServerPort.stage_of_shows hview ⟨hup, hidle⟩
  simp only [ServerPort.view, Stage.view, ListenerView.mk.injEq] at hview
  obtain ⟨-, hconnecting, -, -, hinstalled, hlisteners, hdown, hbinds, haccepts⟩ := hview
  obtain ⟨runtime, hruntime⟩ := Option.isSome_iff_exists.mp hruntime
  obtain ⟨tcpListener, hinstalled⟩ := Option.isSome_iff_exists.mp hinstalled
  have hpanics := decide_eq_true (Nat.lt_of_not_le hlimit)
  have hlookup' : app'.connections.lookup name =
      some (connection.onMainPort ServerPort.startAcceptingConnections) := by
    rw [step_first h]
    exact (AssocMap.lookup_mapVals _ _ _).trans (congrArg (Option.map _) hlookup)
  simp only [ServerConnection.onMainPort, hport, hruntime, ServerPort.startAcceptingConnections,
    hup, hidle, hinstalled, Bool.not_true, Bool.or_false, Bool.false_eq_true, if_false,
    List.filter_cons, Task.panics_accept, hpanics, List.filter_nil, List.append_nil] at hlookup'
  obtain ⟨after, hafter, hafterLives⟩ := hlives name _ hlookup'
  cases hafter
  obtain ⟨stage, ⟨hne, hshows⟩, -⟩ := hafterLives.one hconnecting
  have hnone : ∀ {p : Task → Bool}, connection.running.countP p = 0 →
      ∀ task ∈ connection.running, ¬p task = true := List.countP_eq_zero.mp
  cases stage with
  | idle => exact hne rfl
  | binding => exact hnone hbinds _ hshows rfl
  | bound => exact hshows (List.length_eq_zero_iff.mp hlisteners)
  | installed => cases hshows.2
  | accepting =>
    obtain ⟨task, htask, haccepts'⟩ := hshows
    exact hnone haccepts task htask haccepts'
  | down => exact hshows (List.length_eq_zero_iff.mp hdown)

/-- **The life of a listener.** In a run of a server that leaves the listeners to the systems, the
flags, the channels and the tasks of every connection agree in every state on what its listener
does, there is never a second bind or accept task, and a listener that has gone is rebuilt or its
connection removed, exactly when no accept task panics at its start. -/
theorem listener_lifecycle (ts : List (ServerTransition τ)) (app : ServerApp τ)
    (h : (serverMachine τ).Run .new ts app) (hchain : ∀ t ∈ ts, t.input.byChain) :
    (∀ t ∈ ts, t.post.Lives ∧ Rebuilds t) ↔ ∀ t ∈ ts, t.pre.Affords t.input := by
  have hiff : (∀ t ∈ ts, t.input.byChain ∧ t.post.Lives ∧ Rebuilds t) ↔
      ∀ t ∈ ts, t.input.byChain ∧ t.pre.Affords t.input := by
    refine h.forall_iff (fun _ app => app.Named ∧ app.Staged) ?_ ?_ ?_
    · constructor <;>
      · intro name connection hlookup
        cases hlookup
    · rintro ts t - ⟨hnamed, hstaged⟩ hof ⟨hbyChain, haffords⟩
      have hafter := staged_step hstaged hof hbyChain haffords
      refine ⟨⟨hbyChain, hafter.lives, rebuilds_step hnamed hstaged hof⟩, ?_, hafter⟩
      exact named_step hnamed hof hbyChain
    · rintro ts t - ⟨-, hstaged⟩ hof ⟨hbyChain, hlives, -⟩
      exact ⟨hbyChain, affords_of_lives hstaged hof hlives⟩
  constructor
  · intro hlives t ht
    exact (hiff.mp (fun t ht => ⟨hchain t ht, hlives t ht⟩) t ht).2
  · intro haffords t ht
    exact (hiff.mpr (fun t ht => ⟨hchain t ht, haffords t ht⟩) t ht).2

end Runs

namespace Sample

/-- A listener is bound, installed and accepted on; it goes, and another is bound. -/
def downInputs : List (ServerInput Sample) :=
  [.startConnection "main" (.server (.tcp .default)), .first .startConnections,
    .task "main" .bind (.portConnected 0), .first .receiveMainPortListener,
    .first .startAcceptingConnectionsMainPort,
    .task "main" (.accept 0 0 false false) .connectionDown, .first .checkMainPortDropped,
    .first .startConnections]

def downRun : List (ServerTransition Sample) × ServerApp Sample :=
  ((serverMachine Sample).exec .new downInputs).getD ([], .new)

theorem run_downRun : (serverMachine Sample).Run .new downRun.1 downRun.2 := by
  have hexec : (serverMachine Sample).exec .new downInputs = some downRun := rfl
  exact .of_exec hexec

/-- As many connections as there can be. -/
def unboundedSettings : TcpSettingsServer :=
  { TcpSettingsServer.default with maxConnections := 2 ^ 64 - 1 }

/-- A listener is bound and installed; the accept task panics. -/
def stuckInputs : List (ServerInput Sample) :=
  [.startConnection "main" (.server (.tcp unboundedSettings)), .first .startConnections,
    .task "main" .bind (.portConnected 0), .first .receiveMainPortListener,
    .first .startAcceptingConnectionsMainPort]

def stuckRun : List (ServerTransition Sample) × ServerApp Sample :=
  ((serverMachine Sample).exec .new stuckInputs).getD ([], .new)

theorem run_stuckRun : (serverMachine Sample).Run .new stuckRun.1 stuckRun.2 := by
  have hexec : (serverMachine Sample).exec .new stuckInputs = some stuckRun := rfl
  exact .of_exec hexec

theorem byChain_of_map {ts : List (ServerTransition Sample)} (inputs : List (ServerInput Sample))
    (hinputs : ts.map (·.input) = inputs) (h : ∀ input ∈ inputs, input.byChain) :
    ∀ t ∈ ts, t.input.byChain := by
  intro t ht
  apply h
  rw [← hinputs]
  exact List.mem_map_of_mem ht

end Sample

/-- The port of this run has no limit, so its accept task has no semaphore. At the end of the run
the second bind task is under way. -/
theorem listener_lifecycle_down : (∀ t ∈ Sample.downRun.1, t.pre.Affords t.input) ∧
    ∀ t ∈ Sample.downRun.1, t.post.Lives ∧ Rebuilds t := by
  have hchain : ∀ t ∈ Sample.downRun.1, t.input.byChain := by
    apply Sample.byChain_of_map Sample.downInputs rfl
    simp only [Sample.downInputs, List.forall_mem_cons, ServerInput.byChain, true_and]
    exact List.forall_mem_nil _
  rw [listener_lifecycle _ _ Sample.run_downRun hchain, and_self]
  have hunlimited : ∀ t ∈ Sample.downRun.1, ∀ entry ∈ t.pre.connections.entries,
      ∀ port ∈ entry.2.mainPort, port.settings.listener.maxConnections = 0 := by decide
  rintro t ht system - name connection hlookup - port hport - - -
  rw [hunlimited t ht ⟨name, connection⟩ (AssocMap.mem_entries.mpr hlookup) port hport]
  exact Nat.zero_le _

/-- The accept task of an unbounded port is gone, and its port goes on waiting for it. -/
theorem stuckRun_silent :
    ¬∀ (ts : List (ServerTransition Sample)) (app : ServerApp Sample),
      (serverMachine Sample).Run .new ts app → (∀ t ∈ ts, t.input.byChain) → app.Lives := by
  intro h
  have hchain : ∀ t ∈ Sample.stuckRun.1, t.input.byChain := by
    apply Sample.byChain_of_map Sample.stuckInputs rfl
    simp only [Sample.stuckInputs, List.forall_mem_cons, ServerInput.byChain, true_and]
    exact List.forall_mem_nil _
  obtain ⟨port, hport, hlives⟩ := h _ _ Sample.run_stuckRun hchain "main" _ rfl
  cases hport
  obtain ⟨stage, ⟨hne, hshows⟩, -⟩ := hlives.one rfl
  cases stage with
  | idle => exact hne rfl
  | binding => exact List.not_mem_nil hshows
  | bound => exact hshows rfl
  | installed => cases hshows.2
  | accepting =>
    obtain ⟨task, htask, -⟩ := hshows
    exact List.not_mem_nil htask
  | down => exact hshows rfl

end Inator
