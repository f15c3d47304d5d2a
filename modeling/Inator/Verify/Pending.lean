import Inator.Verify.Listening

/-! # A started client waits for something

Once `start_connections` has started a connection, only a notification of its port starts it
again. So a connect task that ends with neither a stream nor a notification leaves the connection
as it is for ever, and so does a `connect` that spawns no task. -/

namespace Inator

namespace ClientTask

/-- The task is a connect task. -/
def connects : ClientTask → Bool
  | .connect .. => true
  | _ => false

/-- The task reads. -/
def reads : ClientTask → Bool
  | .read .. => true
  | _ => false

end ClientTask

/-- The task has ended, with neither a stream nor a notification. -/
def ClientEvent.silent : ClientEvent → Bool
  | .returned | .panicked => true
  | _ => false

/-- The port is connected, or a task or a channel of it has what will change it. -/
def ClientPort.UnderWay (port : ClientPort) (running : List ClientTask) : Prop :=
  port.connected = true ∨ (∃ task ∈ running, task.connects = true) ∨
    port.connectedToServer ≠ [] ∨ port.connectionDown ≠ []

/-! ## One operation of a port -/

namespace ClientPort
variable {port port' : ClientPort} {running running' : List ClientTask}

theorem UnderWay.mono (h : port.UnderWay running) (hconnected : port'.connected = port.connected)
    (harrived : port'.connectedToServer = port.connectedToServer)
    (hdown : port'.connectionDown = port.connectionDown)
    (hrunning : ∀ task ∈ running, task.connects = true → task ∈ running') :
    port'.UnderWay running' := by
  rw [UnderWay, hconnected, harrived, hdown]
  apply h.imp_right
  apply Or.imp_left
  rintro ⟨task, htask, hconnects⟩
  exact ⟨task, hrunning task htask hconnects, hconnects⟩

/-- The ports all start with a connect task, but for a `ClientTcp` whose domain name does not
convert. -/
theorem connect_starts (hconnecting : port.connecting = false)
    (hname : ∀ settings, port.settings = .tcp settings → settings.serverName = true)
    (runtime : Runtime) :
    ∃ task, task.connects = true ∧
      port.connect (some runtime) = ({ port with connecting := true }, [task]) := by
  cases hsettings : port.settings with
  | tcp settings =>
    refine ⟨.connect settings.tryReconnect settings.tls, rfl, ?_⟩
    simp only [connect, hsettings, ClientTcp.connect, hconnecting, hname settings hsettings,
      Bool.not_true, Bool.false_eq_true, if_false]
  | webSocket settings =>
    refine ⟨.connect settings.tryReconnect settings.tls, rfl, ?_⟩
    simp only [connect, hsettings, ClientWebSocket.connect, hconnecting, Bool.false_eq_true,
      if_false]
  | wasm settings =>
    refine ⟨.connect settings.tryReconnect false, rfl, ?_⟩
    simp only [connect, hsettings, WasmClient.connect, hconnecting, Bool.false_eq_true, if_false]

theorem connect_unnamed {settings : TcpSettingsClient} (hsettings : port.settings = .tcp settings)
    (hname : settings.serverName = false) (hconnecting : port.connecting = false)
    (runtime : Runtime) :
    port.connect (some runtime) = ({ port with connecting := false }, []) := by
  simp only [connect, hsettings, ClientTcp.connect, hconnecting, hname, Bool.not_false,
    Bool.false_eq_true, if_false, if_true]

/-- `start_listening_to_server` sets the mark, and nothing else of the port. -/
theorem startListening_spec (port : ClientPort) (runtime : Option Runtime) :
    ∃ listening,
      (port.startListeningToServer runtime).1 = { port with listening := listening } := by
  rcases port.startListening_cases runtime with h | ⟨-, ⟨-, h⟩ | ⟨stream, -, h⟩⟩
  all_goals
    rw [h]
    exact ⟨_, rfl⟩

/-! ## One thing at a time -/

/-- The connect tasks, the streams they have passed on and the connection that was made of one. -/
def attempts (port : ClientPort) (running : List ClientTask) : Nat :=
  running.countP ClientTask.connects + port.connectedToServer.length +
    if port.connected then 1 else 0

/-- What may yet notify of the end of the connection, or has done so. -/
def signals (port : ClientPort) (running : List ClientTask) : Nat :=
  running.countP ClientTask.connects + running.countP ClientTask.reads +
    port.connectedToServer.length + port.connectionDown.length +
      if port.connected && !port.listening then 1 else 0

/-- The port does one thing at a time, and none while it is not connecting. -/
structure Single (port : ClientPort) (running : List ClientTask) : Prop where
  half : port.readHalf.isSome → port.connected = true
  attempts : port.attempts running ≤ if port.connecting then 1 else 0
  signals : port.signals running ≤ if port.connecting then 1 else 0

namespace Single
variable {settings : TcpSettingsClient} {task : ClientTask}

theorem new (settings : ClientSettings) : (ClientPort.new settings).Single [] where
  half h := by cases h
  attempts := Nat.le_refl 0
  signals := Nat.le_refl 0

theorem le_one (port : ClientPort) : (if port.connecting then 1 else 0) ≤ 1 := by
  split <;> decide

/-- Nothing is under way on a port that has no connect task, no stream and no notification. -/
theorem not_underWay_of_counts (hconnects : running.countP ClientTask.connects = 0)
    (harrived : port.connectedToServer.length = 0) (hdown : port.connectionDown.length = 0)
    (hup : (if port.connected then 1 else 0) = 0) : ¬port.UnderWay running := by
  rintro (hconnected | ⟨task, htask, hconnect⟩ | hstream | hnotification)
  · rw [if_pos hconnected] at hup
    cases hup
  · exact List.countP_eq_zero.mp hconnects task htask hconnect
  · exact hstream (List.eq_nil_of_length_eq_zero harrived)
  · exact hnotification (List.eq_nil_of_length_eq_zero hdown)

/-- A port that is not connecting has nothing under way. -/
theorem not_underWay (h : port.Single running) (hconnecting : port.connecting = false) :
    ¬port.UnderWay running := by
  have hattempts := h.attempts
  have hsignals := h.signals
  simp only [hconnecting, ClientPort.attempts, ClientPort.signals, Bool.false_eq_true,
    if_false] at hattempts hsignals
  apply not_underWay_of_counts <;> omega

/-- The tasks, counted without one of them. -/
theorem countP_erase_add {p : ClientTask → Bool} (hruns : task ∈ running) :
    running.countP p = (running.erase task).countP p + if p task then 1 else 0 := by
  rw [(List.perm_cons_erase hruns).countP_eq, List.countP_cons]

/-- While a connect task runs, nothing else is under way. -/
theorem not_underWay_erase (h : port.Single running) (hruns : task ∈ running)
    (hconnects : task.connects = true) : ¬port.UnderWay (running.erase task) := by
  have hattempts := h.attempts
  have hsignals := h.signals
  have hone := le_one port
  have hcount := countP_erase_add (p := ClientTask.connects) hruns
  rw [if_pos hconnects] at hcount
  rw [ClientPort.attempts] at hattempts
  rw [ClientPort.signals] at hsignals
  apply not_underWay_of_counts <;> omega

/-- An operation that leaves the port as it is, but for fields that do not count, and spawns
neither connect tasks nor readers. -/
theorem of_same (h : port.Single running)
    (hfields : port'.connecting = port.connecting ∧ port'.connected = port.connected ∧
      port'.listening = port.listening ∧ port'.connectedToServer = port.connectedToServer ∧
      port'.connectionDown = port.connectionDown ∧ port'.readHalf = port.readHalf)
    (hconnects : running'.countP ClientTask.connects ≤ running.countP ClientTask.connects)
    (hreads : running'.countP ClientTask.reads ≤ running.countP ClientTask.reads) :
    port'.Single running' := by
  obtain ⟨hconnecting, hup, hlistening, harrived, hdown, hhalf⟩ := hfields
  have hattempts := h.attempts
  have hsignals := h.signals
  refine ⟨?_, ?_, ?_⟩
  · rw [hhalf, hup]
    exact h.half
  · rw [ClientPort.attempts] at hattempts ⊢
    rw [harrived, hup, hconnecting]
    omega
  · rw [ClientPort.signals] at hsignals ⊢
    rw [harrived, hup, hdown, hlistening, hconnecting]
    omega

/-- A notification is the last thing that is under way. -/
theorem checkPortDropped (h : port.Single running) : port.checkPortDropped.1.Single running := by
  rw [ClientPort.checkPortDropped]
  split
  · exact h
  · rename_i rest hdown
    have hsignals := h.signals
    have hone := le_one port
    rw [ClientPort.signals, hdown, List.length_cons] at hsignals
    refine ⟨fun h => absurd h Bool.false_ne_true, ?_, ?_⟩
    · simp only [ClientPort.attempts, Bool.false_eq_true, if_false]
      omega
    · simp only [ClientPort.signals, Bool.false_and, Bool.false_eq_true, if_false]
      omega

theorem connect (h : port.Single running) (runtime : Option Runtime) :
    (port.connect runtime).1.Single (running ++ (port.connect runtime).2) := by
  rcases port.connect_cases runtime with hnone | ⟨hconnecting, hcases⟩
  · rwa [hnone, List.append_nil]
  have hattempts := h.attempts
  have hsignals := h.signals
  rw [hconnecting, if_neg Bool.false_ne_true] at hattempts hsignals
  rcases hcases with hunnamed | ⟨tryReconnect, tls, hstarts⟩
  · rw [hunnamed, List.append_nil]
    exact ⟨h.half, hattempts, hsignals⟩
  · rw [hstarts]
    refine ⟨h.half, ?_, ?_⟩
    · simp only [ClientPort.attempts] at hattempts ⊢
      simp only [List.countP_append, List.countP_singleton, ClientTask.connects, if_true]
      omega
    · simp only [ClientPort.signals] at hsignals ⊢
      simp only [List.countP_append, List.countP_singleton, ClientTask.connects,
        ClientTask.reads, Bool.false_eq_true, if_true, if_false]
      omega

theorem checkConnectedToServer (h : port.Single running) :
    port.checkConnectedToServer.1.Single running := by
  rw [ClientPort.checkConnectedToServer]
  split
  · exact h
  · rename_i hup
    split
    · exact h
    · rename_i stream rest harrived
      have hattempts := h.attempts
      have hsignals := h.signals
      rw [ClientPort.attempts, harrived, List.length_cons, if_neg hup] at hattempts
      rw [ClientPort.signals, harrived, List.length_cons] at hsignals
      refine ⟨fun _ => rfl, ?_, ?_⟩
      · simp only [ClientPort.attempts, if_true]
        omega
      · have hlistening : (if true && !port.listening then 1 else 0) ≤ 1 := by
          split <;> decide
        simp only [ClientPort.signals]
        omega

theorem startListeningToServer (h : port.Single running) (runtime : Option Runtime) :
    (port.startListeningToServer runtime).1.Single
      (running ++ (port.startListeningToServer runtime).2) := by
  rcases port.startListening_cases runtime with hnone | ⟨hlistening, hcases⟩
  · rwa [hnone, List.append_nil]
  have hattempts := h.attempts
  have hsignals := h.signals
  rw [ClientPort.signals] at hsignals
  rcases hcases with ⟨-, hmarks⟩ | ⟨stream, hhalf, hreads⟩
  · rw [hmarks, List.append_nil]
    refine ⟨h.half, hattempts, ?_⟩
    simp only [ClientPort.signals, Bool.not_true, Bool.and_false, Bool.false_eq_true, if_false]
    omega
  · rw [hreads]
    have hup := h.half (by rw [hhalf]; rfl)
    rw [hup, hlistening] at hsignals
    refine ⟨h.half, ?_, ?_⟩
    · simp only [ClientPort.attempts, List.countP_append, List.countP_singleton,
        ClientTask.connects, Bool.false_eq_true, if_false, Nat.add_zero] at hattempts ⊢
      exact hattempts
    · simp only [ClientPort.signals, List.countP_append, List.countP_singleton,
        ClientTask.connects, ClientTask.reads, Bool.not_true, Bool.and_false, Bool.not_false,
        Bool.and_true, Bool.false_eq_true, if_false, if_true] at hsignals ⊢
      omega

theorem sendMessage {τ : Type} [UserMessages τ] [Ciborium τ] {t : MessageType τ}
    (h : port.Single running) (hsettings : port.settings = .tcp settings) (message : t.Message)
    (runtime : Option Runtime) :
    (port.sendMessage message runtime).1.Single
      (running ++ (port.sendMessage message runtime).2) := by
  simp only [ClientPort.sendMessage, hsettings]
  unfold ClientTcp.sendMessage
  split
  · rwa [List.append_nil]
  · split
    · rwa [List.append_nil]
    · split
      · rwa [List.append_nil]
      · apply h.of_same ⟨rfl, rfl, rfl, rfl, rfl, rfl⟩
        · rw [List.countP_append]
          exact Nat.le_refl _
        · rw [List.countP_append]
          exact Nat.le_refl _

/-- What a task of a `ClientTcp` or a `WasmClient` sends takes its place. -/
theorem receive (h : port.Single running)
    (hsettings : ∀ settings, port.settings ≠ .webSocket settings) {event : ClientEvent}
    (hruns : task ∈ running) (hdoes : event.By port.settings task) :
    (port.receive event).Single
      (if event.returns port.settings task then running.erase task else running) := by
  have hattempts := h.attempts
  have hsignals := h.signals
  have hconnects := countP_erase_add (p := ClientTask.connects) hruns
  have hreads := countP_erase_add (p := ClientTask.reads) hruns
  rw [ClientPort.attempts] at hattempts
  rw [ClientPort.signals] at hsignals
  cases event with
  | messageReceived bytes =>
    exact h.of_same ⟨rfl, rfl, rfl, rfl, rfl, rfl⟩ (Nat.le_refl _) (Nat.le_refl _)
  | returned | panicked =>
    apply h.of_same ⟨rfl, rfl, rfl, rfl, rfl, rfl⟩
    · exact List.Sublist.countP_le List.erase_sublist
    · exact List.Sublist.countP_le List.erase_sublist
  | connectedToServer stream =>
    cases task with
    | connect tryReconnect tls =>
      simp only [ClientTask.connects, ClientTask.reads, Bool.false_eq_true, if_true,
        if_false] at hconnects hreads
      change ({ port with connectedToServer := port.connectedToServer ++ [stream] }).Single
        (running.erase (.connect tryReconnect tls))
      refine ⟨h.half, ?_, ?_⟩
      · simp only [ClientPort.attempts, List.length_append, List.length_singleton]
        omega
      · simp only [ClientPort.signals, List.length_append, List.length_singleton]
        omega
    | read | write | sendQueue => cases hdoes
  | connectionDown =>
    -- a connect task or the reader: either returns after it
    have heither : ClientEvent.returns port.settings .connectionDown task = true ∧
        1 ≤ (if task.connects then 1 else 0) + if task.reads then 1 else 0 := by
      cases task with
      | connect => exact ⟨rfl, Nat.le_refl 1⟩
      | read =>
        cases hport : port.settings with
        | tcp | wasm => exact ⟨rfl, Nat.le_refl 1⟩
        | webSocket settings => exact absurd hport (hsettings settings)
      | write | sendQueue => cases hdoes
    rw [if_pos heither.1]
    have hone := heither.2
    change ({ port with connectionDown := port.connectionDown ++ [()] }).Single (running.erase task)
    refine ⟨h.half, ?_, ?_⟩
    · simp only [ClientPort.attempts]
      omega
    · simp only [ClientPort.signals, List.length_append, List.length_singleton]
      omega

end Single

end ClientPort

/-! ## One connection -/

namespace ClientConnection

/-- A connection that is started has something under way. -/
def Pending (connection : ClientConnection) : Prop :=
  ∀ port, connection.mainPort = some port → connection.connected = true →
    port.UnderWay connection.running

/-- A connection that is not started is free to start. -/
def Free (connection : ClientConnection) : Prop :=
  ∀ port, connection.mainPort = some port → connection.connected = false →
    port.connecting = false

/-- `start_connections` meets no `ClientTcp` whose domain name does not convert. -/
def Named (connection : ClientConnection) : Prop :=
  ∀ port settings, connection.mainPort = some port → port.settings = .tcp settings →
    connection.connected = false → settings.serverName = true

/-- Something is under way besides the task. -/
def PendingWithout (connection : ClientConnection) (task : ClientTask) : Prop :=
  ∀ port, connection.mainPort = some port → connection.connected = true →
    port.UnderWay (connection.running.erase task)

variable {connection : ClientConnection} {port : ClientPort}

/-- An operation that leaves the fields that `UnderWay` and `Free` speak of. -/
theorem Pending.of_same {connection' : ClientConnection} {port' : ClientPort}
    (h : connection.Pending ∧ connection.Free) (hport : connection.mainPort = some port)
    (hport' : connection'.mainPort = some port')
    (hconnected : connection'.connected = connection.connected)
    (hfields : port'.connecting = port.connecting ∧ port'.connected = port.connected ∧
      port'.connectedToServer = port.connectedToServer ∧
      port'.connectionDown = port.connectionDown)
    (hrunning : ∀ task ∈ connection.running, task.connects = true → task ∈ connection'.running) :
    connection'.Pending ∧ connection'.Free := by
  obtain ⟨hconnecting, hup, harrived, hdown⟩ := hfields
  rw [Pending, Free, hconnected, hport']
  constructor
  · intro _ hport' hstarted
    cases hport'
    exact (h.1 port hport hstarted).mono hup harrived hdown hrunning
  · intro _ hport' hstarted
    cases hport'
    rw [hconnecting]
    exact h.2 port hport hstarted

/-- An operation of the main port that leaves them. -/
theorem Pending.onMainPort {op : ClientPort → Option Runtime → ClientPort × List ClientTask}
    (h : connection.Pending ∧ connection.Free)
    (hop : ∀ port runtime, (op port runtime).1.connecting = port.connecting ∧
      (op port runtime).1.connected = port.connected ∧
      (op port runtime).1.connectedToServer = port.connectedToServer ∧
      (op port runtime).1.connectionDown = port.connectionDown) :
    (connection.onMainPort op).Pending ∧ (connection.onMainPort op).Free := by
  cases hport : connection.mainPort with
  | none => rwa [onMainPort_none hport]
  | some port =>
    rw [mainPort_onMainPort hport]
    exact of_same h hport rfl rfl (hop port connection.runtime)
      fun _ htask _ => List.mem_append_left _ htask

theorem Pending.created {settings : PortSideSettings}
    (hnew : ClientConnection.new name settings = some connection) :
    connection.Pending ∧ connection.Free := by
  cases settings with
  | server settings => cases hnew
  | client settings =>
    cases hnew
    constructor
    · intro port _ hstarted
      cases hstarted
    · intro _ hport' _
      cases hport'
      rfl

theorem Pending.checkDropped (h : connection.Pending ∧ connection.Free) :
    connection.checkDropped.Pending ∧ connection.checkDropped.Free := by
  rw [ClientConnection.checkDropped]
  split
  · exact h
  · rename_i port hport
    cases hdown : port.connectionDown with
    | nil =>
      simp only [ClientPort.checkPortDropped, hdown]
      exact of_same h hport rfl rfl ⟨rfl, rfl, rfl, rfl⟩ fun _ htask _ => htask
    | cons _ rest =>
      simp only [ClientPort.checkPortDropped, hdown]
      constructor
      · intro port' _ hstarted
        cases hstarted
      · intro _ hport' _
        cases hport'
        rfl

/-- The turn of `start_connections`, as `Named` has it. -/
theorem Pending.startUnlessConnected (h : connection.Pending ∧ connection.Free)
    (hnamed : connection.Named) :
    connection.startUnlessConnected.Pending ∧ connection.startUnlessConnected.Free := by
  rw [ClientConnection.startUnlessConnected]
  cases hconnected : connection.connected with
  | true => exact h
  | false =>
    simp only [Bool.not_false, if_true, startConnection]
    cases hport : connection.mainPort with
    | none =>
      rw [onMainPort_none rfl]
      constructor
      · intro port hnone
        cases hnone
      · intro port _ hstarted
        cases hstarted
    | some port =>
      have hname : ∀ settings, port.settings = .tcp settings → settings.serverName = true :=
        fun settings hsettings => hnamed port settings hport hsettings hconnected
      obtain ⟨task, htask, hconnect⟩ := ClientPort.connect_starts
        (h.2 port hport hconnected) hname (connection.runtime.getD .new)
      rw [mainPort_onMainPort rfl, hconnect]
      constructor
      · intro _ hport' _
        cases hport'
        exact .inr (.inl ⟨task, List.mem_append_right _ List.mem_cons_self, htask⟩)
      · intro port' _ hstarted
        cases hstarted

theorem Pending.checkConnected (h : connection.Pending ∧ connection.Free) :
    connection.checkConnected.Pending ∧ connection.checkConnected.Free := by
  rw [ClientConnection.checkConnected]
  cases hport : connection.mainPort with
  | none => rwa [onMainPort_none hport]
  | some port =>
    rw [mainPort_onMainPort hport]
    simp only [List.append_nil]
    rw [ClientPort.checkConnectedToServer]
    split
    · exact of_same h hport rfl rfl ⟨rfl, rfl, rfl, rfl⟩ fun _ htask _ => htask
    · split
      · exact of_same h hport rfl rfl ⟨rfl, rfl, rfl, rfl⟩ fun _ htask _ => htask
      · constructor
        · intro _ hport' _
          cases hport'
          exact .inl rfl
        · intro _ hport' hstarted
          cases hport'
          exact h.2 port hport hstarted

theorem Pending.checkListening (h : connection.Pending ∧ connection.Free) :
    connection.checkListening.Pending ∧ connection.checkListening.Free := by
  apply onMainPort h
  intro port runtime
  obtain ⟨listening, hlistening⟩ := port.startListening_spec runtime
  rw [hlistening]
  exact ⟨rfl, rfl, rfl, rfl⟩

theorem Pending.sent {τ : Type} [UserMessages τ] [Ciborium τ] {t : MessageType τ}
    {message : t.Message} (h : connection.Pending ∧ connection.Free) :
    (connection.onMainPort fun port runtime => port.sendMessage message runtime).Pending ∧
      (connection.onMainPort fun port runtime => port.sendMessage message runtime).Free := by
  apply onMainPort h
  intro port runtime
  obtain ⟨⟨sendingMessages, messageQueue, hsent⟩, -⟩ := port.sendMessage_spec message runtime
  rw [hsent]
  exact ⟨rfl, rfl, rfl, rfl⟩

theorem Pending.drained (h : connection.Pending ∧ connection.Free) :
    connection.drained.Pending ∧ connection.drained.Free := by
  rw [ClientConnection.drained]
  cases hport : connection.mainPort with
  | none =>
    constructor
    · intro port hnone
      cases hnone
    · intro port hnone
      cases hnone
  | some port => exact of_same h hport rfl rfl ⟨rfl, rfl, rfl, rfl⟩ fun _ htask _ => htask

/-- What a task does, unless it is the connect task and ends without. -/
theorem Pending.receive (h : connection.Pending ∧ connection.Free) {task : ClientTask}
    {event : ClientEvent} (hport : connection.mainPort = some port)
    (hreturns : event.silent = true → task.connects = true → connection.PendingWithout task) :
    (connection.receive task event).Pending ∧ (connection.receive task event).Free := by
  simp only [ClientConnection.receive, hport]
  constructor
  · intro _ hport' hstarted
    cases hport'
    cases event with
    | connectedToServer stream => exact .inr (.inr (.inl (List.append_ne_nil_of_right_ne_nil _
        (List.cons_ne_nil _ _))))
    | connectionDown => exact .inr (.inr (.inr (List.append_ne_nil_of_right_ne_nil _
        (List.cons_ne_nil _ _))))
    | messageReceived bytes =>
      exact (h.1 port hport hstarted).mono rfl rfl rfl fun _ htask _ => htask
    | returned | panicked =>
      cases hconnects : task.connects with
      | true => exact hreturns rfl hconnects port hport hstarted
      | false =>
        apply (h.1 port hport hstarted).mono rfl rfl rfl
        intro task' htask' hconnects'
        refine (List.mem_erase_of_ne ?_).mpr htask'
        rintro rfl
        cases hconnects.symm.trans hconnects'
  · intro _ hport' hstarted
    cases hport'
    have hconnecting := h.2 port hport hstarted
    cases event <;> exact hconnecting

theorem Pending.turn (h : connection.Pending ∧ connection.Free) {system : ClientSystem}
    (hnamed : system = .startConnections → connection.Named) :
    (system.turn connection).Pending ∧ (system.turn connection).Free := by
  cases system with
  | checkMainPortDropped => exact checkDropped h
  | startConnections => exact startUnlessConnected h (hnamed rfl)
  | checkConnectedToMainPort => exact checkConnected h
  | checkListeningToMainPort => exact checkListening h

/-! ## The settings of a connection -/

/-- The settings of the main port. -/
def settings (connection : ClientConnection) : Option ClientSettings :=
  connection.mainPort.map ClientPort.settings

theorem settings_onMainPort {op : ClientPort → Option Runtime → ClientPort × List ClientTask}
    (hop : ∀ port runtime, (op port runtime).1.settings = port.settings) :
    (connection.onMainPort op).settings = connection.settings := by
  cases hport : connection.mainPort with
  | none => rw [onMainPort_none hport]
  | some port =>
    rw [mainPort_onMainPort hport, settings, settings, hport]
    exact congrArg some (hop port connection.runtime)

theorem settings_turn (connection : ClientConnection) (system : ClientSystem) :
    (system.turn connection).settings = connection.settings := by
  cases system with
  | checkMainPortDropped =>
    simp only [ClientSystem.turn, checkDropped]
    split
    · rfl
    · rename_i port hport
      rw [settings, settings, hport]
      simp only [ClientPort.checkPortDropped]
      split <;> rfl
  | startConnections =>
    simp only [ClientSystem.turn, startUnlessConnected]
    split
    · rw [startConnection, settings_onMainPort]
      · rfl
      · intro port runtime
        obtain ⟨connecting, hconnect⟩ := port.connect_spec runtime
        rw [hconnect]
    · rfl
  | checkConnectedToMainPort =>
    apply settings_onMainPort
    intro port runtime
    simp only [ClientPort.checkConnectedToServer]
    split
    · rfl
    · split <;> rfl
  | checkListeningToMainPort =>
    apply settings_onMainPort
    intro port runtime
    obtain ⟨listening, hlistening⟩ := port.startListening_spec runtime
    rw [hlistening]

theorem settings_sent {τ : Type} [UserMessages τ] [Ciborium τ] {t : MessageType τ}
    (message : t.Message) :
    (connection.onMainPort fun port runtime => port.sendMessage message runtime).settings =
      connection.settings := by
  apply settings_onMainPort
  intro port runtime
  obtain ⟨⟨sendingMessages, messageQueue, hsent⟩, -⟩ := port.sendMessage_spec message runtime
  rw [hsent]

theorem settings_drained (connection : ClientConnection) :
    connection.drained.settings = connection.settings := by
  rw [settings, settings, ClientConnection.drained, Option.map_map]
  rfl

theorem settings_receive (connection : ClientConnection) (task : ClientTask)
    (event : ClientEvent) : (connection.receive task event).settings = connection.settings := by
  cases hport : connection.mainPort with
  | none => simp only [ClientConnection.receive, hport]
  | some port =>
    simp only [settings, ClientConnection.receive, hport]
    cases event <;> rfl

/-- The connection is one of a `ClientTcp`. -/
def OnTcp (connection : ClientConnection) : Prop :=
  ∃ settings, connection.settings = some (.tcp settings)

/-- The connection is one of a `ClientWebSocket`. -/
def OnWebSocket (connection : ClientConnection) : Prop :=
  ∃ settings, connection.settings = some (.webSocket settings)

theorem OnWebSocket.congr {connection' : ClientConnection} (h : connection.OnWebSocket)
    (hsettings : connection'.settings = connection.settings) : connection'.OnWebSocket := by
  rwa [OnWebSocket, hsettings]

/-- A `ClientWebSocket` has no domain name. -/
theorem OnWebSocket.named (h : connection.OnWebSocket) : connection.Named := by
  intro port settings hport hsettings
  obtain ⟨settings', hsettings'⟩ := h
  rw [ClientConnection.settings, hport] at hsettings'
  cases hsettings.symm.trans (Option.some.inj hsettings')

/-- Nor does its connect task ask for the address of a stream. -/
theorem OnWebSocket.not_panicked (h : connection.OnWebSocket)
    (hport : connection.mainPort = some port) (task : ClientTask) :
    ¬ClientEvent.panicked.By port.settings task := by
  obtain ⟨settings, hsettings⟩ := h
  rw [ClientConnection.settings, hport] at hsettings
  rw [Option.some.inj hsettings]
  cases task <;> exact id

theorem OnTcp.congr {connection' : ClientConnection} (h : connection.OnTcp)
    (hsettings : connection'.settings = connection.settings) : connection'.OnTcp := by
  rwa [OnTcp, hsettings]

theorem OnTcp.of_port (h : connection.OnTcp) (hport : connection.mainPort = some port) :
    ∃ settings, port.settings = .tcp settings := by
  obtain ⟨settings, hsettings⟩ := h
  rw [ClientConnection.settings, hport] at hsettings
  exact ⟨settings, Option.some.inj hsettings⟩

/-- The main port does one thing at a time. -/
def Single (connection : ClientConnection) : Prop :=
  ∀ port, connection.mainPort = some port → port.Single connection.running

namespace Single

theorem created {settings : PortSideSettings}
    (hnew : ClientConnection.new name settings = some connection) : connection.Single := by
  cases settings with
  | server settings => cases hnew
  | client settings =>
    cases hnew
    intro _ hport'
    cases hport'
    exact .new settings

/-- An operation of the main port that spawns its tasks. -/
theorem onMainPort {op : ClientPort → Option Runtime → ClientPort × List ClientTask}
    (h : connection.Single) (hop : ∀ port, connection.mainPort = some port →
      port.Single connection.running →
        (op port connection.runtime).1.Single
          (connection.running ++ (op port connection.runtime).2)) :
    (connection.onMainPort op).Single := by
  cases hport : connection.mainPort with
  | none => rwa [onMainPort_none hport]
  | some port =>
    rw [mainPort_onMainPort hport]
    intro _ hport'
    cases hport'
    exact hop port hport (h port hport)

theorem turn (h : connection.Single) (system : ClientSystem) :
    (system.turn connection).Single := by
  cases system with
  | checkMainPortDropped =>
    simp only [ClientSystem.turn, checkDropped]
    split
    · exact h
    · rename_i port hport
      intro _ hport'
      cases hport'
      exact (h port hport).checkPortDropped
  | startConnections =>
    simp only [ClientSystem.turn, startUnlessConnected]
    split
    · have hstarted : { connection with
          connected := true
          runtime := some (connection.runtime.getD .new) }.Single := h
      apply onMainPort hstarted
      intro port hport hsingle
      exact hsingle.connect _
    · exact h
  | checkConnectedToMainPort =>
    apply onMainPort h
    intro port hport hsingle
    rw [List.append_nil]
    exact hsingle.checkConnectedToServer
  | checkListeningToMainPort =>
    apply onMainPort h
    intro port hport hsingle
    exact hsingle.startListeningToServer _

theorem sent {τ : Type} [UserMessages τ] [Ciborium τ] {t : MessageType τ} {message : t.Message}
    (h : connection.Single) (htcp : connection.OnTcp) :
    (connection.onMainPort fun port runtime => port.sendMessage message runtime).Single := by
  apply onMainPort h
  intro port hport hsingle
  obtain ⟨settings, hsettings⟩ := htcp.of_port hport
  exact hsingle.sendMessage hsettings message _

theorem drained (h : connection.Single) : connection.drained.Single := by
  intro port hport
  obtain ⟨before, hbefore, rfl⟩ := Option.map_eq_some_iff.mp hport
  exact (h before hbefore).of_same ⟨rfl, rfl, rfl, rfl, rfl, rfl⟩ (Nat.le_refl _) (Nat.le_refl _)

theorem receive (h : connection.Single) (htcp : connection.OnTcp) {task : ClientTask}
    {event : ClientEvent} (hport : connection.mainPort = some port)
    (hruns : task ∈ connection.running) (hdoes : event.By port.settings task) :
    (connection.receive task event).Single := by
  obtain ⟨settings, hsettings⟩ := htcp.of_port hport
  simp only [ClientConnection.receive, hport]
  intro _ hport'
  cases hport'
  refine (h port hport).receive (fun settings' hweb => ?_) hruns hdoes
  cases hsettings.symm.trans hweb

/-- A connection that has something under way once it is started has a name that converts. -/
theorem named (h : connection.Single) (hfree : connection.Free)
    (hpending : connection.startUnlessConnected.Pending) : connection.Named := by
  intro port settings hport hsettings hstopped
  cases hname : settings.serverName with
  | true => rfl
  | false =>
    have hconnecting := hfree port hport hstopped
    have hconnect := ClientPort.connect_unnamed hsettings hname hconnecting
      (connection.runtime.getD .new)
    simp only [startUnlessConnected, hstopped, Bool.not_false, if_true, startConnection,
      ClientConnection.onMainPort, hport, hconnect, List.append_nil] at hpending
    have hunderWay := hpending _ rfl rfl
    exact absurd hunderWay ((h port hport).not_underWay hconnecting)

/-- Nothing is under way besides a connect task. -/
theorem not_pendingWithout (h : connection.Single) (hfree : connection.Free)
    (htcp : connection.OnTcp) {task : ClientTask} (hruns : task ∈ connection.running)
    (hconnects : task.connects = true) : ¬connection.PendingWithout task := by
  intro hwithout
  obtain ⟨settings, hsettings⟩ := htcp
  obtain ⟨port, hport, -⟩ := Option.map_eq_some_iff.mp hsettings
  cases hstarted : connection.connected with
  | true => exact (h port hport).not_underWay_erase hruns hconnects (hwithout port hport hstarted)
  | false =>
    apply (h port hport).not_underWay (hfree port hport hstarted)
    exact .inr (.inl ⟨task, hruns, hconnects⟩)

end Single

end ClientConnection

/-! ## The runs of a client -/

section Runs
open ClientApp
variable {τ : Type} [DecidableEq τ] [UserMessages τ] [Ciborium τ]

/-- Every started connection of the kind has something under way. -/
def ClientApp.PendingOn (app : ClientApp τ) (kind : ClientConnection → Prop) : Prop :=
  ∀ name connection, app.connections.lookup name = some connection → kind connection →
    connection.Pending

/-- On a `ClientTcp`, `start_connections` meets no domain name that does not convert, no handshake
fails that is to be tried again (only then does a connect task return without a word), and no new
stream has lost its peer when its address is asked for. -/
def KeepsTrying (t : ClientTransition τ) : Prop :=
  ∀ name connection, t.pre.connections.lookup name = some connection → connection.OnTcp →
    (t.input = .first .startConnections → connection.Named) ∧
      ∀ task, task.connects = true →
        t.input ≠ .task name task .returned ∧ t.input ≠ .task name task .panicked

/-- On a `ClientWebSocket`, a connect task returns without a stream or a notification only if
something else is under way. -/
def ReturnsBesides (t : ClientTransition τ) : Prop :=
  ∀ name connection task, t.pre.connections.lookup name = some connection →
    connection.OnWebSocket → task.connects = true → t.input = .task name task .returned →
      connection.PendingWithout task

variable {app : ClientApp τ} {input : ClientInput τ} {name : String} {after : ClientConnection}
  {t : ClientTransition τ}

/-- **One step of a client**, for a connection that starts and whose connect task does not return
while it is all that is under way. -/
theorem pending_change (h : Change app input name after)
    (hpending : ∀ before, app.connections.lookup name = some before →
      after.settings = before.settings → before.Pending ∧ before.Free)
    (hnamed : ∀ before, app.connections.lookup name = some before →
      after.settings = before.settings → input = .first .startConnections → before.Named)
    (hreturns : ∀ before port task event, app.connections.lookup name = some before →
      before.mainPort = some port → after.settings = before.settings → task.connects = true →
        event.silent = true → event.By port.settings task → input = .task name task event →
          before.PendingWithout task) :
    after.Pending ∧ after.Free := by
  cases h with
  | created new => exact ClientConnection.Pending.created new
  | kept lookup => exact hpending _ lookup rfl
  | @turned system before lookup asked =>
    have hsettings := before.settings_turn system
    apply ClientConnection.Pending.turn (hpending before lookup hsettings)
    rintro rfl
    exact hnamed before lookup hsettings asked
  | @received task event before port lookup asked runs installed does =>
    have hsettings := before.settings_receive task event
    apply ClientConnection.Pending.receive (hpending before lookup hsettings) installed
    intro hsilent hconnects
    exact hreturns before port task event lookup installed hsettings hconnects hsilent does asked
  | sent lookup =>
    exact ClientConnection.Pending.sent
      (hpending _ lookup (ClientConnection.settings_sent _))
  | @drained before lookup =>
    exact ClientConnection.Pending.drained (hpending before lookup before.settings_drained)
  | @identified localUuid before lookup =>
    have hbefore := hpending before lookup rfl
    exact ⟨hbefore.1, hbefore.2⟩

theorem single_change (h : Change app input name after) (htcp : after.OnTcp)
    (hsingle : ∀ before, app.connections.lookup name = some before → before.OnTcp →
      before.Single) : after.Single := by
  cases h with
  | created new => exact .created new
  | kept lookup => exact hsingle _ lookup htcp
  | @turned system before lookup =>
    have hbefore := htcp.congr (before.settings_turn system).symm
    exact (hsingle before lookup hbefore).turn system
  | @received task event before port lookup _ runs installed does =>
    have hbefore := htcp.congr (before.settings_receive task event).symm
    exact (hsingle before lookup hbefore).receive hbefore installed runs does
  | @sent _ message before lookup =>
    have hbefore := htcp.congr (ClientConnection.settings_sent message).symm
    exact (hsingle before lookup hbefore).sent hbefore
  | @drained before lookup =>
    exact (hsingle before lookup (htcp.congr before.settings_drained.symm)).drained
  | @identified localUuid before lookup => exact hsingle before lookup htcp

/-- What is under way after a task has ended without a word. -/
theorem pendingWithout_of_silent {connection : ClientConnection} {task : ClientTask}
    {event : ClientEvent} (hsilent : event.silent = true)
    (hof : t.Of (clientMachine τ)) (hinput : t.input = .task name task event)
    (hlookup : t.pre.connections.lookup name = some connection)
    (hafter : ∀ after, t.post.connections.lookup name = some after →
      after.settings = connection.settings → after.Pending) :
    task ∈ connection.running ∧ connection.PendingWithout task := by
  have hstep : t.pre.step (.task name task event) = some (t.post, t.output) := hinput ▸ hof
  obtain ⟨hruns, hpost⟩ := step_task hstep hlookup
  have hpending := hafter _ hpost (connection.settings_receive task event)
  refine ⟨hruns, fun port hport hstarted => ?_⟩
  simp only [ClientConnection.receive, hport] at hpending
  cases event with
  | returned | panicked => exact hpending port rfl hstarted
  | connectedToServer | connectionDown | messageReceived => cases hsilent

/-- **When a `ClientTcp` is never stuck**: exactly when no domain name fails to convert, no
handshake fails that is to be tried again, and no new stream has lost its peer. -/
theorem tcp_pending_iff (ts : List (ClientTransition τ)) (app : ClientApp τ)
    (h : (clientMachine τ).Run .new ts app) :
    (∀ t ∈ ts, t.post.PendingOn ClientConnection.OnTcp) ↔ ∀ t ∈ ts, KeepsTrying t := by
  refine h.forall_iff (fun _ app => ∀ name connection, app.connections.lookup name =
    some connection → connection.OnTcp → (connection.Pending ∧ connection.Free) ∧
      connection.Single) ?_ ?_ ?_
  · intro name connection hlookup
    cases hlookup
  · intro ts t _ hbefore hof hkeeps
    have hafter : ∀ name connection, t.post.connections.lookup name = some connection →
        connection.OnTcp → (connection.Pending ∧ connection.Free) ∧ connection.Single := by
      intro name after hlookup htcp
      have hchange := step_change hof hlookup
      have hcarry : ∀ before : ClientConnection, after.settings = before.settings →
          before.OnTcp := fun before hsettings => htcp.congr hsettings.symm
      refine ⟨pending_change hchange ?_ ?_ ?_, single_change hchange htcp ?_⟩
      · intro before hlookup hsettings
        exact (hbefore name before hlookup (hcarry before hsettings)).1
      · intro before hlookup hsettings
        exact (hkeeps name before hlookup (hcarry before hsettings)).1
      · intro before port task event hlookup _ hsettings hconnects hsilent _ hinput
        have hkept := (hkeeps name before hlookup (hcarry before hsettings)).2 task hconnects
        cases event with
        | returned => exact absurd hinput hkept.1
        | panicked => exact absurd hinput hkept.2
        | connectedToServer | connectionDown | messageReceived => cases hsilent
      · intro before hlookup htcp
        exact (hbefore name before hlookup htcp).2
    exact ⟨fun name connection hlookup htcp => (hafter name connection hlookup htcp).1.1, hafter⟩
  · intro ts t _ hbefore hof hafter name connection hlookup htcp
    obtain ⟨⟨hpending, hfree⟩, hsingle⟩ := hbefore name connection hlookup htcp
    constructor
    · intro hinput
      have hstep : t.pre.step (.first .startConnections) = some (t.post, t.output) := hinput ▸ hof
      have hsystem : ClientSystem.startConnections ≠ .checkMainPortDropped := fun h => by cases h
      have hpost : (ClientSystem.startConnections.run t.pre.connections).lookup name = _ :=
        ClientSystem.lookup_run hsystem name
      rw [← step_first hstep, hlookup] at hpost
      have hsettings := connection.settings_turn .startConnections
      exact hsingle.named hfree (hafter name _ hpost (htcp.congr hsettings))
    · intro task hconnects
      have hspeaks : ∀ event : ClientEvent, event.silent = true →
          t.input ≠ .task name task event := by
        intro event hsilent hinput
        have hended := pendingWithout_of_silent hsilent hof hinput hlookup
          fun after hpost hsettings => hafter name after hpost (htcp.congr hsettings)
        exact hsingle.not_pendingWithout hfree htcp hended.1 hconnects hended.2
      exact ⟨hspeaks .returned rfl, hspeaks .panicked rfl⟩

/-- **When a `ClientWebSocket` is never stuck**: exactly when no connect task returns without a
stream or a notification while nothing else is under way. -/
theorem webSocket_pending_iff (ts : List (ClientTransition τ)) (app : ClientApp τ)
    (h : (clientMachine τ).Run .new ts app) :
    (∀ t ∈ ts, t.post.PendingOn ClientConnection.OnWebSocket) ↔ ∀ t ∈ ts, ReturnsBesides t := by
  refine h.forall_iff (fun _ app => ∀ name connection, app.connections.lookup name =
    some connection → connection.OnWebSocket → connection.Pending ∧ connection.Free) ?_ ?_ ?_
  · intro name connection hlookup
    cases hlookup
  · intro ts t _ hbefore hof hreturns
    have hafter : ∀ name connection, t.post.connections.lookup name = some connection →
        connection.OnWebSocket → connection.Pending ∧ connection.Free := by
      intro name after hlookup hweb
      apply pending_change (step_change hof hlookup)
      · intro before hlookup hsettings
        exact hbefore name before hlookup (hweb.congr hsettings.symm)
      · intro before hlookup hsettings _
        exact (hweb.congr hsettings.symm).named
      · intro before port task event hlookup hport hsettings hconnects hsilent hdoes hinput
        have hweb := hweb.congr hsettings.symm
        cases event with
        | returned => exact hreturns name before task hlookup hweb hconnects hinput
        | panicked => exact absurd hdoes (hweb.not_panicked hport task)
        | connectedToServer | connectionDown | messageReceived => cases hsilent
    exact ⟨fun name connection hlookup hweb => (hafter name connection hlookup hweb).1, hafter⟩
  · intro ts t _ hbefore hof hafter name connection task hlookup hweb hconnects hinput
    exact (pendingWithout_of_silent rfl hof hinput hlookup fun after hpost hsettings =>
      hafter name after hpost (hweb.congr hsettings)).2

end Runs

namespace Sample

/-- A client whose connect task returns in the first frame, with neither a stream nor a
notification. -/
def givenUpInputs (settings : ClientSettings) (tls : Bool) : List (ClientInput Sample) :=
  .startConnection "main" (.client settings) ::
    (ClientSystem.firstChain.map .first ++ [.task "main" (.connect true tls) .returned])

def givenUpRun (settings : ClientSettings) (tls : Bool) :
    List (ClientTransition Sample) × ClientApp Sample :=
  ((clientMachine Sample).exec .new (givenUpInputs settings tls)).getD ([], .new)

/-- A `ClientTcp` that speaks TLS. -/
def overTls : ClientSettings := .tcp { TcpSettingsClient.default with tls := true }

theorem run_overTls :
    (clientMachine Sample).Run .new (givenUpRun overTls true).1 (givenUpRun overTls true).2 := by
  have hexec : (clientMachine Sample).exec .new (givenUpInputs overTls true) =
      some (givenUpRun overTls true) := rfl
  exact .of_exec hexec

/-- A `ClientWebSocket` with the default settings. -/
def overWebSocket : ClientSettings := .webSocket .default

theorem run_overWebSocket :
    (clientMachine Sample).Run .new (givenUpRun overWebSocket false).1
      (givenUpRun overWebSocket false).2 := by
  have hexec : (clientMachine Sample).exec .new (givenUpInputs overWebSocket false) =
      some (givenUpRun overWebSocket false) := rfl
  exact .of_exec hexec

end Sample

theorem tcp_pending_overTls :
    (∀ t ∈ (Sample.givenUpRun Sample.overTls true).1,
      t.post.PendingOn ClientConnection.OnTcp) ↔
        ∀ t ∈ (Sample.givenUpRun Sample.overTls true).1, KeepsTrying t :=
  tcp_pending_iff _ _ Sample.run_overTls

/-- After the handshake has failed the client is started, and nothing will change that. -/
theorem overTls_stuck :
    ¬∀ ts app, (clientMachine Sample).Run .new ts app →
      ∀ t ∈ ts, t.post.PendingOn ClientConnection.OnTcp := by
  intro h
  have hpending := h _ _ Sample.run_overTls
    ((Sample.givenUpRun Sample.overTls true).1.getLast (by decide)) (List.getLast_mem _)
    "main" _ rfl ⟨_, rfl⟩ _ rfl rfl
  exact ClientPort.Single.not_underWay_of_counts rfl rfl rfl rfl hpending

theorem webSocket_pending_overWebSocket :
    (∀ t ∈ (Sample.givenUpRun Sample.overWebSocket false).1,
      t.post.PendingOn ClientConnection.OnWebSocket) ↔
        ∀ t ∈ (Sample.givenUpRun Sample.overWebSocket false).1, ReturnsBesides t :=
  webSocket_pending_iff _ _ Sample.run_overWebSocket

/-- After the attempt has failed the client is started, and nothing will change that. -/
theorem overWebSocket_stuck :
    ¬∀ ts app, (clientMachine Sample).Run .new ts app →
      ∀ t ∈ ts, t.post.PendingOn ClientConnection.OnWebSocket := by
  intro h
  have hpending := h _ _ Sample.run_overWebSocket
    ((Sample.givenUpRun Sample.overWebSocket false).1.getLast (by decide)) (List.getLast_mem _)
    "main" _ rfl ⟨_, rfl⟩ _ rfl rfl
  exact ClientPort.Single.not_underWay_of_counts rfl rfl rfl rfl hpending

end Inator
