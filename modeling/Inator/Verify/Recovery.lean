import Inator.Lib.LeadsTo
import Inator.Verify.Listener

/-! # A listener that has gone comes back

As long as its connection may reconnect and the systems of the schedule run again and again, a
server comes back to accepting connections, whatever becomes of its listeners: each stage of a
listener but `accepting` leads to the next one (`ListensOn.leads`). -/

namespace Inator
open Machine Temporal Filter

/-! ## What a connection needs for it -/

namespace ServerPort
variable {port : ServerPort} {started : Bool} {running : List Task}

/-- A port with a bound listener installs it. -/
theorem checkPortConnected_bound (h : port.view started running = Stage.bound.view) :
    port.checkPortConnected.1.view started running = Stage.installed.view := by
  refine (checkPortConnected_view h).resolve_left fun hsame => ?_
  have hdown : port.connected = false := congrArg ListenerView.connected h
  have hone : port.portConnected.length = 1 := congrArg ListenerView.listeners h
  obtain ⟨tcpListener, hqueue⟩ := List.length_eq_one_iff.mp hone
  have hup : port.checkPortConnected.1.connected = false := congrArg ListenerView.connected hsame
  simp only [checkPortConnected, hdown, hqueue, Bool.false_eq_true, if_false] at hup
  cases hup

/-- With a runtime, a port with an installed listener accepts on it. -/
theorem startAcceptingConnections_installed
    (h : port.view started running = Stage.installed.view) (runtime : Runtime)
    (hlimit : port.settings.listener.maxConnections ≤ Semaphore.maxPermits) :
    (port.startAcceptingConnections (some runtime)).1.view started
        (running ++ (port.startAcceptingConnections (some runtime)).2.filter (!·.panics)) =
      Stage.accepting.view := by
  have haffords : port.Affords (some runtime) := fun _ _ _ => hlimit
  refine (startAcceptingConnections_view h haffords).resolve_left fun hsame => ?_
  have hup : port.connected = true := congrArg ListenerView.connected h
  have haccepting : port.acceptingConnections = false :=
    congrArg ListenerView.acceptingConnections h
  have hinstalled : port.tcpListener.isSome = true := congrArg ListenerView.installed h
  obtain ⟨tcpListener, hlistener⟩ := Option.isSome_iff_exists.mp hinstalled
  have hidle : (port.startAcceptingConnections (some runtime)).1.acceptingConnections = false :=
    congrArg ListenerView.acceptingConnections hsame
  simp only [startAcceptingConnections, hup, haccepting, hlistener, Bool.not_true, Bool.or_false,
    Bool.false_eq_true, if_false, Bool.true_eq_false] at hidle

theorem checkPortDropped_settings (port : ServerPort) :
    port.checkPortDropped.1.settings = port.settings := by
  rw [checkPortDropped]
  split <;> rfl

end ServerPort

/-- The settings let a port reconnect, and there is a semaphore for its accept tasks. -/
structure ServerSettings.Lasting (settings : ServerSettings) : Prop where
  reconnects : settings.listener.autoReconnect = true
  limit : settings.listener.maxConnections ≤ Semaphore.maxPermits

namespace ServerConnection
variable {connection : ServerConnection} {stage : Stage}

/-- The connection may reconnect, and if it was started it has its runtime. -/
structure Durable (connection : ServerConnection) : Prop where
  lasts : ∃ port, connection.mainPort = some port ∧ port.settings.Lasting
  runtime : connection.connected = true → connection.runtime.isSome

namespace Durable

theorem onMainPort (h : connection.Durable)
    {op : ServerPort → Option Runtime → ServerPort × List Task}
    (hop : ∀ port runtime, (op port runtime).1.settings = port.settings) :
    (connection.onMainPort op).Durable := by
  obtain ⟨port, hport, hlasts⟩ := h.lasts
  simp only [ServerConnection.onMainPort, hport]
  exact ⟨⟨_, rfl, hop port _ ▸ hlasts⟩, h.runtime⟩

theorem turn (h : connection.Durable) (system : FirstSystem) :
    (system.turn connection).Durable := by
  cases system with
  | checkMainPortDropped =>
    obtain ⟨port, hport, hlasts⟩ := h.lasts
    simp only [FirstSystem.turn, checkDropped, hport]
    refine ⟨⟨_, rfl, port.checkPortDropped_settings ▸ hlasts⟩, fun hstarted => ?_⟩
    dsimp only at hstarted
    split at hstarted
    · cases hstarted
    · exact h.runtime hstarted
  | startConnections =>
    simp only [FirstSystem.turn]
    split
    · have hstarted : Durable { connection with
          connected := true
          runtime := some (connection.runtime.getD .new) } := ⟨h.lasts, fun _ => rfl⟩
      exact hstarted.onMainPort fun port runtime => PortOp.run_settings port runtime .connect
    · exact h
  | receiveMainPortListener =>
    exact h.onMainPort fun port _ => PortOp.run_settings port none .checkPortConnected
  | startAcceptingConnectionsMainPort =>
    exact h.onMainPort fun port runtime =>
      PortOp.run_settings port runtime .startAcceptingConnections
  | checkClientDisconnectedFromPort | checkClientConnectedToPort =>
    exact h.onMainPort fun port _ => PortOp.run_settings port none .checkClientsDiconnected
  | startListeningNotAuthenticated =>
    exact h.onMainPort fun port runtime =>
      PortOp.run_settings port runtime .checkNotAuthenticatedClients

theorem drained (h : connection.Durable) : connection.drained.Durable := by
  obtain ⟨port, hport, hlasts⟩ := h.lasts
  refine ⟨⟨port.checkMessagesReceived.1, ?_, hlasts⟩, h.runtime⟩
  rw [ServerConnection.drained, hport]
  rfl

theorem authenticateClient (h : connection.Durable) (uuid : Uuid) (portNumber : Nat) :
    (connection.authenticateClient uuid portNumber).Durable := by
  rw [ServerConnection.authenticateClient]
  split
  · exact h
  · have hentered : Durable { connection with
        clientsConnected := connection.clientsConnected.insert uuid [0] } :=
      ⟨h.lasts, h.runtime⟩
    dsimp only
    split
    · refine hentered.onMainPort fun port runtime => ?_
      cases hinfos : port.notAuthenticatedListening.lookup uuid with
      | none => rw [ServerPort.authenticateClient_none hinfos]
      | some infos => rw [ServerPort.authenticateClient_some hinfos]
    · exact hentered

theorem settled {τ : Type} [DecidableEq τ] [UserMessages τ] [Ciborium τ] (h : connection.Durable)
    (name : String) (calls : List (AuthenticateCall τ)) :
    (calls.foldl (settleCall name) connection).Durable := by
  apply List.foldlRecOn _ _ h
  intro settled hsettled call _
  unfold settleCall
  split
  · split
    · exact hsettled
    · unfold acceptClient
      dsimp only
      split
      · exact (hsettled.authenticateClient _ _).onMainPort fun _ _ => rfl
      · exact hsettled.authenticateClient _ _
  · exact hsettled

theorem receive (h : connection.Durable) (task : Task) (event : TaskEvent) :
    (connection.receive task event).Durable := by
  obtain ⟨running, heq⟩ := connection.receive_eq task event
  have hreceived : (connection.onMainPort fun port _ => (port.receive event, [])).Durable :=
    h.onMainPort fun port _ => port.receive_settings event
  rw [heq]
  exact ⟨hreceived.lasts, hreceived.runtime⟩

end Durable

theorem Durable.affords (h : connection.Durable) (system : FirstSystem) :
    connection.Affords system := by
  rintro - port hport - - -
  obtain ⟨port', hport', hlasts⟩ := h.lasts
  cases hport.symm.trans hport'
  exact hlasts.limit

/-- It stays when its listener is gone. -/
theorem Durable.toDisconnect (h : connection.Durable) : connection.toDisconnect = [] := by
  obtain ⟨port, hport, hlasts⟩ := h.lasts
  have hdropped : port.checkPortDropped.2 = (false, false) ∨
      port.checkPortDropped.2 = (true, true) := by
    rw [ServerPort.checkPortDropped]
    split
    · exact .inl rfl
    · rw [hlasts.reconnects]
      exact .inr rfl
  rcases hdropped with hdropped | hdropped <;>
    simp only [ServerConnection.toDisconnect, hport, hdropped, Bool.false_eq_true, if_false,
      if_true]

end ServerConnection

/-! ## One step -/

/-- A connection that is there is not started again. -/
theorem NetworkConnections.startConnection_of_some {T : Type} [ConnectionTrait T]
    {connections : NetworkConnections T} {name : String} {before : T}
    (h : connections.lookup name = some before) (connectionName : String)
    (settings : PortSideSettings) :
    (startConnection connections connectionName settings).lookup name = some before := by
  unfold startConnection
  split
  · exact h
  · rename_i hnew
    split
    · exact h
    · refine (AList.lookup_insert_ne ?_).trans h
      rintro rfl
      have hmem : name ∈ connections := AssocMap.mem_of_lookup h
      simp only [canConnect, hmem, not_true, decide_false, Bool.not_false] at hnew

section Step
open ServerApp
variable {τ : Type} [DecidableEq τ] [UserMessages τ] [Ciborium τ]
  {app app' : ServerApp τ} {input : ServerInput τ} {output : ServerOutput τ} {name : String}
  {before : ServerConnection} {stage : Stage}

/-- A system takes its turn at a connection that may reconnect. -/
theorem lookup_run (hnamed : app.Named) (hlookup : app.connections.lookup name = some before)
    (hdurable : before.Durable) (system : FirstSystem) :
    (system.run app.connections).lookup name = some (system.turn before) := by
  have each : ∀ f : ServerConnection → ServerConnection,
      (AssocMap.mapVals (fun _ => f) app.connections).lookup name = some (f before) := by
    intro f
    rw [AssocMap.lookup_mapVals, hlookup, Option.map_some]
  cases system with
  | checkMainPortDropped =>
    refine (lookup_checkMainPortDropped hnamed hlookup).trans ?_
    rw [if_pos hdurable.toDisconnect]
    rfl
  | startConnections | receiveMainPortListener | startAcceptingConnectionsMainPort => exact each _
  | checkClientDisconnectedFromPort | checkClientConnectedToPort => exact each _
  | startListeningNotAuthenticated => exact each _

/-- **What a step does to a connection that may reconnect**, if it does not disconnect it. -/
theorem step_durable (hnamed : app.Named) (h : app.step input = some (app', output))
    (hchain : input.byChain) (hstays : input ≠ .disconnect name)
    (hlookup : app.connections.lookup name = some before) (hdurable : before.Durable) :
    ∃ after, app'.connections.lookup name = some after ∧ after.Durable ∧
      ∀ stage, before.At stage → after.AtOrNext stage := by
  have hkept : ∀ {after}, app'.connections.lookup name = some after → after.Durable →
      before.Keeps after → ∃ after, app'.connections.lookup name = some after ∧ after.Durable ∧
        ∀ stage, before.At stage → after.AtOrNext stage :=
    fun hafter hdurable' hkeeps =>
      ⟨_, hafter, hdurable', fun stage hat => .inl (hkeeps.2 stage hat)⟩
  have hmodified : ∀ {connectionName f}, app'.connections =
      AssocMap.modify connectionName f app.connections → (f before).Durable →
        (connectionName = name → ∀ stage, before.At stage → (f before).AtOrNext stage) →
          ∃ after, app'.connections.lookup name = some after ∧ after.Durable ∧
            ∀ stage, before.At stage → after.AtOrNext stage := by
    intro connectionName f hconnections hdurable' hstage
    by_cases hname : name = connectionName
    · refine ⟨f before, ?_, hdurable', hstage hname.symm⟩
      rw [hconnections, ← hname, AssocMap.lookup_modify, hlookup, Option.map_some]
    · refine hkept ?_ hdurable (.refl before)
      rw [hconnections, AssocMap.lookup_modify_ne _ _ hname, hlookup]
  cases input with
  | first system =>
    refine ⟨system.turn before, ?_, hdurable.turn system,
      fun stage hat => hat.turn_stage (hdurable.affords system)⟩
    rw [step_first h]
    exact lookup_run hnamed hlookup hdurable system
  | readMessagesServer =>
    obtain ⟨connections, commands, dispatched, hread, -, -, rfl⟩ := step_readMessagesServer h
    obtain ⟨commands', -, heq⟩ := Panicking.bind_eq_ok.mp hread
    cases heq
    refine hkept ?_ hdurable.drained before.keeps_drained
    rw [AssocMap.lookup_mapVals, hlookup, Option.map_some]
  | authenticationMessageServer t handler =>
    obtain ⟨connections, calls, hloop, rfl, rfl⟩ := step_authenticationMessageServer h
    refine hkept ?_ (hdurable.settled name calls) (before.keeps_settled name calls)
    rw [(authenticationLoop_spec hloop).1 name, hlookup, Option.map_some]
  | startConnection connectionName settings =>
    cases h
    exact hkept (NetworkConnections.startConnection_of_some hlookup _ _) hdurable (.refl before)
  | disconnect connectionName =>
    cases h
    refine hkept ?_ hdurable (.refl before)
    refine (AList.lookup_erase_ne ?_).trans hlookup
    rintro rfl
    exact hstays rfl
  | portOp connectionName op =>
    have hdurable' : (before.onMainPort fun port runtime => op.run port runtime).Durable :=
      hdurable.onMainPort fun port runtime => PortOp.run_settings port runtime op
    refine hmodified (portOp_spec h).1 hdurable' fun _ stage hat => .inl ?_
    exact (ServerConnection.keeps_portOp hchain).2 stage hat
  | sendMessage connectionName t message target =>
    cases h
    have hdurable' : (before.onMainPort fun port runtime =>
        (port, port.sendMessage message target runtime)).Durable :=
      hdurable.onMainPort fun _ _ => rfl
    refine hmodified rfl hdurable' fun _ stage hat => .inl ?_
    exact (ServerConnection.keeps_sent message target).2 stage hat
  | task connectionName task event =>
    obtain ⟨hconnections, ⟨connection, hconnection, hruns, hdoes⟩, -⟩ := task_spec h
    refine hmodified hconnections (hdurable.receive task event) fun hname stage hat => ?_
    subst hname
    cases hlookup.symm.trans hconnection
    exact hat.receive_stage hruns hdoes
  | registerMessage | updateMessages =>
    cases h
    exact hkept hlookup hdurable (.refl before)

/-- The step leads from a stage to the next one. -/
def ServerInput.Helps (name : String) (input : ServerInput τ) : Stage → Prop
  | .idle => input = .first .startConnections
  | .binding => ∃ tcpListener, input = .task name .bind (.portConnected tcpListener)
  | .bound => input = .first .receiveMainPortListener
  | .installed => input = .first .startAcceptingConnectionsMainPort
  | .accepting => False
  | .down => input = .first .checkMainPortDropped

/-- **The step that helps leads to the next stage.** -/
theorem step_helps (hnamed : app.Named) (h : app.step input = some (app', output))
    (hlookup : app.connections.lookup name = some before) (hdurable : before.Durable)
    (hat : before.At stage) (hhelps : input.Helps name stage) :
    ∃ after, app'.connections.lookup name = some after ∧ after.Durable ∧ after.At stage.next := by
  have hturn : ∀ system, input = .first system → (system.turn before).At stage.next →
      ∃ after, app'.connections.lookup name = some after ∧ after.Durable ∧
        after.At stage.next := by
    rintro system rfl hnext
    refine ⟨system.turn before, ?_, hdurable.turn system, hnext⟩
    rw [step_first h]
    exact lookup_run hnamed hlookup hdurable system
  obtain ⟨port, hport, hview⟩ := hat
  cases stage with
  | idle =>
    have hstopped : before.connected = false := congrArg ListenerView.started hview
    refine hturn _ hhelps ?_
    simp only [FirstSystem.turn, hstopped, Bool.not_false, if_true]
    exact ServerConnection.At.startConnection ⟨port, hport, hview⟩
  | binding =>
    obtain ⟨tcpListener, rfl⟩ := hhelps
    obtain ⟨hconnections, ⟨connection, hconnection, hruns, -⟩, -⟩ := task_spec h
    cases hlookup.symm.trans hconnection
    refine ⟨before.receive .bind (.portConnected tcpListener), ?_, hdurable.receive _ _, ?_⟩
    · rw [hconnections, AssocMap.lookup_modify, hlookup, Option.map_some]
    · simp only [ServerConnection.receive, hport]
      exact ⟨_, rfl, ServerPort.receive_portConnected hview hruns tcpListener⟩
  | bound =>
    refine hturn _ hhelps ?_
    simp only [FirstSystem.turn, ServerConnection.onMainPort, hport, List.filter_nil,
      List.append_nil]
    exact ⟨_, rfl, ServerPort.checkPortConnected_bound hview⟩
  | installed =>
    have hstarted : before.connected = true := congrArg ListenerView.started hview
    obtain ⟨runtime, hruntime⟩ := Option.isSome_iff_exists.mp (hdurable.runtime hstarted)
    obtain ⟨port', hport', hlasts⟩ := hdurable.lasts
    cases hport.symm.trans hport'
    refine hturn _ hhelps ?_
    simp only [FirstSystem.turn, ServerConnection.onMainPort, hport, hruntime]
    exact ⟨_, rfl, ServerPort.startAcceptingConnections_installed hview runtime hlasts.limit⟩
  | accepting => exact hhelps.elim
  | down =>
    refine hturn _ hhelps ?_
    exact ServerConnection.checkDropped_down ⟨port, hport, hview⟩

end Step

/-! ## In an execution -/

section Course
variable {τ : Type} [DecidableEq τ] [UserMessages τ] [Ciborium τ] {name : String} {start n m : Nat}

/-- At the time `start` the application starts a connection that may reconnect, with a limit that
a semaphore may have, and it does not disconnect it later. It leaves the listeners to the systems
of the schedule, which run again and again, and a task that binds a listener comes to have
one. -/
structure ListensOn (e : Execution (serverMachine τ) .new) (name : String) (start : Nat)
    (settings : ServerSettings) : Prop where
  chain : ∀ n, (e.input n).byChain
  fresh : (e.state start).connections.lookup name = none
  starts : e.input start = .startConnection name (.server settings)
  lasts : settings.Lasting
  stays : ∀ n, start < n → e.input n ≠ .disconnect name
  systems : ∀ system, ∃ᶠ n in atTop, e.input n = .first system
  binds : WeaklyFair
    (fun n => ∃ connection, (e.state n).connections.lookup name = some connection ∧
      .bind ∈ connection.running)
    fun n => ∃ tcpListener, e.input n = .task name .bind (.portConnected tcpListener)

namespace ListensOn
variable {e : Execution (serverMachine τ) .new} {settings : ServerSettings} {stage : Stage}

/-- The connection is there, may reconnect, and its listener is at this stage. -/
def At (e : Execution (serverMachine τ) .new) (name : String) (stage : Stage) (n : Nat) : Prop :=
  ∃ connection, (e.state n).connections.lookup name = some connection ∧ connection.Durable ∧
    connection.At stage

theorem named (h : ListensOn e name start settings) (n : Nat) : (e.state n).Named := by
  induction n with
  | zero =>
    rw [e.start]
    intro name connection hlookup
    cases hlookup
  | succ n ih => exact named_step ih (e.step n) (h.chain n)

theorem next (h : ListensOn e name start settings) (hn : start < n) (hat : At e name stage n) :
    At e name stage (n + 1) ∨ At e name stage.next (n + 1) := by
  obtain ⟨before, hlookup, hdurable, hstage⟩ := hat
  obtain ⟨after, hafter, hdurable', hnext⟩ :=
    step_durable (h.named n) (e.step n) (h.chain n) (h.stays n hn) hlookup hdurable
  rcases hnext stage hstage with hsame | hmoved
  · exact .inl ⟨after, hafter, hdurable', hsame⟩
  · exact .inr ⟨after, hafter, hdurable', hmoved⟩

/-- The connection stays, at one stage or another. -/
theorem present (h : ListensOn e name start settings) (hn : start < n) :
    ∃ stage, At e name stage n := by
  induction n, hn using Nat.le_induction with
  | base =>
    have hstep : ServerApp.step (e.state start) (e.input start) =
      some (e.state (start + 1), e.output start) := e.step start
    rw [h.starts] at hstep
    have hconnections : NetworkConnections.startConnection (e.state start).connections name
        (.server settings) = (e.state (start + 1)).connections :=
      congrArg (fun result => result.1.connections) (Option.some.inj hstep)
    have hnew : name ∉ (e.state start).connections := AList.lookup_eq_none.mp h.fresh
    obtain ⟨connection, hnamed⟩ : ∃ connection,
        ServerConnection.new name (.server settings) = some connection := ⟨_, rfl⟩
    refine ⟨.idle, connection, ?_, ?_, (new_staged hnamed).2⟩
    · rw [← hconnections]
      simp only [NetworkConnections.startConnection, NetworkConnections.canConnect, hnew,
        not_false_eq_true, decide_true, Bool.not_true, Bool.false_eq_true, if_false,
        ConnectionTrait.new, hnamed]
      exact AList.lookup_insert _
    · cases hnamed
      refine ⟨⟨_, rfl, h.lasts⟩, fun hstarted => ?_⟩
      cases hstarted
  | succ n hn ih =>
    obtain ⟨stage, hat⟩ := ih
    rcases h.next hn hat with hsame | hmoved
    · exact ⟨stage, hsame⟩
    · exact ⟨stage.next, hmoved⟩

/-- As long as the listener stays at a stage, the step that helps comes. -/
theorem fair (h : ListensOn e name start settings) (hstage : stage ≠ .accepting) :
    WeaklyFair (At e name stage) fun n => (e.input n).Helps name stage := by
  cases stage with
  | idle => exact fun _ => h.systems .startConnections
  | binding =>
    refine fun hcan => h.binds (hcan.mono fun n => ?_)
    rintro ⟨connection, hlookup, -, port, -, hview⟩
    have hone : 0 < connection.running.countP Task.binds := by
      have hbinds := congrArg ListenerView.binds hview
      exact hbinds.ge
    obtain ⟨task, htask, hbinds⟩ := List.countP_pos_iff.mp hone
    cases task with
    | bind => exact ⟨connection, hlookup, htask⟩
    | _ => cases hbinds
  | bound => exact fun _ => h.systems .receiveMainPortListener
  | installed => exact fun _ => h.systems .startAcceptingConnectionsMainPort
  | accepting => exact absurd rfl hstage
  | down => exact fun _ => h.systems .checkMainPortDropped

/-- **Each stage leads to the next one.** -/
theorem leads (h : ListensOn e name start settings) (hstage : stage ≠ .accepting) :
    LeadsTo (fun n => start < n ∧ At e name stage n)
      fun n => start < n ∧ At e name stage.next n := by
  refine .ensures (h.fair hstage) (fun n hn _ => hn.2) (fun n hn _ => ?_) fun n hn _ hhelps => ?_
  · have hlater := Nat.lt_succ_of_lt hn.1
    exact (h.next hn.1 hn.2).symm.imp (fun hat => ⟨hlater, hat⟩) fun hat => ⟨hlater, hat⟩
  · obtain ⟨hn, before, hlookup, hdurable, hat⟩ := hn
    exact ⟨Nat.lt_succ_of_lt hn, step_helps (h.named n) (e.step n) hlookup hdurable hat hhelps⟩

/-- Every stage leads to `accepting`. -/
theorem accepts (h : ListensOn e name start settings) (stage : Stage) :
    LeadsTo (fun n => start < n ∧ At e name stage n)
      fun n => start < n ∧ ListensOn.At e name .accepting n := by
  have hinstalled : LeadsTo (fun n => start < n ∧ At e name .installed n)
      fun n => start < n ∧ At e name .accepting n := h.leads (by rintro ⟨⟩)
  have hbound : LeadsTo (fun n => start < n ∧ At e name .bound n)
      fun n => start < n ∧ At e name .accepting n := (h.leads (by rintro ⟨⟩)).trans hinstalled
  have hbinding : LeadsTo (fun n => start < n ∧ At e name .binding n)
      fun n => start < n ∧ At e name .accepting n := (h.leads (by rintro ⟨⟩)).trans hbound
  have hidle : LeadsTo (fun n => start < n ∧ At e name .idle n)
      fun n => start < n ∧ At e name .accepting n := (h.leads (by rintro ⟨⟩)).trans hbinding
  cases stage with
  | idle => exact hidle
  | binding => exact hbinding
  | bound => exact hbound
  | installed => exact hinstalled
  | accepting => exact .of_imp fun _ hn => hn
  | down => exact (h.leads (by rintro ⟨⟩)).trans hidle

end ListensOn

/-- **A listener that has gone comes back.** A connection that may reconnect accepts connections
again and again, whatever becomes of its listeners, until the application disconnects it. -/
theorem listener_recovers (e : Execution (serverMachine τ) .new) (name : String) (start : Nat)
    (settings : ServerSettings) (h : ListensOn e name start settings) :
    ∃ᶠ n in atTop, ∃ connection port, (e.state n).connections.lookup name = some connection ∧
      connection.mainPort = some port ∧ port.acceptingConnections = true ∧
        port.tcpListener.isSome ∧ ∃ task ∈ connection.running, task.accepts = true := by
  have hlater : LeadsTo (fun n => start < n)
      fun n => start < n ∧ ListensOn.At e name .accepting n := by
    intro n hn
    obtain ⟨stage, hat⟩ := h.present hn
    exact h.accepts stage n ⟨hn, hat⟩
  refine (hlater.frequently (eventually_gt_atTop start).frequently).mono fun n hn => ?_
  obtain ⟨-, connection, hlookup, -, port, hport, hview⟩ := hn
  refine ⟨connection, port, hlookup, hport, ?_, ?_, ?_⟩
  · exact congrArg ListenerView.acceptingConnections hview
  · exact congrArg ListenerView.installed hview
  · have hone : 0 < connection.running.countP Task.accepts := by
      have haccepts := congrArg ListenerView.accepts hview
      exact haccepts.ge
    exact List.countP_pos_iff.mp hone

end Course

namespace Sample

/-- The listener that was lost is replaced. -/
def recoveredInputs : List (ServerInput Sample) :=
  downInputs ++ [.task "main" .bind (.portConnected 1), .first .receiveMainPortListener,
    .first .startAcceptingConnectionsMainPort]

def recoveredRun : List (ServerTransition Sample) × ServerApp Sample :=
  ((serverMachine Sample).exec .new recoveredInputs).getD ([], .new)

/-- The frames go on. -/
def framesRest (k : ℕ) : ServerInput Sample :=
  .first (firstChain.getD (k % 7) .checkMainPortDropped)

theorem exec_recovered : (serverMachine Sample).exec .new recoveredInputs =
    some (recoveredRun.1, recoveredRun.2) := rfl

theorem rest_recovered (k : ℕ) : ∃ o, (serverMachine Sample).step recoveredRun.2 (framesRest k) =
    some (recoveredRun.2, o) := by
  refine ⟨ServerApp.quiet, ?_⟩
  unfold framesRest
  generalize firstChain.getD (k % 7) .checkMainPortDropped = system
  cases system <;> rfl

def recovered : Execution (serverMachine Sample) .new :=
  .resting exec_recovered rest_recovered

theorem recovered_listensOn : ListensOn recovered "main" 0 (.tcp .default) := by
  have hall : ∀ input ∈ recoveredInputs, input.byChain ∧ input ≠ .disconnect "main" := by
    intro input hinput
    simp only [recoveredInputs, downInputs, List.cons_append, List.nil_append, List.mem_cons,
      List.not_mem_nil, or_false] at hinput
    rcases hinput with rfl | rfl | rfl | rfl | rfl | rfl | rfl | rfl | rfl | rfl | rfl <;>
      exact ⟨trivial, by rintro ⟨⟩⟩
  have hrest : ∀ n, recoveredInputs.length ≤ n →
      recovered.input n = framesRest (n - recoveredInputs.length) :=
    fun n hn => Execution.resting_input exec_recovered rest_recovered hn
  have hinput : ∀ n, (recovered.input n).byChain ∧ recovered.input n ≠ .disconnect "main" := by
    intro n
    rcases Nat.lt_or_ge n recoveredInputs.length with hn | hn
    · exact hall _ (Execution.resting_input_mem exec_recovered rest_recovered hn)
    · rw [hrest n hn]
      exact ⟨trivial, by rintro ⟨⟩⟩
  have hoften : ∀ r < 7, ∃ᶠ n in atTop,
      recovered.input n = .first (firstChain.getD r .checkMainPortDropped) := by
    intro r hr
    refine frequently_atTop.mpr fun n => ⟨recoveredInputs.length + (7 * n + r), by omega, ?_⟩
    rw [hrest _ (Nat.le_add_right _ _), Nat.add_sub_cancel_left, framesRest, Nat.mul_add_mod,
      Nat.mod_eq_of_lt hr]
  refine ⟨fun n => (hinput n).1, ?_, ?_, ⟨rfl, Nat.zero_le _⟩, fun n _ => (hinput n).2,
    fun system => ?_, (StronglyFair.of_never ?_).weakly⟩
  · rw [recovered.start]
    rfl
  · rfl
  · cases system with
    | checkMainPortDropped => exact hoften 0 (by omega)
    | startConnections => exact hoften 1 (by omega)
    | receiveMainPortListener => exact hoften 2 (by omega)
    | startAcceptingConnectionsMainPort => exact hoften 3 (by omega)
    | checkClientDisconnectedFromPort => exact hoften 4 (by omega)
    | checkClientConnectedToPort => exact hoften 5 (by omega)
    | startListeningNotAuthenticated => exact hoften 6 (by omega)
  · refine eventually_atTop.mpr ⟨recoveredInputs.length, fun n hn => ?_⟩
    have hstate : recovered.state n = recoveredRun.2 :=
      Execution.resting_state exec_recovered rest_recovered hn
    rw [hstate]
    rintro ⟨connection, hlookup, hbind⟩
    cases hlookup
    revert hbind
    decide

end Sample

theorem listener_recovers_recovered : ∃ᶠ n in atTop, ∃ connection port,
    (Sample.recovered.state n).connections.lookup "main" = some connection ∧
      connection.mainPort = some port ∧ port.acceptingConnections = true ∧
        port.tcpListener.isSome ∧ ∃ task ∈ connection.running, task.accepts = true :=
  listener_recovers Sample.recovered "main" 0 (.tcp .default) Sample.recovered_listensOn

end Inator
