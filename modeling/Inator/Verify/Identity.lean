import Inator.Verify.Messaging
import Inator.Verify.Pending

/-! # Whose UUID a client has

`authentication_message_client` stores the UUID of the last message it reads, whichever transport
connection that came in on, and nothing in the client takes it away again. So the UUID is that of
the current transport connection exactly as long as no connection is torn down after it was
identified, and no message of an earlier transport connection is read late (`identity_iff`). -/

namespace Inator

/-! ## One connection -/

/-- An operation that ends no connection: it leaves the read half, or installs one in a port that
is not connected. -/
inductive ClientPort.Stays (port port' : ClientPort) : Prop
  | same (connected : port'.connected = port.connected) (half : port'.readHalf = port.readHalf)
  | installed (before : port.connected = false) (after : port'.connected = true)

namespace ClientPort.Stays

theorem connect (port : ClientPort) (runtime : Option Runtime) :
    port.Stays (port.connect runtime).1 := by
  obtain ⟨connecting, hconnect⟩ := port.connect_spec runtime
  rw [hconnect]
  exact .same rfl rfl

theorem checkConnectedToServer (port : ClientPort) : port.Stays port.checkConnectedToServer.1 := by
  rcases port.checkConnected_cases with ⟨-, hnone⟩ | ⟨hdown, stream, rest, -, hinstalls⟩
  · rw [hnone]
    exact .same rfl rfl
  · rw [hinstalls]
    exact .installed hdown rfl

theorem startListeningToServer (port : ClientPort) (runtime : Option Runtime) :
    port.Stays (port.startListeningToServer runtime).1 := by
  obtain ⟨listening, hlistening⟩ := port.startListening_spec runtime
  rw [hlistening]
  exact .same rfl rfl

theorem receive (port : ClientPort) (event : ClientEvent) : port.Stays (port.receive event) := by
  cases event <;> exact .same rfl rfl

theorem sendMessage {τ : Type} [UserMessages τ] [Ciborium τ] {t : MessageType τ}
    (port : ClientPort) (message : t.Message) (runtime : Option Runtime) :
    port.Stays (port.sendMessage message runtime).1 := by
  obtain ⟨⟨sendingMessages, messageQueue, hsend⟩, -⟩ := port.sendMessage_spec message runtime
  rw [hsend]
  exact .same rfl rfl

end ClientPort.Stays

namespace ClientConnection
variable {connection before after : ClientConnection}

/-- A change that leaves the identity, and ends no connection. -/
structure Stays (before after : ClientConnection) : Prop where
  localUuid : after.localUuid = before.localUuid
  connectionName : after.connectionName = before.connectionName
  port : ∀ port', after.mainPort = some port' →
    ∃ port, before.mainPort = some port ∧ port.Stays port'
  mainPort : ∀ port, before.mainPort = some port → ∃ port', after.mainPort = some port'

theorem Stays.refl (connection : ClientConnection) : connection.Stays connection where
  localUuid := rfl
  connectionName := rfl
  port port hport := ⟨port, hport, .same rfl rfl⟩
  mainPort port hport := ⟨port, hport⟩

theorem Stays.onMainPort {op : ClientPort → Option Runtime → ClientPort × List ClientTask}
    (hop : ∀ (port : ClientPort) runtime, port.Stays (op port runtime).1) :
    connection.Stays (connection.onMainPort op) := by
  cases hport : connection.mainPort with
  | none =>
    rw [onMainPort_none hport]
    exact .refl connection
  | some port =>
    rw [mainPort_onMainPort hport]
    refine ⟨rfl, rfl, fun port' hport' => ?_, fun _ _ => ⟨_, rfl⟩⟩
    cases hport'
    exact ⟨port, hport, hop port connection.runtime⟩

/-- The systems that end no connection. -/
theorem Stays.turn {system : ClientSystem} (hsystem : system ≠ .checkMainPortDropped)
    (connection : ClientConnection) : connection.Stays (system.turn connection) := by
  cases system with
  | checkMainPortDropped => exact absurd rfl hsystem
  | startConnections =>
    simp only [ClientSystem.turn, startUnlessConnected]
    split
    · let started : ClientConnection := { connection with
        connected := true
        runtime := some (connection.runtime.getD .new) }
      have hstarted : started.Stays (started.onMainPort ClientPort.connect) :=
        .onMainPort ClientPort.Stays.connect
      exact ⟨hstarted.localUuid, hstarted.connectionName, hstarted.port, hstarted.mainPort⟩
    · exact .refl connection
  | checkConnectedToMainPort =>
    change connection.Stays connection.checkConnected
    apply Stays.onMainPort
    intro port runtime
    exact .checkConnectedToServer port
  | checkListeningToMainPort =>
    exact .onMainPort ClientPort.Stays.startListeningToServer

theorem Stays.receive (connection : ClientConnection) (task : ClientTask) (event : ClientEvent) :
    connection.Stays (connection.receive task event) := by
  rw [ClientConnection.receive]
  cases hport : connection.mainPort with
  | none => exact .refl connection
  | some port =>
    refine ⟨rfl, rfl, fun port' hport' => ?_, fun _ _ => ⟨_, rfl⟩⟩
    cases hport'
    exact ⟨port, hport, .receive port event⟩

theorem Stays.drained (connection : ClientConnection) : connection.Stays connection.drained where
  localUuid := rfl
  connectionName := rfl
  port port' hport' := by
    obtain ⟨port, hport, rfl⟩ := Option.map_eq_some_iff.mp hport'
    exact ⟨port, hport, .same rfl rfl⟩
  mainPort port hport := ⟨_, Option.map_eq_some_iff.mpr ⟨port, hport, rfl⟩⟩

/-- The name `check_main_port_dropped` removes is the connection's own. -/
theorem toDisconnect_cases (connection : ClientConnection) :
    connection.toDisconnect = [] ∨ connection.toDisconnect = [connection.connectionName] := by
  unfold toDisconnect
  cases connection.mainPort with
  | none => exact .inl rfl
  | some mainPort =>
    dsimp only
    split
    · split
      · exact .inl rfl
      · exact .inr rfl
    · exact .inl rfl

/-- The connection is under its own name, and has a read half only while it is connected. -/
structure Sound (connection : ClientConnection) (name : String) : Prop where
  connectionName : connection.connectionName = name
  half : ∀ port, connection.mainPort = some port → port.readHalf.isSome → port.connected = true

/-- The stream is that of the transport connection the main port has now. -/
def Installed (connection : ClientConnection) (stream : Stream) : Prop :=
  ∃ port, connection.mainPort = some port ∧ port.readHalf = some stream

theorem Installed.of_stays {stream : Stream} (h : before.Installed stream)
    (hsound : before.Sound name) (hstays : before.Stays after) : after.Installed stream := by
  obtain ⟨port, hport, hhalf⟩ := h
  obtain ⟨port', hport'⟩ := hstays.mainPort port hport
  obtain ⟨_, hport₀, hsame⟩ := hstays.port port' hport'
  cases hport.symm.trans hport₀
  cases hsame with
  | same _ hread => exact ⟨port', hport', hread.trans hhalf⟩
  | installed hfree _ =>
    -- a port that still has a read half takes no other
    have hconnected := hsound.half port hport (by rw [hhalf]; rfl)
    cases hfree.symm.trans hconnected

theorem Sound.created {settings : PortSideSettings}
    (hnew : ClientConnection.new name settings = some connection) : connection.Sound name := by
  cases settings with
  | server settings => cases hnew
  | client settings =>
    cases hnew
    refine ⟨rfl, fun port hport hhalf => ?_⟩
    cases hport
    cases hhalf

theorem Sound.of_stays (h : before.Sound name) (hstays : before.Stays after) :
    after.Sound name where
  connectionName := hstays.connectionName.trans h.connectionName
  half port' hport' hhalf := by
    obtain ⟨port, hport, hsame⟩ := hstays.port port' hport'
    cases hsame with
    | same hconnected hread =>
      rw [hread] at hhalf
      rw [hconnected]
      exact h.half port hport hhalf
    | installed _ hafter => exact hafter

theorem Sound.checkDropped (h : connection.Sound name) : connection.checkDropped.Sound name := by
  rw [ClientConnection.checkDropped]
  split
  · exact h
  · rename_i port hport
    refine ⟨h.connectionName, fun port' hport' hhalf => ?_⟩
    cases hport'
    cases hdown : port.connectionDown with
    | nil =>
      simp only [ClientPort.checkPortDropped, hdown] at hhalf ⊢
      exact h.half port hport hhalf
    | cons _ rest =>
      simp only [ClientPort.checkPortDropped, hdown] at hhalf
      cases hhalf

theorem checkDropped_down {port : ClientPort} (hport : connection.mainPort = some port)
    (hdown : port.connectionDown ≠ []) :
    (∃ port', connection.checkDropped.mainPort = some port' ∧ port'.readHalf = none) ∧
      (connection.toDisconnect = [] ↔ port.settings.tryReconnect = true) := by
  obtain ⟨_, rest, hcons⟩ := List.exists_cons_of_ne_nil hdown
  simp only [checkDropped, toDisconnect, hport, ClientPort.checkPortDropped, hcons, if_true]
  refine ⟨⟨_, rfl, rfl⟩, ?_⟩
  cases port.settings.tryReconnect with
  | true => exact iff_of_true rfl rfl
  | false => exact iff_of_false (List.cons_ne_nil _ _) Bool.false_ne_true

theorem localUuid_checkDropped (connection : ClientConnection) :
    connection.checkDropped.localUuid = connection.localUuid := by
  rw [checkDropped]
  split
  · rfl
  · rfl

theorem localUuid_new {settings : PortSideSettings}
    (hnew : ClientConnection.new name settings = some connection) :
    connection.localUuid = none := by
  cases settings with
  | server settings => cases hnew
  | client settings =>
    cases hnew
    rfl

theorem checkDropped_idle
    (hidle : ∀ port, connection.mainPort = some port → port.connectionDown = []) :
    connection.checkDropped = connection := by
  rw [checkDropped]
  split
  · rfl
  · rename_i port hport
    simp only [ClientPort.checkPortDropped, hidle port hport, Bool.false_eq_true, if_false]
    rw [← hport]

end ClientConnection

/-- What `check_main_port_dropped` leaves of a connection. -/
theorem ClientConnections.lookup_checkMainPortDropped {networkConnection : ClientConnections}
    {connection : ClientConnection}
    (hnames : ∀ name connection, networkConnection.lookup name = some connection →
      connection.connectionName = name)
    (hlookup : networkConnection.lookup name = some connection) :
    (checkMainPortDropped networkConnection).lookup name =
      if connection.toDisconnect = [] then some connection.checkDropped else none := by
  have hself : ∀ name connection, networkConnection.lookup name = some connection →
      connection.toDisconnect = [] ∨ connection.toDisconnect = [name] :=
    fun name connection hlookup => hnames name connection hlookup ▸ connection.toDisconnect_cases
  refine (AssocMap.lookup_sweep hself name).trans ?_
  rw [hlookup]
  rfl

/-! ## One step -/

namespace ClientApp
variable {τ : Type} [DecidableEq τ] [UserMessages τ] [Ciborium τ] {app app' : ClientApp τ}
  {input : ClientInput τ} {output : List (WorldMessage τ)} {name : String}
  {after : ClientConnection}

/-- The UUID that `authentication_message_client` would store. -/
def nextUuid (app : ClientApp τ) (name : String) : Option Uuid :=
  lastUuid name (app.unread.filterMap (·.fromServer? .authenticatedUuid))

theorem lookup_identified
    (h : app.step .authenticationMessageClient = some (app', output)) (name : String) :
    app'.connections.lookup name = (app.connections.lookup name).map fun connection =>
      { connection with localUuid := (app.nextUuid name).or connection.localUuid } := by
  cases h
  exact lookup_authenticationMessages _ _ name

/-- Every connection is under its own name, and has a read half only while it is connected. -/
def Sound (app : ClientApp τ) : Prop :=
  ∀ name connection, app.connections.lookup name = some connection → connection.Sound name

/-- What a step does to the identity of a connection and to its transport connection. -/
inductive Affects (app : ClientApp τ) (input : ClientInput τ) (name : String) :
    ClientConnection → Prop
  | created {settings : PortSideSettings} {after : ClientConnection}
      (new : ClientConnection.new name settings = some after) : Affects app input name after
  | stays {before after : ClientConnection}
      (lookup : app.connections.lookup name = some before) (stays : before.Stays after) :
      Affects app input name after
  | checked {before : ClientConnection} (lookup : app.connections.lookup name = some before)
      (asked : input = .first .checkMainPortDropped) (kept : before.toDisconnect = []) :
      Affects app input name before.checkDropped
  | identified {before : ClientConnection} (lookup : app.connections.lookup name = some before)
      (asked : input = .authenticationMessageClient) :
      Affects app input name
        { before with localUuid := (app.nextUuid name).or before.localUuid }

theorem step_affects (hsound : app.Sound) (h : app.step input = some (app', output))
    (hlookup : app'.connections.lookup name = some after) : Affects app input name after := by
  cases input with
  | first system =>
    rw [step_first h] at hlookup
    obtain ⟨before, hbefore, rfl⟩ := ClientSystem.run_lookup hlookup
    by_cases hsystem : system = .checkMainPortDropped
    · subst hsystem
      refine .checked hbefore rfl ?_
      have hkept := ClientConnections.lookup_checkMainPortDropped
        (fun name connection hlookup => (hsound name connection hlookup).connectionName) hbefore
      change (ClientConnections.checkMainPortDropped app.connections).lookup name = _ at hlookup
      rw [hkept] at hlookup
      split at hlookup
      · assumption
      · cases hlookup
    · exact .stays hbefore (.turn hsystem before)
  | readMessagesClient =>
    rw [step_readMessages h, AssocMap.lookup_mapVals] at hlookup
    obtain ⟨before, hbefore, rfl⟩ := Option.map_eq_some_iff.mp hlookup
    exact .stays hbefore (.drained before)
  | authenticationMessageClient =>
    rw [lookup_identified h] at hlookup
    obtain ⟨before, hbefore, rfl⟩ := Option.map_eq_some_iff.mp hlookup
    exact .identified hbefore rfl
  | startConnection connectionName settings =>
    cases h
    rcases NetworkConnections.lookup_startConnection hlookup with hkept | hnew
    · exact .stays hkept (.refl after)
    · exact .created hnew
  | disconnect connectionName =>
    cases h
    exact .stays (AssocMap.lookup_of_erase hlookup).2 (.refl after)
  | sendMessage connectionName t message =>
    cases h
    rcases AssocMap.lookup_of_modify hlookup with ⟨-, hkept⟩ | ⟨before, rfl, hbefore, rfl⟩
    · exact .stays hkept (.refl after)
    · exact .stays hbefore (.onMainPort fun port runtime => .sendMessage port message runtime)
  | task connectionName task event =>
    obtain ⟨app'', htask, heq⟩ := Option.map_eq_some_iff.mp h
    cases heq
    rw [(task_spec htask).1] at hlookup
    rcases AssocMap.lookup_of_modify hlookup with ⟨-, hkept⟩ | ⟨before, rfl, hbefore, rfl⟩
    · exact .stays hkept (.refl after)
    · exact .stays hbefore (.receive before task event)
  | registerMessage | updateMessages =>
    cases h
    exact .stays hlookup (.refl after)

theorem sound_step (hsound : app.Sound) (h : app.step input = some (app', output)) :
    app'.Sound := by
  intro name after hlookup
  cases step_affects hsound h hlookup with
  | created hnew => exact .created hnew
  | stays hbefore hstays => exact (hsound name _ hbefore).of_stays hstays
  | checked hbefore => exact (hsound name _ hbefore).checkDropped
  | identified hbefore =>
    have hkept := hsound name _ hbefore
    exact ⟨hkept.connectionName, hkept.half⟩

end ClientApp

/-! ## Runs -/

section Runs
variable {τ : Type} [DecidableEq τ] [UserMessages τ] [Ciborium τ]
  {ts : List (ClientTransition τ)} {t : ClientTransition τ} {name : String}
  {before after : ClientConnection}

/-- A reader of the stream has passed on a buffer that tells the client the UUID. The registry
that says so may be that of another step, as it grows. -/
def ReceivedOn (ts : List (ClientTransition τ)) (name : String) (stream : Stream) (uuid : Uuid) :
    Prop :=
  ∃ t ∈ ts, ∃ framing bytes, t.input = .task name (.read stream framing) (.messageReceived bytes) ∧
    ∃ t' ∈ ts, t'.pre.registry.decode bytes = some ⟨.authenticatedUuid, AuthenticatedUuid.mk uuid⟩

theorem ReceivedOn.snoc {stream : Stream} {uuid : Uuid} (h : ReceivedOn ts name stream uuid)
    (t : ClientTransition τ) : ReceivedOn (ts ++ [t]) name stream uuid := by
  obtain ⟨u, hu, framing, bytes, hinput, u', hu', hdecode⟩ := h
  exact ⟨u, List.mem_append_left _ hu, framing, bytes, hinput, u', List.mem_append_left _ hu',
    hdecode⟩

/-- The UUID of a client has come in on the transport connection it has now. -/
def OwnIdentity (ts : List (ClientTransition τ)) (name : String)
    (connection : ClientConnection) : Prop :=
  ∀ uuid, connection.localUuid = some uuid →
    ∃ stream, connection.Installed stream ∧ ReceivedOn ts name stream uuid

namespace OwnIdentity

theorem of_none (h : after.localUuid = none) : OwnIdentity ts name after := by
  intro uuid huuid
  rw [h] at huuid
  cases huuid

theorem snoc (h : OwnIdentity ts name after) (t : ClientTransition τ) :
    OwnIdentity (ts ++ [t]) name after := by
  intro uuid huuid
  obtain ⟨stream, hinstalled, hreceived⟩ := h uuid huuid
  exact ⟨stream, hinstalled, hreceived.snoc t⟩

theorem of_stays (h : OwnIdentity ts name before) (hsound : before.Sound name)
    (hstays : before.Stays after) : OwnIdentity ts name after := by
  intro uuid huuid
  rw [hstays.localUuid] at huuid
  obtain ⟨stream, hinstalled, hreceived⟩ := h uuid huuid
  exact ⟨stream, hinstalled.of_stays hsound hstays, hreceived⟩

/-- A connection that is torn down and kept has to be without a UUID. -/
theorem checkDropped (h : OwnIdentity ts name before) (hkept : before.toDisconnect = [])
    (hnone : ∀ port, before.mainPort = some port → port.connectionDown ≠ [] →
      port.settings.tryReconnect = true → before.localUuid = none) :
    OwnIdentity ts name before.checkDropped := by
  by_cases hidle : ∀ port, before.mainPort = some port → port.connectionDown = []
  · rw [ClientConnection.checkDropped_idle hidle]
    exact h
  · obtain ⟨port, hdropped⟩ := not_forall.mp hidle
    obtain ⟨hport, hdown⟩ := Classical.not_imp.mp hdropped
    have hreconnects := (ClientConnection.checkDropped_down hport hdown).2.mp hkept
    apply of_none
    rw [ClientConnection.localUuid_checkDropped]
    exact hnone port hport hdown hreconnects

end OwnIdentity

/-- A step that leaves every client with the UUID of its own session: a connection that is torn
down and kept has none, and the UUID that is stored next has come in on the transport connection
that is installed. -/
structure KeepsIdentity (ts : List (ClientTransition τ)) (t : ClientTransition τ) : Prop where
  dropped : t.input = .first .checkMainPortDropped → ∀ name connection port,
    t.pre.connections.lookup name = some connection → connection.mainPort = some port →
      port.connectionDown ≠ [] → port.settings.tryReconnect = true → connection.localUuid = none
  late : t.input = .authenticationMessageClient → ∀ name connection uuid,
    t.pre.connections.lookup name = some connection → t.pre.nextUuid name = some uuid →
      ∃ stream, connection.Installed stream ∧ ReceivedOn (ts ++ [t]) name stream uuid

/-- Every client has a UUID of its own session, or none. -/
def OwnIdentities (ts : List (ClientTransition τ)) (app : ClientApp τ) : Prop :=
  ∀ name connection, app.connections.lookup name = some connection →
    OwnIdentity ts name connection

theorem ownIdentities_step (hsound : t.pre.Sound) (h : OwnIdentities ts t.pre)
    (hof : t.Of (clientMachine τ)) (hkeeps : KeepsIdentity ts t) :
    OwnIdentities (ts ++ [t]) t.post := by
  intro name after hlookup
  cases ClientApp.step_affects hsound hof hlookup with
  | created hnew => exact .of_none (ClientConnection.localUuid_new hnew)
  | stays hbefore hstays =>
    exact ((h name _ hbefore).of_stays (hsound name _ hbefore) hstays).snoc t
  | checked hbefore hasked hkept =>
    have hown := (h name _ hbefore).checkDropped hkept fun port hport hdown hreconnects =>
      hkeeps.dropped hasked name _ port hbefore hport hdown hreconnects
    exact hown.snoc t
  | @identified before hbefore hasked =>
    cases hnext : t.pre.nextUuid name with
    | none => exact (h name before hbefore).snoc t
    | some uuid =>
      intro uuid' huuid'
      cases huuid'
      exact hkeeps.late hasked name before uuid hbefore hnext

theorem keepsIdentity_of_own (hsound : t.pre.Sound) (hof : t.Of (clientMachine τ))
    (h : OwnIdentities (ts ++ [t]) t.post) : KeepsIdentity ts t where
  dropped hinput name connection port hlookup hport hdown hreconnects := by
    obtain ⟨pre, input, output, post⟩ := t
    cases hinput
    obtain ⟨⟨port', hport', hhalf⟩, hkept⟩ := ClientConnection.checkDropped_down hport hdown
    have hpost : post.connections.lookup name = some connection.checkDropped := by
      rw [ClientApp.step_first hof]
      refine (ClientConnections.lookup_checkMainPortDropped
        (fun name connection hlookup => (hsound name connection hlookup).connectionName)
        hlookup).trans ?_
      rw [if_pos (hkept.mpr hreconnects)]
    cases huuid : connection.localUuid with
    | none => rfl
    | some uuid =>
      rw [← ClientConnection.localUuid_checkDropped] at huuid
      obtain ⟨stream, ⟨_, hport'', hstream⟩, -⟩ := h name _ hpost uuid huuid
      cases hport'.symm.trans hport''
      cases hhalf.symm.trans hstream
  late hinput name connection uuid hlookup hnext := by
    obtain ⟨pre, input, output, post⟩ := t
    cases hinput
    have hpost : post.connections.lookup name =
        some { connection with localUuid := (pre.nextUuid name).or connection.localUuid } := by
      rw [ClientApp.lookup_identified hof, hlookup]
      rfl
    apply h name _ hpost uuid
    dsimp only
    rw [hnext]
    rfl

/-- **Whose UUID a client has.** In every state of a run every client has a UUID of its own
session, or none, exactly when every step keeps it so. -/
theorem identity_iff (ts : List (ClientTransition τ)) (app : ClientApp τ)
    (h : (clientMachine τ).Run .new ts app) :
    Machine.Throughout (fun before t => OwnIdentities (before ++ [t]) t.post) ts ↔
      Machine.Throughout KeepsIdentity ts := by
  refine h.throughout_iff (fun ts app => app.Sound ∧ OwnIdentities ts app) ?_ ?_ ?_
  · refine ⟨fun name connection hlookup => ?_, fun name connection hlookup => ?_⟩
    · cases hlookup
    · cases hlookup
  · intro ts t _ hbefore hof hkeeps
    have hown := ownIdentities_step hbefore.1 hbefore.2 hof hkeeps
    exact ⟨hown, ClientApp.sound_step hbefore.1 hof, hown⟩
  · intro ts t _ hbefore hof hown
    exact keepsIdentity_of_own hbefore.1 hof hown

end Runs

namespace Sample

/-- What a server writes to tell a client a UUID, in an envelope. -/
def identityBytes : List UInt8 :=
  encodeMessageInfos ⟨2, 0x50 :: List.replicate 15 0 ++ [7]⟩

/-- A client that is told its UUID, and whose connection then ends. -/
def droppedInputs : List (ClientInput Sample) :=
  [.registerMessage .authenticationMessage, .registerMessage .authenticatedUuid,
    .startConnection "main" (.client (.tcp .default)),
    .first .checkMainPortDropped, .first .startConnections,
    .task "main" (.connect true false) (.connectedToServer ⟨0, .stream⟩),
    .first .checkConnectedToMainPort, .first .checkListeningToMainPort,
    .task "main" (.read ⟨0, .stream⟩ (some (.u32, .littleEndian))) (.messageReceived identityBytes),
    .readMessagesClient, .authenticationMessageClient,
    .task "main" (.read ⟨0, .stream⟩ (some (.u32, .littleEndian))) .connectionDown,
    .first .checkMainPortDropped]

def droppedRun : List (ClientTransition Sample) × ClientApp Sample :=
  ((clientMachine Sample).exec .new droppedInputs).getD ([], .new)

theorem run_droppedRun : (clientMachine Sample).Run .new droppedRun.1 droppedRun.2 := by
  have hexec : (clientMachine Sample).exec .new droppedInputs = some droppedRun := rfl
  exact .of_exec hexec

end Sample

theorem identity_droppedRun :
    Machine.Throughout (fun before t => OwnIdentities (before ++ [t]) t.post)
        Sample.droppedRun.1 ↔ Machine.Throughout KeepsIdentity Sample.droppedRun.1 :=
  identity_iff _ _ Sample.run_droppedRun

/-- After the drop has been processed the client still has the UUID of the session before. -/
theorem droppedRun_keeps_uuid :
    ¬∀ ts app, (clientMachine Sample).Run .new ts app →
      Machine.Throughout (fun before t => OwnIdentities (before ++ [t]) t.post) ts := by
  intro h
  have hsplit : Sample.droppedRun.1 = Sample.droppedRun.1.dropLast ++
      Sample.droppedRun.1.getLast (by decide) :: [] := (List.dropLast_append_getLast _).symm
  have hown := h _ _ Sample.run_droppedRun _ _ _ hsplit "main" _ rfl 7 rfl
  obtain ⟨stream, ⟨port, hport, hhalf⟩, -⟩ := hown
  cases hport
  cases hhalf

end Inator
