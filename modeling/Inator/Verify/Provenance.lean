import Inator.Verify.Identity

/-! # Where a UUID comes from

While no connection is torn down or removed, its readers read the stream that is installed, and
what they pass on waits with the connection, and then for the authentication system. So a UUID
that a client is told comes in on its own transport connection (`identity_of_undisturbed`); only
what is left over of an ended session can break that. -/

namespace Inator

/-! ## One port -/

/-- An operation that ends no connection, leaves the messages that wait, and spawns readers of the
read half only. -/
structure ClientPort.ReadsHalf (port : ClientPort) (result : ClientPort × List ClientTask) :
    Prop where
  stays : port.Stays result.1
  messageReceived : result.1.messageReceived = port.messageReceived
  reads : ∀ stream framing, .read stream framing ∈ result.2 → result.1.readHalf = some stream

namespace ClientPort.ReadsHalf

theorem connect (port : ClientPort) (runtime : Option Runtime) :
    port.ReadsHalf (port.connect runtime) := by
  refine ⟨.connect port runtime, ?_, ?_⟩
  · obtain ⟨connecting, hconnect⟩ := port.connect_spec runtime
    rw [hconnect]
  · intro stream framing htask
    rcases port.connect_cases runtime with h | ⟨-, h | ⟨tryReconnect, tls, h⟩⟩
    · rw [h] at htask
      cases htask
    · rw [h] at htask
      cases htask
    · rw [h] at htask
      cases List.mem_singleton.mp htask

theorem checkConnectedToServer (port : ClientPort) :
    port.ReadsHalf (port.checkConnectedToServer.1, []) := by
  refine ⟨.checkConnectedToServer port, ?_, fun _ _ htask => absurd htask List.not_mem_nil⟩
  rcases port.checkConnected_cases with ⟨-, hnone⟩ | ⟨-, stream, rest, -, hinstalls⟩
  · rw [hnone]
  · rw [hinstalls]

theorem startListeningToServer (port : ClientPort) (runtime : Option Runtime) :
    port.ReadsHalf (port.startListeningToServer runtime) := by
  refine ⟨.startListeningToServer port runtime, ?_, ?_⟩
  · obtain ⟨listening, hlistening⟩ := port.startListening_spec runtime
    rw [hlistening]
  · intro stream framing htask
    rcases port.startListening_cases runtime with h | ⟨-, ⟨-, h⟩ | ⟨stream', hhalf, h⟩⟩
    · rw [h] at htask
      cases htask
    · rw [h] at htask
      cases htask
    · rw [h] at htask ⊢
      cases List.mem_singleton.mp htask
      exact hhalf

theorem sendMessage {τ : Type} [UserMessages τ] [Ciborium τ] {t : MessageType τ}
    (port : ClientPort) (message : t.Message) (runtime : Option Runtime) :
    port.ReadsHalf (port.sendMessage message runtime) := by
  obtain ⟨⟨sendingMessages, messageQueue, hsend⟩, hwrites⟩ := port.sendMessage_spec message runtime
  refine ⟨.sendMessage port message runtime, by rw [hsend], ?_⟩
  intro stream framing htask
  rcases hwrites _ htask with ⟨_, _, _, hwrite⟩ | ⟨_, hqueue⟩
  · cases hwrite
  · cases hqueue

end ClientPort.ReadsHalf

/-! ## One connection -/

namespace ClientConnection
variable {connection : ClientConnection} {passed passed' : Stream → List UInt8 → Prop}
  {name : String}

/-- The readers read the stream that is installed, and every message that waits was passed on by
one of it. -/
structure Traced (passed : Stream → List UInt8 → Prop) (connection : ClientConnection) :
    Prop where
  reads : ∀ stream framing, .read stream framing ∈ connection.running → connection.Installed stream
  received : ∀ bytes ∈ connection.batch, ∃ stream, connection.Installed stream ∧
    passed stream bytes

theorem batch_eq {port : ClientPort} (hport : connection.mainPort = some port) :
    connection.batch = port.messageReceived := by
  simp only [batch, hport]
  rfl

theorem toDisconnect_idle
    (hidle : ∀ port, connection.mainPort = some port → port.connectionDown = []) :
    connection.toDisconnect = [] := by
  unfold toDisconnect
  cases hport : connection.mainPort with
  | none => rfl
  | some port => simp only [ClientPort.checkPortDropped, hidle port hport, Bool.false_eq_true,
      if_false]

namespace Traced

theorem mono (h : connection.Traced passed)
    (hmono : ∀ stream bytes, passed stream bytes → passed' stream bytes) :
    connection.Traced passed' := by
  refine ⟨h.reads, fun bytes hbytes => ?_⟩
  obtain ⟨stream, hinstalled, hpassed⟩ := h.received bytes hbytes
  exact ⟨stream, hinstalled, hmono stream bytes hpassed⟩

theorem created {settings : PortSideSettings}
    (hnew : ClientConnection.new name settings = some connection) : connection.Traced passed := by
  cases settings with
  | server settings => cases hnew
  | client settings =>
    cases hnew
    exact ⟨fun _ _ htask => absurd htask List.not_mem_nil,
      fun _ hbytes => absurd hbytes List.not_mem_nil⟩

theorem onMainPort {op : ClientPort → Option Runtime → ClientPort × List ClientTask}
    (h : connection.Traced passed) (hsound : connection.Sound name)
    (hop : ∀ (port : ClientPort) runtime, port.ReadsHalf (op port runtime)) :
    (connection.onMainPort op).Traced passed := by
  have hstays : connection.Stays (connection.onMainPort op) :=
    .onMainPort fun port runtime => (hop port runtime).stays
  cases hport : connection.mainPort with
  | none => rwa [onMainPort_none hport]
  | some port =>
    have hreads := hop port connection.runtime
    rw [mainPort_onMainPort hport] at hstays ⊢
    refine ⟨fun stream framing htask => ?_, fun bytes hbytes => ?_⟩
    · rcases List.mem_append.mp htask with hbefore | hspawned
      · exact (h.reads stream framing hbefore).of_stays hsound hstays
      · exact ⟨_, rfl, hreads.reads stream framing hspawned⟩
    · rw [batch_eq rfl, hreads.messageReceived, ← batch_eq hport] at hbytes
      obtain ⟨stream, hinstalled, hpassed⟩ := h.received bytes hbytes
      exact ⟨stream, hinstalled.of_stays hsound hstays, hpassed⟩

/-- The systems, where `check_main_port_dropped` finds no notification. -/
theorem turn (h : connection.Traced passed) (hsound : connection.Sound name)
    {system : ClientSystem} (hidle : system = .checkMainPortDropped →
      ∀ port, connection.mainPort = some port → port.connectionDown = []) :
    (system.turn connection).Traced passed := by
  cases system with
  | checkMainPortDropped =>
    change connection.checkDropped.Traced passed
    rw [checkDropped_idle (hidle rfl)]
    exact h
  | startConnections =>
    simp only [ClientSystem.turn, startUnlessConnected]
    split
    · let started : ClientConnection := { connection with
        connected := true
        runtime := some (connection.runtime.getD .new) }
      have hstarted : started.Traced passed := ⟨h.reads, h.received⟩
      have hnamed : started.Sound name := ⟨hsound.connectionName, hsound.half⟩
      exact hstarted.onMainPort hnamed ClientPort.ReadsHalf.connect
    · exact h
  | checkConnectedToMainPort =>
    change connection.checkConnected.Traced passed
    exact h.onMainPort hsound fun port _ => .checkConnectedToServer port
  | checkListeningToMainPort =>
    exact h.onMainPort hsound ClientPort.ReadsHalf.startListeningToServer

/-- What a reader passes on, it has read from the stream that is installed. -/
theorem receive (h : connection.Traced passed) (hsound : connection.Sound name)
    {task : ClientTask} {event : ClientEvent} {port : ClientPort}
    (hruns : task ∈ connection.running) (hport : connection.mainPort = some port)
    (hdoes : event.By port.settings task)
    (hpasses : ∀ stream framing bytes, task = .read stream framing →
      event = .messageReceived bytes → passed stream bytes) :
    (connection.receive task event).Traced passed := by
  have hstays := Stays.receive connection task event
  simp only [ClientConnection.receive, hport] at hstays ⊢
  refine ⟨fun stream framing htask => ?_, fun bytes hbytes => ?_⟩
  · have hbefore : .read stream framing ∈ connection.running := by
      dsimp only at htask
      split at htask
      · exact List.mem_of_mem_erase htask
      · exact htask
    exact (h.reads stream framing hbefore).of_stays hsound hstays
  · have hold : bytes ∈ connection.batch → ∃ stream, connection.Installed stream ∧
        passed stream bytes := h.received bytes
    suffices hfound : ∃ stream, connection.Installed stream ∧ passed stream bytes by
      obtain ⟨stream, hinstalled, hpassed⟩ := hfound
      exact ⟨stream, hinstalled.of_stays hsound hstays, hpassed⟩
    rw [batch_eq hport] at hold
    cases event with
    | messageReceived bytes' =>
      rcases List.mem_append.mp hbytes with hbytes | hbytes
      · exact hold hbytes
      · cases List.mem_singleton.mp hbytes
        cases task with
        | read stream framing =>
          exact ⟨stream, h.reads stream framing hruns, hpasses stream framing bytes rfl rfl⟩
        | connect | write | sendQueue => cases hdoes
    | connectedToServer | connectionDown | returned | panicked => exact hold hbytes

theorem drained (h : connection.Traced passed) (hsound : connection.Sound name) :
    connection.drained.Traced passed := by
  refine ⟨fun stream framing htask => ?_, fun bytes hbytes => ?_⟩
  · exact (h.reads stream framing htask).of_stays hsound (.drained connection)
  · simp only [batch, ClientConnection.drained] at hbytes
    cases hport : connection.mainPort with
    | none =>
      rw [hport] at hbytes
      cases hbytes
    | some port =>
      rw [hport] at hbytes
      cases hbytes

end Traced

end ClientConnection

/-! ## One step -/

/-- Starting a connection keeps those that are there, under a name that is taken as well. -/
theorem NetworkConnections.startConnection_of_lookup {T : Type} [ConnectionTrait T]
    {connections : NetworkConnections T} {before : T}
    (hlookup : connections.lookup name = some before) (connectionName : String)
    (settings : PortSideSettings) :
    (startConnection connections connectionName settings).lookup name = some before := by
  unfold startConnection
  split
  · exact hlookup
  · rename_i hfree
    have hnew : connectionName ∉ connections := by
      simpa only [canConnect, Bool.not_eq_true, Bool.not_eq_false', decide_eq_true_eq] using hfree
    split
    · exact hlookup
    · have hother : name ≠ connectionName := by
        intro heq
        subst heq
        exact hnew (AssocMap.mem_of_lookup hlookup)
      rw [AList.lookup_insert_ne hother]
      exact hlookup

namespace ClientApp
variable {τ : Type} [DecidableEq τ] [UserMessages τ] [Ciborium τ] {app app' : ClientApp τ}
  {input : ClientInput τ} {output : List (WorldMessage τ)} {name : String}
  {before after : ClientConnection}

/-- A step in which no connection is torn down or removed. -/
structure Undisturbed (app : ClientApp τ) (input : ClientInput τ) : Prop where
  dropped : input = .first .checkMainPortDropped → ∀ name connection port,
    app.connections.lookup name = some connection → connection.mainPort = some port →
      port.connectionDown = []
  disconnect : ∀ name, input ≠ .disconnect name

theorem traced_change {passed : Stream → List UInt8 → Prop} (h : Change app input name after)
    (hsound : app.Sound) (hquiet : app.Undisturbed input)
    (hbefore : ∀ before, app.connections.lookup name = some before → before.Traced passed)
    (hpasses : ∀ stream framing bytes,
      input = .task name (.read stream framing) (.messageReceived bytes) → passed stream bytes) :
    after.Traced passed := by
  cases h with
  | created new => exact .created new
  | kept lookup => exact hbefore _ lookup
  | @turned system before lookup asked =>
    apply (hbefore before lookup).turn (hsound name before lookup)
    intro hsystem port hport
    subst hsystem
    exact hquiet.dropped asked name before port lookup hport
  | @received task event before port lookup asked runs installed does =>
    apply (hbefore before lookup).receive (hsound name before lookup) runs installed does
    intro stream framing bytes htask hevent
    subst htask hevent
    exact hpasses stream framing bytes asked
  | @sent _ message before lookup =>
    exact (hbefore before lookup).onMainPort (hsound name before lookup)
      fun port runtime => .sendMessage port message runtime
  | @drained before lookup => exact (hbefore before lookup).drained (hsound name before lookup)
  | @identified localUuid before lookup =>
    have htraced := hbefore before lookup
    exact ⟨htraced.reads, htraced.received⟩

/-- An undisturbed step keeps every connection, with the stream it has. -/
theorem step_installed (hsound : app.Sound) (hquiet : app.Undisturbed input)
    (h : app.step input = some (app', output))
    (hlookup : app.connections.lookup name = some before) {stream : Stream}
    (hinstalled : before.Installed stream) :
    ∃ after, app'.connections.lookup name = some after ∧ after.Installed stream := by
  have hnamed := hsound name before hlookup
  have hkept : ∀ {after}, before.Stays after → after.Installed stream :=
    fun hstays => hinstalled.of_stays hnamed hstays
  have hmodified : ∀ {f connectionName}, (connectionName = name → before.Stays (f before)) →
      ∃ after, (AssocMap.modify connectionName f app.connections).lookup name = some after ∧
        after.Installed stream := by
    intro f connectionName hstays
    by_cases hname : connectionName = name
    · have hafter := hkept (hstays hname)
      subst hname
      exact ⟨f before, by rw [AssocMap.lookup_modify, hlookup]; rfl, hafter⟩
    · rw [AssocMap.lookup_modify_ne _ _ (Ne.symm hname)]
      exact ⟨before, hlookup, hinstalled⟩
  cases input with
  | first system =>
    rw [step_first h]
    by_cases hsystem : system = .checkMainPortDropped
    · subst hsystem
      have hidle := hquiet.dropped rfl name before
      refine ⟨before.checkDropped, ?_, ?_⟩
      · refine (ClientConnections.lookup_checkMainPortDropped
          (fun name connection hlookup => (hsound name connection hlookup).connectionName)
          hlookup).trans ?_
        rw [if_pos (ClientConnection.toDisconnect_idle fun port => hidle port hlookup)]
      · rw [ClientConnection.checkDropped_idle fun port => hidle port hlookup]
        exact hinstalled
    · rw [ClientSystem.lookup_run hsystem, hlookup]
      exact ⟨_, rfl, hkept (.turn hsystem before)⟩
  | readMessagesClient =>
    rw [step_readMessages h, AssocMap.lookup_mapVals, hlookup]
    exact ⟨_, rfl, hkept (.drained before)⟩
  | authenticationMessageClient =>
    rw [lookup_identified h, hlookup]
    exact ⟨_, rfl, hinstalled⟩
  | startConnection connectionName settings =>
    cases h
    exact ⟨before, NetworkConnections.startConnection_of_lookup hlookup _ _, hinstalled⟩
  | disconnect connectionName => exact absurd rfl (hquiet.disconnect connectionName)
  | sendMessage connectionName t message =>
    cases h
    exact hmodified fun _ =>
      .onMainPort fun port runtime => .sendMessage port message runtime
  | task connectionName task event =>
    obtain ⟨app'', htask, heq⟩ := Option.map_eq_some_iff.mp h
    cases heq
    rw [(task_spec htask).1]
    exact hmodified fun _ => .receive before task event
  | registerMessage | updateMessages =>
    cases h
    exact ⟨before, hlookup, hinstalled⟩

/-- A message that waits after a step waited before it, or was in the channel of a connection. -/
theorem step_unread (h : app.step input = some (app', output)) {message : WorldMessage τ}
    (hmessage : message ∈ app'.unread) :
    message ∈ app.unread ∨ ∃ name connection bytes t m,
      app.connections.lookup name = some connection ∧ bytes ∈ connection.batch ∧
        app.registry.decode bytes = some ⟨t, m⟩ ∧
        message = .fromServer t ⟨m, .tcp, connection.connectionName, 0⟩ := by
  cases input with
  | first system =>
    left
    simp only [step] at h
    split at h
    · cases h
      exact hmessage
    · cases h
  | readMessagesClient =>
    simp only [step] at h
    split at h
    · cases h
    · rename_i connections commands hread
      split at h
      · cases h
      · rename_i dispatched happlied
        cases h
        refine (List.mem_append.mp hmessage).imp_right fun hdispatched => ?_
        have hcommand := mem_of_applyCommands happlied hdispatched
        obtain ⟨name, connection, bytes, t, m, hlookup, hbytes, hdecode, heq⟩ :=
          mem_of_readMessagesClient hread hcommand
        exact ⟨name, connection, bytes, t, m, hlookup, hbytes, hdecode, Except.ok.inj heq⟩
  | authenticationMessageClient =>
    cases h
    exact .inl (List.mem_of_mem_filter hmessage)
  | task connectionName task event =>
    left
    obtain ⟨app'', htask, heq⟩ := Option.map_eq_some_iff.mp h
    cases heq
    rw [← (task_spec htask).2.1]
    exact hmessage
  | updateMessages =>
    cases h
    cases hmessage
  | registerMessage | startConnection | disconnect | sendMessage =>
    cases h
    exact .inl hmessage

/-- The UUID that would be stored is that of a message that waits. -/
theorem mem_of_nextUuid {uuid : Uuid} (h : app.nextUuid name = some uuid) :
    ∃ ev : MessageReceivedFromServer τ .authenticatedUuid,
      .fromServer .authenticatedUuid ev ∈ app.unread ∧ ev.connectionName = name ∧
        AuthenticatedUuid.uuid ev.message = uuid := by
  obtain ⟨ev, hlast, huuid⟩ := Option.map_eq_some_iff.mp h
  obtain ⟨hev, hname⟩ := List.mem_filter.mp (List.mem_of_getLast? hlast)
  obtain ⟨message, hmessage, hfrom⟩ := List.mem_filterMap.mp hev
  rw [WorldMessage.fromServer?_eq_some.mp hfrom] at hmessage
  exact ⟨ev, hmessage, of_decide_eq_true hname, huuid⟩

end ClientApp

/-! ## Runs -/

section Runs
open ClientApp
variable {τ : Type} [DecidableEq τ] [UserMessages τ] [Ciborium τ]
  {ts : List (ClientTransition τ)} {t : ClientTransition τ} {name : String}

/-- A reader of the stream has passed on the buffer. -/
def PassedOn (ts : List (ClientTransition τ)) (name : String) (stream : Stream)
    (bytes : List UInt8) : Prop :=
  ∃ t ∈ ts, ∃ framing, t.input = .task name (.read stream framing) (.messageReceived bytes)

theorem PassedOn.snoc {stream : Stream} {bytes : List UInt8} (h : PassedOn ts name stream bytes)
    (t : ClientTransition τ) : PassedOn (ts ++ [t]) name stream bytes := by
  obtain ⟨u, hu, found⟩ := h
  exact ⟨u, List.mem_append_left _ hu, found⟩

/-- A buffer that was passed on, and decodes at the time of the last step. -/
theorem PassedOn.received {stream : Stream} {bytes : List UInt8} {uuid : Uuid}
    (h : PassedOn ts name stream bytes) (t : ClientTransition τ)
    (hdecode : t.pre.registry.decode bytes =
      some ⟨.authenticatedUuid, AuthenticatedUuid.mk uuid⟩) :
    ReceivedOn (ts ++ [t]) name stream uuid := by
  obtain ⟨u, hu, framing, hinput⟩ := h
  exact ⟨u, List.mem_append_left _ hu, framing, bytes, hinput, t, List.mem_concat_self, hdecode⟩

/-- What waits for a client has come in on the transport connection it has now. -/
structure AllTraced (ts : List (ClientTransition τ)) (app : ClientApp τ) : Prop where
  connections : ∀ name connection, app.connections.lookup name = some connection →
    connection.Traced (PassedOn ts name)
  unread : ∀ ev : MessageReceivedFromServer τ .authenticatedUuid,
    .fromServer .authenticatedUuid ev ∈ app.unread → ∃ connection stream,
      app.connections.lookup ev.connectionName = some connection ∧ connection.Installed stream ∧
        ReceivedOn ts ev.connectionName stream (AuthenticatedUuid.uuid ev.message)

theorem allTraced_step (hsound : t.pre.Sound) (h : AllTraced ts t.pre)
    (hof : t.Of (clientMachine τ)) (hquiet : t.pre.Undisturbed t.input) :
    AllTraced (ts ++ [t]) t.post where
  connections name after hlookup := by
    apply traced_change (step_change hof hlookup) hsound hquiet
    · intro before hbefore
      exact (h.connections name before hbefore).mono fun _ _ hpassed => hpassed.snoc t
    · intro stream framing bytes hinput
      exact ⟨t, List.mem_concat_self, framing, hinput⟩
  unread ev hev := by
    have hfound : ∃ before stream, t.pre.connections.lookup ev.connectionName = some before ∧
        before.Installed stream ∧
          ReceivedOn (ts ++ [t]) ev.connectionName stream (AuthenticatedUuid.uuid ev.message) := by
      rcases step_unread hof hev with hbefore | ⟨name, connection, bytes, _, m, hlookup, hbytes,
          hdecode, heq⟩
      · obtain ⟨connection, stream, hlookup, hinstalled, hreceived⟩ := h.unread ev hbefore
        exact ⟨connection, stream, hlookup, hinstalled, hreceived.snoc t⟩
      · cases heq
        have hname := (hsound name connection hlookup).connectionName
        obtain ⟨stream, hinstalled, hpassed⟩ :=
          (h.connections name connection hlookup).received bytes hbytes
        dsimp only
        rw [hname]
        exact ⟨connection, stream, hlookup, hinstalled, hpassed.received t hdecode⟩
    obtain ⟨before, stream, hbefore, hinstalled, hreceived⟩ := hfound
    obtain ⟨after, hafter, hkept⟩ := step_installed hsound hquiet hof hbefore hinstalled
    exact ⟨after, stream, hafter, hkept, hreceived⟩

theorem keepsIdentity_of_undisturbed (h : AllTraced ts t.pre)
    (hquiet : t.pre.Undisturbed t.input) : KeepsIdentity ts t where
  dropped hinput name connection port hlookup hport hdown _ :=
    absurd (hquiet.dropped hinput name connection port hlookup hport) hdown
  late _ name connection uuid hlookup hnext := by
    obtain ⟨ev, hev, hname, huuid⟩ := mem_of_nextUuid hnext
    obtain ⟨connection', stream, hlookup', hinstalled, hreceived⟩ := h.unread ev hev
    subst hname huuid
    cases hlookup.symm.trans hlookup'
    exact ⟨stream, hinstalled, hreceived.snoc t⟩

/-- **While no session ends** every client has a UUID of its own, or none: in a run that tears no
connection down and removes none, every step keeps its UUIDs. -/
theorem identity_of_undisturbed (ts : List (ClientTransition τ)) (app : ClientApp τ)
    (h : (clientMachine τ).Run .new ts app) (hquiet : ∀ t ∈ ts, t.pre.Undisturbed t.input) :
    Machine.Throughout KeepsIdentity ts ∧ OwnIdentities ts app := by
  have hinvariant : (∀ t ∈ ts, t.pre.Undisturbed t.input) →
      (app.Sound ∧ AllTraced ts app) ∧ Machine.Throughout KeepsIdentity ts ∧
        OwnIdentities ts app := by
    refine h.history (fun ts app => (∀ t ∈ ts, t.pre.Undisturbed t.input) →
      (app.Sound ∧ AllTraced ts app) ∧ Machine.Throughout KeepsIdentity ts ∧
        OwnIdentities ts app) ?_ ?_
    · intro _
      refine ⟨⟨fun name connection hlookup => ?_, fun name connection hlookup => ?_,
        fun ev hev => absurd hev List.not_mem_nil⟩, Machine.throughout_nil,
        fun name connection hlookup => ?_⟩
      · cases hlookup
      · cases hlookup
      · cases hlookup
    · intro ts t _ hbefore hof hall
      obtain ⟨hall, hquiet⟩ := List.forall_mem_append.mp hall
      obtain ⟨⟨hsound, htraced⟩, hkeeps, hown⟩ := hbefore hall
      have hquiet := hquiet t (List.mem_singleton_self t)
      have hstep := keepsIdentity_of_undisturbed htraced hquiet
      exact ⟨⟨sound_step hsound hof, allTraced_step hsound htraced hof hquiet⟩,
        Machine.throughout_snoc.mpr ⟨hkeeps, hstep⟩,
        ownIdentities_step hsound hown hof hstep⟩
  exact (hinvariant hquiet).2

end Runs

end Inator
