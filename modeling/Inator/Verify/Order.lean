import Inator.Verify.Alike

/-! # The order in which the maps are visited

The source visits its connections, and the clients of a port, in the order of a hash map, which may
be another one in each step. Two states are alike if they differ in nothing but such orders. Every
step takes states that are alike to states that are alike, so the order cannot be told from what a
connection dispatches (`server_order_irrelevant`, `client_order_irrelevant`). -/

namespace Inator
open AssocMap

/-- A start finds the same names taken. -/
theorem NetworkConnections.related_startConnection {T : Type} [ConnectionTrait T] {r : T → T → Prop}
    {connections connections' : NetworkConnections T} (h : Related r connections connections')
    (hr : ∀ connection, r connection connection) (connectionName : String)
    (settings : PortSideSettings) :
    Related r (NetworkConnections.startConnection connections connectionName settings)
      (NetworkConnections.startConnection connections' connectionName settings) := by
  have hmem := h.mem connectionName
  unfold NetworkConnections.startConnection NetworkConnections.canConnect
  by_cases hthere : connectionName ∈ connections
  · simpa [hthere, hmem.mp hthere] using h
  · simp only [hthere, mt hmem.mpr hthere, not_false_eq_true, decide_true, Bool.not_true,
      Bool.false_eq_true, if_false]
    split
    · exact h
    · exact h.insert connectionName (hr _)

/-- Connections that are treated alike are dropped alike. -/
theorem ConnectionSide.related_check {T Port : Type} [ConnectionTrait T]
    {side : ConnectionSide T Port} {r : T → T → Prop}
    {connections connections' : NetworkConnections T}
    (hplaces : ∀ name connection, connections.lookup name = some connection →
      side.InPlace name connection)
    (hplaces' : ∀ name connection, connections'.lookup name = some connection →
      side.InPlace name connection) (h : Related r connections connections')
    (hturn : ∀ connection connection', r connection connection' →
      r (side.turn connection) (side.turn connection') ∧
        side.toDisconnect connection' = side.toDisconnect connection) :
    Related r (side.checkMainPortDropped connections) (side.checkMainPortDropped connections') := by
  have hself : ∀ {connections : NetworkConnections T},
      (∀ name connection, connections.lookup name = some connection →
        side.InPlace name connection) → ∀ name connection,
          connections.lookup name = some connection →
            side.toDisconnect connection = [] ∨ side.toDisconnect connection = [name] := by
    intro connections hplaces name connection hlookup
    obtain ⟨hname, hsome⟩ := hplaces name connection hlookup
    obtain ⟨port, hport⟩ := Option.isSome_iff_exists.mp hsome
    rw [side.toDisconnect_eq connection port hport]
    split
    · exact .inr (congrArg (fun name => [name]) hname)
    · exact .inl rfl
  intro name
  rw [side.check_eq, side.check_eq, lookup_sweep (hself hplaces), lookup_sweep (hself hplaces')]
  cases hlookup : connections.lookup name with
  | none =>
    rw [h.lookup_none hlookup]
    exact .none
  | some connection =>
    obtain ⟨connection', hlookup', hr⟩ := h.lookup hlookup
    obtain ⟨hturned, hasks⟩ := hturn connection connection' hr
    rw [hlookup', Option.bind_some, Option.bind_some, hasks]
    split
    · exact .some hturned
    · exact .none

/-! ## A server -/

variable {τ : Type} [DecidableEq τ] [UserMessages τ] [Ciborium τ]

section Messages
omit [DecidableEq τ] [Ciborium τ]

def WorldMessage.connectionName : WorldMessage τ → String
  | .fromServer _ ev => ev.connectionName
  | .fromClient _ ev => ev.connectionName

/-- The messages of one connection. -/
def onConnection (name : String) (messages : List (WorldMessage τ)) : List (WorldMessage τ) :=
  messages.filter (·.connectionName = name)

theorem onConnection_append (name : String) (messages messages' : List (WorldMessage τ)) :
    onConnection name (messages ++ messages') =
      onConnection name messages ++ onConnection name messages' := List.filter_append ..

theorem mem_onConnection {name : String} {message : WorldMessage τ}
    {messages : List (WorldMessage τ)} :
    message ∈ onConnection name messages ↔ message ∈ messages ∧ message.connectionName = name := by
  rw [onConnection, List.mem_filter, decide_eq_true_eq]

theorem onConnection_filter (name : String) (p : WorldMessage τ → Bool)
    (messages : List (WorldMessage τ)) :
    onConnection name (messages.filter p) = (onConnection name messages).filter p :=
  List.filter_comm ..

end Messages

/-- The lists hold the same messages of each connection, in the same order. -/
def AlikeMessages (messages messages' : List (WorldMessage τ)) : Prop :=
  ∀ name, onConnection name messages = onConnection name messages'

omit [DecidableEq τ] [Ciborium τ] in
theorem AlikeMessages.mem {messages messages' : List (WorldMessage τ)}
    (h : AlikeMessages messages messages') {message : WorldMessage τ} :
    message ∈ messages ↔ message ∈ messages' := by
  have howns : ∀ messages : List (WorldMessage τ),
      message ∈ onConnection message.connectionName messages ↔ message ∈ messages := by
    intro messages
    rw [mem_onConnection, and_iff_left rfl]
  rw [← howns messages, ← howns messages', h message.connectionName]

omit [DecidableEq τ] [Ciborium τ] in
theorem AlikeMessages.append {messages messages' more more' : List (WorldMessage τ)}
    (h : AlikeMessages messages messages') (hmore : AlikeMessages more more') :
    AlikeMessages (messages ++ more) (messages' ++ more') := by
  intro name
  rw [onConnection_append, onConnection_append, h name, hmore name]

/-! ### Reading -/

omit [DecidableEq τ] [Ciborium τ] in
/-- What is collected from connections that go by their own names. -/
theorem onConnection_collect {T : Type} {f : T → List (WorldMessage τ)}
    {connections : AssocMap String T}
    (howns : ∀ name connection, connections.lookup name = some connection →
      ∀ message ∈ f connection, message.connectionName = name) (name : String) :
    onConnection name (collect (fun _ connection => f connection) connections) =
      ((connections.lookup name).map f).getD [] := by
  cases hlookup : connections.lookup name with
  | some connection =>
    refine filter_collect _ hlookup ?_ ?_
    · intro message hmessage
      exact decide_eq_true (howns name connection hlookup message hmessage)
    · intro other connection' hother hlookup' message hmessage
      rw [howns other connection' hlookup' message hmessage]
      exact decide_eq_false hother
  | none =>
    refine List.filter_eq_nil_iff.mpr fun message hmessage => ?_
    obtain ⟨other, connection', hlookup', hmessage⟩ := mem_collect.mp hmessage
    rw [howns other connection' hlookup' message hmessage, decide_eq_true_eq]
    rintro rfl
    rw [hlookup] at hlookup'
    cases hlookup'

/-- What is let through on a connection. -/
theorem onConnection_admitted {registry : MessagesRegistry τ} {connections : ServerConnections}
    (hplaces : ∀ name connection, connections.lookup name = some connection →
      serverSide.InPlace name connection) (name : String) :
    onConnection name (connections.admitted registry) =
      ((connections.lookup name).map fun connection =>
        (connection.admits registry connection.batch).filterMap
          (Incoming.written registry connection.connectionName)).getD [] := by
  refine onConnection_collect ?_ name
  intro name connection hlookup message hmessage
  obtain ⟨incoming, -, hwritten⟩ := List.mem_filterMap.mp hmessage
  obtain ⟨decoded, -, rfl⟩ := Option.map_eq_some_iff.mp hwritten
  exact (hplaces name connection hlookup).1

omit [DecidableEq τ] [Ciborium τ] in
/-- The messages that a system reads, connection by connection. -/
theorem filter_reads {β : Type} {reads : WorldMessage τ → Option β} {key : β → String}
    (hkey : ∀ message ev, reads message = some ev → key ev = message.connectionName)
    (messages : List (WorldMessage τ)) (name : String) :
    (messages.filterMap reads).filter (key · = name) =
      (onConnection name messages).filterMap reads := by
  rw [onConnection, List.filter_filterMap, List.filterMap_filter]
  refine List.filterMap_congr fun message _ => ?_
  cases hread : reads message with
  | none => simp
  | some ev =>
    have hname := hkey message ev hread
    by_cases hown : message.connectionName = name
    · simp [hname, hown, Option.filter]
    · simp [hname, hown, Option.filter]

/-! ### Authentication -/

/-- The answers of the handler are not those of the moment: they depend on the message, and on
what the connection holds. -/
def AuthenticationTrait.Steady {t : MessageType τ} (handler : AuthenticationTrait t) : Prop :=
  ∀ n n' message connection connection', ServerConnection.Alike connection connection' →
    (handler.authenticate n message connection).1 = (handler.authenticate n' message connection').1

namespace ServerConnection
variable {t : MessageType τ}

/-- What the handler's answers about the messages of a connection do to it, and the calls. -/
def settle (handler : AuthenticationTrait t) (connection : ServerConnection) :
    List (MessageReceivedFromClient τ t) → ServerConnection × List (AuthenticateCall τ)
  | [] => (connection, [])
  | ev :: evs =>
    let call : AuthenticateCall τ := ⟨t, ev, (handler.authenticate 0 ev.message connection).1⟩
    let settled := (connection.settleCall ev.connectionName call).settle handler evs
    (settled.1, call :: settled.2)

omit [DecidableEq τ] in
theorem Alike.settleCall {connection connection' : ServerConnection}
    (h : connection.Alike connection') (name : String) (call : AuthenticateCall τ) :
    (connection.settleCall name call).Alike (connection'.settleCall name call) := by
  unfold ServerConnection.settleCall
  split
  · split
    · exact h
    · exact h.acceptClient _ _
  · exact h

omit [DecidableEq τ] in
theorem Alike.settle {handler : AuthenticationTrait t} (hsteady : handler.Steady)
    {connection connection' : ServerConnection} (h : connection.Alike connection')
    (evs : List (MessageReceivedFromClient τ t)) :
    (connection.settle handler evs).1.Alike (connection'.settle handler evs).1 ∧
      (connection'.settle handler evs).2 = (connection.settle handler evs).2 := by
  induction evs generalizing connection connection' with
  | nil => exact ⟨h, rfl⟩
  | cons ev evs ih =>
    have hanswer := hsteady 0 0 ev.message connection connection' h
    obtain ⟨hsettled, hcalls⟩ := ih (h.settleCall ev.connectionName
      ⟨t, ev, (handler.authenticate 0 ev.message connection).1⟩)
    rw [ServerConnection.settle, ServerConnection.settle, ← hanswer]
    exact ⟨hsettled, congrArg (List.cons _) hcalls⟩

end ServerConnection

namespace ServerConnections
variable {t : MessageType τ} {handler : AuthenticationTrait t}

omit [DecidableEq τ] in
/-- The loop panics if a message has no sender, and only then. -/
theorem authenticationLoop_total (handler : AuthenticationTrait t)
    {evs : List (MessageReceivedFromClient τ t)}
    (hsenders : ∀ ev ∈ evs, ev.sender.isSome) (n : ℕ) (connections : ServerConnections) :
    ∃ left calls, authenticationLoop handler n connections evs = .ok (left, calls) := by
  induction evs generalizing n connections with
  | nil => exact ⟨connections, [], rfl⟩
  | cons ev evs ih =>
    obtain ⟨hsender, hsenders⟩ := List.forall_mem_cons.mp hsenders
    obtain ⟨uuid, huuid⟩ := Option.isSome_iff_exists.mp hsender
    rw [authenticationLoop, huuid]
    cases hlookup : connections.lookup ev.connectionName with
    | none => exact ih hsenders (n + 1) connections
    | some connection =>
      obtain ⟨left, calls, hloop⟩ := ih hsenders (n + 1)
        (if (handler.authenticate n ev.message connection).1 then
          AssocMap.modify ev.connectionName
            (fun _ => connection.acceptClient τ uuid ev.portNumber) connections
        else connections)
      refine ⟨left, ⟨t, ev, (handler.authenticate n ev.message connection).1⟩ :: calls, ?_⟩
      refine Panicking.bind_eq_ok.mpr ⟨uuid, rfl, ?_⟩
      exact Panicking.bind_eq_ok.mpr ⟨_, hloop, rfl⟩

omit [DecidableEq τ] in
theorem authenticationLoop_senders {evs : List (MessageReceivedFromClient τ t)} {n : ℕ}
    {connections left : ServerConnections} {calls : List (AuthenticateCall τ)}
    (h : authenticationLoop handler n connections evs = .ok (left, calls)) :
    ∀ ev ∈ evs, ev.sender.isSome := by
  induction evs generalizing n connections left calls with
  | nil => exact fun ev hev => absurd hev List.not_mem_nil
  | cons ev evs ih =>
    obtain ⟨uuid, huuid, h⟩ := Panicking.bind_eq_ok.mp h
    have hsender : ev.sender.isSome := by
      cases hs : ev.sender with
      | none =>
        rw [hs] at huuid
        cases huuid
      | some _ => rfl
    refine List.forall_mem_cons.mpr ⟨hsender, ?_⟩
    cases hlookup : connections.lookup ev.connectionName with
    | none =>
      rw [hlookup] at h
      exact ih h
    | some connection =>
      rw [hlookup] at h
      obtain ⟨_, hloop, -⟩ := Panicking.bind_eq_ok.mp h
      exact ih hloop

omit [DecidableEq τ] in
/-- **The loop, connection by connection.** A steady handler answers as if it were asked about the
messages of one connection only. -/
theorem authenticationLoop_settle (hsteady : handler.Steady)
    {evs : List (MessageReceivedFromClient τ t)} {n : ℕ} {connections left : ServerConnections}
    {calls : List (AuthenticateCall τ)}
    (h : authenticationLoop handler n connections evs = .ok (left, calls)) (name : String) :
    left.lookup name = (connections.lookup name).map (fun connection =>
        (connection.settle handler (evs.filter (·.connectionName = name))).1) ∧
      calls.filter (·.event.connectionName = name) =
        ((connections.lookup name).map fun connection =>
          (connection.settle handler (evs.filter (·.connectionName = name))).2).getD [] := by
  induction evs generalizing n connections left calls with
  | nil =>
    cases h
    refine ⟨Option.map_id'.symm, ?_⟩
    cases connections.lookup name <;> rfl
  | cons ev evs ih =>
    obtain ⟨uuid, huuid, h⟩ := Panicking.bind_eq_ok.mp h
    have hsender : ev.sender = some uuid := by
      cases hs : ev.sender with
      | none =>
        rw [hs] at huuid
        cases huuid
      | some uuid' =>
        rw [hs] at huuid
        cases huuid
        rfl
    cases hlookup : connections.lookup ev.connectionName with
    | none =>
      simp only [hlookup] at h
      obtain ⟨hleft, hcalls⟩ := ih h
      by_cases hname : ev.connectionName = name
      · subst hname
        rw [hleft, hcalls, hlookup]
        exact ⟨rfl, rfl⟩
      · rw [List.filter_cons_of_neg (by simpa using hname)]
        exact ⟨hleft, hcalls⟩
    | some connection =>
      simp only [hlookup] at h
      obtain ⟨⟨left', calls'⟩, hloop, heq⟩ := Panicking.bind_eq_ok.mp h
      cases heq
      obtain ⟨hleft, hcalls⟩ := ih hloop
      have hanswer := hsteady n 0 ev.message connection connection (.refl connection)
      by_cases hname : ev.connectionName = name
      · subst hname
        have hcall : (if (handler.authenticate n ev.message connection).1 = true then
            AssocMap.modify ev.connectionName
              (fun _ => connection.acceptClient τ uuid ev.portNumber) connections
            else connections).lookup ev.connectionName =
              some (connection.settleCall ev.connectionName
                ⟨t, ev, (handler.authenticate 0 ev.message connection).1⟩) := by
          rw [hanswer]
          cases hcan : (handler.authenticate 0 ev.message connection).1 <;>
            simp [ServerConnection.settleCall, hsender, hlookup]
        rw [hcall] at hleft hcalls
        rw [hleft, hlookup, List.filter_cons_of_pos (by simp),
          List.filter_cons_of_pos (by simp), hcalls, hanswer]
        exact ⟨rfl, rfl⟩
      · have hother : (if (handler.authenticate n ev.message connection).1 = true then
            AssocMap.modify ev.connectionName
              (fun _ => connection.acceptClient τ uuid ev.portNumber) connections
            else connections).lookup name = connections.lookup name := by
          split
          · exact AssocMap.lookup_modify_ne _ _ (Ne.symm hname)
          · rfl
        rw [hother] at hleft hcalls
        rw [List.filter_cons_of_neg (by simpa using hname),
          List.filter_cons_of_neg (by simpa using hname)]
        exact ⟨hleft, hcalls⟩

end ServerConnections

/-! ### Steps -/

/-- The states differ in the order of their maps, and in how the messages of different connections
are mixed. -/
structure ServerApp.Alike (app app' : ServerApp τ) : Prop where
  registry : app.registry = app'.registry
  connections : Related ServerConnection.Alike app.connections app'.connections
  unread : AlikeMessages app.unread app'.unread
  issued : app.issued = app'.issued
  nextStream : app.nextStream = app'.nextStream

/-- The outputs show the same of each connection. -/
structure ServerOutput.Alike (output output' : ServerOutput τ) : Prop where
  dispatched : AlikeMessages output.dispatched output'.dispatched
  calls : ∀ name, output.calls.filter (·.event.connectionName = name) =
    output'.calls.filter (·.event.connectionName = name)
  admitted : output.admitted = output'.admitted

/-- The handlers that are asked are steady. -/
def ServerInput.Steady : ServerInput τ → Prop
  | .authenticationMessageServer _ handler => handler.Steady
  | _ => True

omit [DecidableEq τ] [Ciborium τ] in
theorem ServerOutput.Alike.refl (output : ServerOutput τ) : output.Alike output :=
  ⟨fun _ => rfl, fun _ => rfl, rfl⟩

namespace ServerApp
variable {app app' after' : ServerApp τ} {input : ServerInput τ} {output' : ServerOutput τ}

theorem task_registry {name : String} {task : Task} {event : TaskEvent}
    (h : app.task name task event = some (app', output')) : app'.registry = app.registry := by
  unfold ServerApp.task at h
  split at h
  · cases h
  · split at h
    · split at h
      · split at h
        · cases h
          rfl
        · cases h
      · cases h
        rfl
    · cases h

theorem alike_equivalence : Equivalence (@Alike τ _ _ _) where
  refl _ := ⟨rfl, .of_same (.refl _) .refl, fun _ => rfl, rfl, rfl⟩
  symm h := ⟨h.registry.symm, h.connections.symm fun _ _ halike => halike.symm,
    fun name => (h.unread name).symm, h.issued.symm, h.nextStream.symm⟩
  trans h h' := ⟨h.registry.trans h'.registry,
    h.connections.trans h'.connections fun _ _ _ halike halike' => halike.trans halike',
    fun name => (h.unread name).trans (h'.unread name), h.issued.trans h'.issued,
    h.nextStream.trans h'.nextStream⟩

namespace Alike

theorem inPlace (h : app.Alike app')
    (hplaces : ∀ name connection, app.connections.lookup name = some connection →
      serverSide.InPlace name connection) {name : String} {connection' : ServerConnection}
    (hlookup : app'.connections.lookup name = some connection') :
    serverSide.InPlace name connection' := by
  obtain ⟨connection, hlookup, halike⟩ :=
    (h.connections.symm fun _ _ halike => halike.symm).lookup hlookup
  obtain ⟨hname, hport⟩ := hplaces name connection hlookup
  refine ⟨halike.symm.connectionName.trans hname, ?_⟩
  obtain ⟨port, hport⟩ := Option.isSome_iff_exists.mp hport
  obtain ⟨port', hport', -⟩ := halike.symm.mainPort_some hport
  exact Option.isSome_iff_exists.mpr ⟨port', hport'⟩

theorem first (h : app.Alike app')
    (hplaces : ∀ name connection, app.connections.lookup name = some connection →
      serverSide.InPlace name connection) (system : FirstSystem) :
    Related ServerConnection.Alike (system.run app.connections)
      (system.run app'.connections) := by
  have hturns : ∀ turn : ServerConnection → ServerConnection,
      (∀ connection connection', ServerConnection.Alike connection connection' →
        (turn connection).Alike (turn connection')) →
          Related ServerConnection.Alike (AssocMap.mapVals (fun _ => turn) app.connections)
            (AssocMap.mapVals (fun _ => turn) app'.connections) := fun turn hturn =>
    h.connections.mapVals fun _ connection connection' _ halike =>
      hturn connection connection' halike
  cases system with
  | checkMainPortDropped =>
    exact serverSide.related_check hplaces (fun _ _ hlookup => h.inPlace hplaces hlookup)
      h.connections fun _ _ halike => halike.checkDropped
  | startConnections => exact hturns _ fun _ _ halike => halike.turn .startConnections
  | receiveMainPortListener => exact hturns _ fun _ _ halike => halike.turn .receiveMainPortListener
  | startAcceptingConnectionsMainPort =>
    exact hturns _ fun _ _ halike => halike.turn .startAcceptingConnectionsMainPort
  | checkClientDisconnectedFromPort =>
    exact hturns _ fun _ _ halike => halike.turn .checkClientDisconnectedFromPort
  | checkClientConnectedToPort =>
    exact hturns _ fun _ _ halike => halike.turn .checkClientConnectedToPort
  | startListeningNotAuthenticated =>
    exact hturns _ fun _ _ halike => halike.turn .startListeningNotAuthenticated

theorem readMessages (h : app.Alike app')
    (hplaces : ∀ name connection, app.connections.lookup name = some connection →
      serverSide.InPlace name connection)
    (hstep : app'.step .readMessagesServer = some (after', output')) :
    ∃ after output, app.step .readMessagesServer = some (after, output) ∧ after.Alike after' ∧
      output.Alike output' := by
  obtain ⟨connections, commands, dispatched, hread, happlied, rfl, rfl⟩ :=
    step_readMessagesServer hstep
  have hreads' := readsBatch_of_ok hread
  have hreads : ReadsBatchServer app.registry app.connections := by
    refine (readsBatchServer_iff _).mpr fun name connection hlookup message hmessage => ?_
    obtain ⟨connection', hlookup', halike⟩ := h.connections.lookup hlookup
    rw [h.registry]
    exact (readsBatchServer_iff _).mp hreads' name connection' hlookup' message
      (halike.batch ▸ hmessage)
  rw [readMessagesServer_ok hreads'] at hread
  cases hread
  rw [applyCommands_ok] at happlied
  cases happlied
  have hdispatched : AlikeMessages (app.connections.admitted app.registry)
      (app'.connections.admitted app'.registry) := by
    intro name
    rw [onConnection_admitted hplaces,
      onConnection_admitted fun _ _ hlookup => h.inPlace hplaces hlookup]
    cases hlookup : app.connections.lookup name with
    | none => rw [h.connections.lookup_none hlookup]; rfl
    | some connection =>
      obtain ⟨connection', hlookup', halike⟩ := h.connections.lookup hlookup
      simp only [hlookup', Option.map_some, h.registry, halike.batch, halike.admits,
        halike.connectionName]
  refine ⟨{ app with
      connections := AssocMap.mapVals (fun _ connection => connection.drained) app.connections
      unread := app.unread ++ app.connections.admitted app.registry },
    { quiet with dispatched := app.connections.admitted app.registry }, ?_, ?_, ?_⟩
  · simp only [ServerApp.step, readMessagesServer_ok hreads, applyCommands_ok]
  · exact ⟨h.registry, h.connections.mapVals fun _ _ _ _ halike => halike.drained,
      h.unread.append hdispatched, h.issued, h.nextStream⟩
  · exact ⟨hdispatched, fun _ => rfl, rfl⟩

theorem authenticate {t : MessageType τ} {handler : AuthenticationTrait t} (h : app.Alike app')
    (hsteady : handler.Steady)
    (hstep : app'.step (.authenticationMessageServer t handler) = some (after', output')) :
    ∃ after output, app.step (.authenticationMessageServer t handler) = some (after, output) ∧
      after.Alike after' ∧ output.Alike output' := by
  obtain ⟨left', calls', hloop', rfl, rfl⟩ := step_authenticationMessageServer hstep
  have hsenders : ∀ ev ∈ app.unread.filterMap (·.fromClient? t), ev.sender.isSome := by
    intro ev hev
    obtain ⟨message, hmessage, hread⟩ := List.mem_filterMap.mp hev
    exact ServerConnections.authenticationLoop_senders hloop' ev
      (List.mem_filterMap.mpr ⟨message, h.unread.mem.mp hmessage, hread⟩)
  obtain ⟨left, calls, hloop⟩ :=
    ServerConnections.authenticationLoop_total handler hsenders 0 app.connections
  have hsettle := ServerConnections.authenticationLoop_settle hsteady hloop
  have hsettle' := ServerConnections.authenticationLoop_settle hsteady hloop'
  have hkey : ∀ (message : WorldMessage τ) (ev : MessageReceivedFromClient τ t),
      message.fromClient? t = some ev → ev.connectionName = message.connectionName := by
    intro message ev hread
    cases WorldMessage.fromClient?_eq_some.mp hread
    rfl
  simp only [filter_reads hkey] at hsettle hsettle'
  refine ⟨{ app with
      connections := left
      unread := app.unread.filter fun message => (message.fromClient? t).isNone },
    { quiet with calls := calls }, ?_, ?_, ?_⟩
  · simp only [ServerApp.step, authenticationMessageServer, hloop]
  · refine ⟨h.registry, fun name => ?_, fun name => ?_, h.issued, h.nextStream⟩
    · rw [(hsettle name).1, (hsettle' name).1, ← h.unread name]
      cases hlookup : app.connections.lookup name with
      | none =>
        rw [h.connections.lookup_none hlookup]
        exact .none
      | some connection =>
        obtain ⟨connection', hlookup', halike⟩ := h.connections.lookup hlookup
        rw [hlookup']
        exact .some (halike.settle hsteady _).1
    · rw [onConnection_filter, onConnection_filter, h.unread name]
  · refine ⟨fun _ => rfl, fun name => ?_, rfl⟩
    rw [(hsettle name).2, (hsettle' name).2, ← h.unread name]
    cases hlookup : app.connections.lookup name with
    | none => rw [h.connections.lookup_none hlookup]
    | some connection =>
      obtain ⟨connection', hlookup', halike⟩ := h.connections.lookup hlookup
      simp only [hlookup', Option.map_some, (halike.settle hsteady _).2]

/-- The first of the streams that wait at a connection. -/
theorem head (h : app.Alike app') (name : String) :
    (app'.port? name).bind (·.clientConnected.head?) =
      (app.port? name).bind (·.clientConnected.head?) := by
  cases hlookup : app.connections.lookup name with
  | none => simp only [port?, hlookup, h.connections.lookup_none hlookup]
  | some connection =>
    obtain ⟨connection', hlookup', halike⟩ := h.connections.lookup hlookup
    cases hport : connection.mainPort with
    | none =>
      simp only [port?, hlookup, hlookup', Option.bind_some, hport, halike.mainPort_none hport]
    | some port =>
      obtain ⟨port', hport', hports⟩ := halike.mainPort_some hport
      simp only [port?, hlookup, hlookup', Option.bind_some, hport, hport', hports.clientConnected]

theorem modifyPort (h : app.Alike app') (name : String)
    {op : ServerPort → Option Runtime → ServerPort × List Task}
    (hop : ∀ {port port'} runtime, ServerPort.Alike port port' →
      (op port runtime).1.Alike (op port' runtime).1 ∧
        (op port runtime).2.Perm (op port' runtime).2) :
    (app.modifyPort name op).Alike (app'.modifyPort name op) :=
  ⟨h.registry, h.connections.modify name fun _ _ _ halike => halike.onMainPort hop, h.unread,
    h.issued, h.nextStream⟩

theorem portOp (h : app.Alike app') {name : String} {op : PortOp}
    (hstep : app'.portOp name op = some (after', output')) :
    ∃ after output, app.portOp name op = some (after, output) ∧ after.Alike after' ∧
      output.Alike output' := by
  have hrun : (app.modifyPort name fun port runtime => op.run port runtime).Alike
      (app'.modifyPort name fun port runtime => op.run port runtime) :=
    h.modifyPort name fun runtime halike => halike.run op runtime
  cases op with
  | checkClientsConnected newUuid =>
    simp only [ServerApp.portOp, h.head name, ← h.issued] at hstep
    simp only [ServerApp.portOp]
    split at hstep
    · cases hstep
    · rename_i hnew
      rw [if_neg hnew]
      split at hstep
      · cases hstep
        exact ⟨_, _, rfl, hrun, .refl _⟩
      · cases hstep
        refine ⟨_, _, rfl, ?_, ⟨fun _ => rfl, fun _ => rfl, rfl⟩⟩
        exact ⟨hrun.registry, hrun.connections, hrun.unread, congrArg (newUuid :: ·) hrun.issued,
          hrun.nextStream⟩
  | _ =>
    cases hstep
    exact ⟨_, _, rfl, hrun, .refl _⟩

theorem task (h : app.Alike app') {name : String} {task : Task} {event : TaskEvent}
    (hstep : app'.task name task event = some (after', output')) :
    ∃ after output, app.task name task event = some (after, output) ∧ after.Alike after' ∧
      output.Alike output' := by
  obtain ⟨hconnections, ⟨connection', hlookup', hruns, hdoes⟩, hunread, hissued, rfl, hnext⟩ :=
    task_spec hstep
  obtain ⟨connection, hlookup, halike⟩ :=
    (h.connections.symm fun _ _ halike => halike.symm).lookup hlookup'
  have hruns := halike.running.mem_iff.mp hruns
  have hreceived : Related ServerConnection.Alike
      (AssocMap.modify name (·.receive task event) app.connections) after'.connections := by
    rw [hconnections]
    exact h.connections.modify name fun _ _ _ halike => halike.receive task event
  have hafter : ∀ nextStream, after'.nextStream = nextStream →
      { app with
        connections := AssocMap.modify name (·.receive task event) app.connections
        nextStream := nextStream }.Alike after' := by
    rintro _ rfl
    exact ⟨h.registry.trans (task_registry hstep).symm, hreceived,
      fun name => hunread ▸ h.unread name, h.issued.trans hissued.symm, rfl⟩
  simp only [ServerApp.task, hlookup, hruns, hdoes, and_self, if_true]
  rcases hnext with ⟨stream, rfl, hid, hnext⟩ | ⟨hother, hnext⟩
  · dsimp only
    rw [h.nextStream, if_pos hid]
    exact ⟨_, _, rfl, hafter _ hnext, .refl _⟩
  · have hquiet := hafter _ (hnext.trans h.nextStream.symm)
    cases event with
    | clientConnected stream => exact absurd rfl (hother stream)
    | _ => exact ⟨_, _, rfl, hquiet, .refl _⟩

/-- **A step** that one of two states that are alike can take, the other can take too, and what is
shown and what is left are alike. -/
theorem step (h : app.Alike app')
    (hplaces : ∀ name connection, app.connections.lookup name = some connection →
      serverSide.InPlace name connection)
    (hsteady : input.Steady) (hstep : app'.step input = some (after', output')) :
    ∃ after output, app.step input = some (after, output) ∧ after.Alike after' ∧
      output.Alike output' := by
  cases input with
  | first system =>
    cases hstep
    exact ⟨_, _, rfl, ⟨h.registry, h.first hplaces system, h.unread, h.issued, h.nextStream⟩,
      .refl _⟩
  | readMessagesServer => exact h.readMessages hplaces hstep
  | authenticationMessageServer t handler => exact h.authenticate hsteady hstep
  | registerMessage t =>
    cases hstep
    exact ⟨_, _, rfl, ⟨congrArg (·.registerMessage t) h.registry, h.connections, h.unread,
      h.issued, h.nextStream⟩, .refl _⟩
  | startConnection connectionName settings =>
    cases hstep
    exact ⟨_, _, rfl, ⟨h.registry, NetworkConnections.related_startConnection h.connections .refl
      connectionName settings, h.unread, h.issued, h.nextStream⟩, .refl _⟩
  | disconnect connectionName =>
    cases hstep
    exact ⟨_, _, rfl, ⟨h.registry, h.connections.erase connectionName, h.unread, h.issued,
      h.nextStream⟩, .refl _⟩
  | portOp connectionName op => exact h.portOp hstep
  | sendMessage connectionName t message target =>
    cases hstep
    exact ⟨_, _, rfl, h.modifyPort connectionName fun runtime halike =>
      ⟨halike, .of_eq (halike.sendMessage message target runtime).symm⟩, .refl _⟩
  | task connectionName task event => exact h.task hstep
  | updateMessages =>
    cases hstep
    exact ⟨_, _, rfl, ⟨h.registry, h.connections, fun _ => rfl, h.issued, h.nextStream⟩, .refl _⟩

/-- **A panic** in one of two states that are alike is one in the other. -/
theorem panics (h : app.Alike app')
    (hplaces : ∀ name connection, app.connections.lookup name = some connection →
      serverSide.InPlace name connection)
    (hsteady : input.Steady) (hpanic : app.step input = none) : app'.step input = none := by
  cases hstep : app'.step input with
  | none => rfl
  | some result =>
    obtain ⟨after, output, hsome, -⟩ := h.step hplaces hsteady hstep
    rw [hpanic] at hsome
    cases hsome

end Alike

end ServerApp

/-- **The order in which a server visits its maps does not matter.** In a run in which any map may
be put in another order at any time, and the messages of different connections may be mixed
otherwise, each connection dispatches what it dispatches in the plain run with the same inputs; and
a step that panics in one order panics in all. -/
theorem server_order_irrelevant (ts : List (ServerTransition τ)) (app : ServerApp τ)
    (h : (serverMachine τ).RunUpTo ServerApp.Alike .new ts app)
    (hsteady : ∀ t ∈ ts, t.input.Steady) :
    (∃ us app', (serverMachine τ).Run .new us app' ∧ app'.Alike app ∧
      List.Forall₂ (fun u t : ServerTransition τ => u.input = t.input ∧ u.output.Alike t.output)
        us ts) ∧
    ∀ (other : ServerApp τ) (input : ServerInput τ), app.Alike other → input.Steady →
      (app.step input = none ↔ other.step input = none) := by
  have hplain := h.plain (I := fun app => ∀ name connection,
    app.connections.lookup name = some connection → serverSide.InPlace name connection)
      ⟨ServerApp.alike_equivalence, fun hplaces halike hsteady hstep =>
        ServerApp.Alike.step halike hplaces hsteady hstep⟩
      (fun _ _ hrun => ServerApp.inPlace_run hrun) hsteady
  refine ⟨hplain, fun other input halike hsteady => ?_⟩
  obtain ⟨us, app', hrun, happ, -⟩ := hplain
  have hplaces := ServerApp.inPlace_run hrun
  constructor
  · exact halike.panics (fun _ _ hlookup => happ.inPlace hplaces hlookup) hsteady
  · have hother : app'.Alike other := ServerApp.alike_equivalence.trans happ halike
    exact (ServerApp.alike_equivalence.symm halike).panics
      (fun _ _ hlookup => hother.inPlace hplaces hlookup) hsteady

namespace Sample

/-- Two connections, of which one has a ticket to read. -/
def waitingInputs : List (ServerInput Sample) :=
  ticketInputs.take 3 ++ [.startConnection "other" (.server (.tcp .default))] ++
    (ticketInputs.take 12).drop 3

def waitingRun : List (ServerTransition Sample) × ServerApp Sample :=
  ((serverMachine Sample).exec .new waitingInputs).getD ([], .new)

/-- The connections the other way round. -/
def swapped : ServerApp Sample :=
  { waitingRun.2 with
    connections :=
      ⟨waitingRun.2.connections.entries.reverse,
        (List.perm_nodupKeys (List.reverse_perm _)).mpr waitingRun.2.connections.nodupKeys⟩ }

def swappedRun : List (ServerTransition Sample) × ServerApp Sample :=
  ((serverMachine Sample).exec swapped [.readMessagesServer,
    .authenticationMessageServer (.user .ticket) ⟨fun _ _ _ => (true, "Success")⟩]).getD
      ([], swapped)

theorem alike_swapped : waitingRun.2.Alike swapped :=
  ⟨rfl, .of_same (.of_perm (List.reverse_perm _).symm) .refl, fun _ => rfl, rfl, rfl⟩

theorem runUpTo_swappedRun : (serverMachine Sample).RunUpTo ServerApp.Alike .new
    (waitingRun.1 ++ swappedRun.1) swappedRun.2 := by
  have hwaiting : (serverMachine Sample).exec .new waitingInputs = some waitingRun := rfl
  have hswapped : (serverMachine Sample).exec swapped [.readMessagesServer,
    .authenticationMessageServer (.user .ticket) ⟨fun _ _ _ => (true, "Success")⟩] =
      some swappedRun := rfl
  have hrun : (serverMachine Sample).RunUpTo ServerApp.Alike .new ([] ++ waitingRun.1)
      waitingRun.2 := Machine.RunUpTo.nil.append (.of_exec hwaiting)
  exact (hrun.change alike_swapped).append (.of_exec hswapped)

end Sample

/-- The connection that comes first when they are read is the other one. -/
theorem server_order_irrelevant_swappedRun :
    (∃ us app', (serverMachine Sample).Run .new us app' ∧ app'.Alike Sample.swappedRun.2 ∧
      List.Forall₂ (fun u t : ServerTransition Sample => u.input = t.input ∧
        u.output.Alike t.output) us (Sample.waitingRun.1 ++ Sample.swappedRun.1)) ∧
    ∀ (other : ServerApp Sample) (input : ServerInput Sample), Sample.swappedRun.2.Alike other →
      input.Steady → (Sample.swappedRun.2.step input = none ↔ other.step input = none) := by
  refine server_order_irrelevant _ _ Sample.runUpTo_swappedRun ?_
  have hwaiting : Sample.waitingRun.1.all (fun t => match t.input with
    | .authenticationMessageServer .. => false
    | _ => true) = true := rfl
  intro t ht
  rcases List.mem_append.mp ht with ht | ht
  · have hother := List.all_eq_true.mp hwaiting t ht
    cases hinput : t.input with
    | authenticationMessageServer t' handler =>
      rw [hinput] at hother
      cases hother
    | _ => trivial
  · rcases List.mem_cons.mp ht with rfl | ht
    · trivial
    · cases List.mem_singleton.mp ht
      intro n n' message connection connection' _
      rfl

/-! ## A client -/

/-- The states differ in the order of the connections, and in how the messages of different
connections are mixed. -/
structure ClientApp.Alike (app app' : ClientApp τ) : Prop where
  registry : app.registry = app'.registry
  connections : Same app.connections app'.connections
  unread : AlikeMessages app.unread app'.unread
  pending : app.pending = app'.pending
  nextStream : app.nextStream = app'.nextStream

namespace ClientApp
variable {app app' after' : ClientApp τ} {input : ClientInput τ}
  {output' : List (WorldMessage τ)}

theorem alike_equivalence : Equivalence (@Alike τ _ _ _) where
  refl _ := ⟨rfl, .refl _, fun _ => rfl, rfl, rfl⟩
  symm h := ⟨h.registry.symm, h.connections.symm, fun name => (h.unread name).symm,
    h.pending.symm, h.nextStream.symm⟩
  trans h h' := ⟨h.registry.trans h'.registry, h.connections.trans h'.connections,
    fun name => (h.unread name).trans (h'.unread name), h.pending.trans h'.pending,
    h.nextStream.trans h'.nextStream⟩

/-- What decodes of the messages of a connection. -/
theorem onConnection_received {registry : MessagesRegistry τ} {connections : ClientConnections}
    (hplaces : ∀ name connection, connections.lookup name = some connection →
      clientSide.InPlace name connection) (name : String) :
    onConnection name (collect (fun _ connection => connection.batch.filterMap
        (ClientConnection.received registry connection.connectionName)) connections) =
      ((connections.lookup name).map fun connection => connection.batch.filterMap
        (ClientConnection.received registry connection.connectionName)).getD [] := by
  refine onConnection_collect ?_ name
  intro name connection hlookup message hmessage
  obtain ⟨bytes, -, hreceived⟩ := List.mem_filterMap.mp hmessage
  obtain ⟨decoded, -, rfl⟩ := Option.map_eq_some_iff.mp hreceived
  exact (hplaces name connection hlookup).1

namespace Alike

theorem inPlace (h : app.Alike app')
    (hplaces : ∀ name connection, app.connections.lookup name = some connection →
      clientSide.InPlace name connection) {name : String} {connection : ClientConnection}
    (hlookup : app'.connections.lookup name = some connection) :
    clientSide.InPlace name connection :=
  hplaces name connection ((h.connections name).trans hlookup)

theorem first (h : app.Alike app')
    (hplaces : ∀ name connection, app.connections.lookup name = some connection →
      clientSide.InPlace name connection) (system : ClientSystem) :
    Same (system.run app.connections) (system.run app'.connections) := by
  by_cases hsystem : system = .checkMainPortDropped
  · subst hsystem
    have hrelated := clientSide.related_check (r := Eq) hplaces
      (fun _ _ hlookup => h.inPlace hplaces hlookup) (.of_same h.connections fun _ => rfl)
      (by rintro connection _ rfl; exact ⟨rfl, rfl⟩)
    exact hrelated.same
  · intro name
    rw [ClientSystem.lookup_run hsystem, ClientSystem.lookup_run hsystem, h.connections name]

theorem readMessages (h : app.Alike app')
    (hplaces : ∀ name connection, app.connections.lookup name = some connection →
      clientSide.InPlace name connection)
    (hstep : app'.step .readMessagesClient = some (after', output')) :
    ∃ after output, app.step .readMessagesClient = some (after, output) ∧ after.Alike after' ∧
      AlikeMessages output output' := by
  simp only [ClientApp.step] at hstep
  split at hstep
  · cases hstep
  · rename_i connections commands hread
    split at hstep
    · cases hstep
    · rename_i dispatched happlied
      cases hstep
      have hreads' := readsBatch_of_ok hread
      have hreads : ReadsBatchClient app.registry app.connections := by
        refine (readsBatchClient_iff _).mpr fun name connection hlookup => ?_
        rw [h.registry]
        exact (readsBatchClient_iff _).mp hreads' name connection
          ((h.connections name).symm.trans hlookup)
      rw [readMessagesClient_ok hreads'] at hread
      cases hread
      rw [applyCommands_ok] at happlied
      cases happlied
      have hdispatched : AlikeMessages
          (collect (fun _ connection => connection.batch.filterMap
            (ClientConnection.received app.registry connection.connectionName)) app.connections)
          (collect (fun _ connection => connection.batch.filterMap
            (ClientConnection.received app'.registry connection.connectionName))
              app'.connections) := by
        intro name
        rw [onConnection_received hplaces,
          onConnection_received fun _ _ hlookup => h.inPlace hplaces hlookup, h.connections name,
          h.registry]
      refine ⟨{ app with
          connections := AssocMap.mapVals (fun _ connection => connection.drained) app.connections
          unread := app.unread ++ collect (fun _ connection => connection.batch.filterMap
            (ClientConnection.received app.registry connection.connectionName))
              app.connections }, _, ?_, ?_, hdispatched⟩
      · simp only [ClientApp.step, readMessagesClient_ok hreads, applyCommands_ok]
      · exact ⟨h.registry, h.connections.mapVals _, h.unread.append hdispatched, h.pending,
          h.nextStream⟩

theorem authenticate (h : app.Alike app') :
    Same ((app.unread.filterMap (·.fromServer? .authenticatedUuid)).foldl
        authenticationMessageClient app.connections)
      ((app'.unread.filterMap (·.fromServer? .authenticatedUuid)).foldl
        authenticationMessageClient app'.connections) := by
  have hkey : ∀ (message : WorldMessage τ) (ev : MessageReceivedFromServer τ .authenticatedUuid),
      message.fromServer? .authenticatedUuid = some ev →
        ev.connectionName = message.connectionName := by
    intro message ev hread
    cases WorldMessage.fromServer?_eq_some.mp hread
    rfl
  intro name
  rw [lookup_authenticationMessages, lookup_authenticationMessages, h.connections name, lastUuid,
    lastUuid, filter_reads hkey, filter_reads hkey, h.unread name]

theorem task (h : app.Alike app') {name : String} {task : ClientTask} {event : ClientEvent}
    (hstep : app'.task name task event = some after') :
    ∃ after, app.task name task event = some after ∧ after.Alike after' := by
  have hreceived : ∀ nextStream nextStream', nextStream = nextStream' →
      { app.modify name fun connection => connection.receive task event with
        nextStream := nextStream }.Alike
      { app'.modify name fun connection => connection.receive task event with
        nextStream := nextStream' } := by
    rintro nextStream _ rfl
    exact ⟨h.registry, h.connections.mapVals _, h.unread, h.pending, rfl⟩
  unfold ClientApp.task at hstep ⊢
  rw [h.connections name]
  split at hstep
  · cases hstep
  · split at hstep
    · rename_i hruns
      simp only [hruns, and_self, if_true]
      split at hstep
      · rename_i stream
        split at hstep
        · rename_i hid
          cases hstep
          rw [h.nextStream]
          simp only [hid, if_true]
          exact ⟨_, rfl, hreceived _ _ rfl⟩
        · cases hstep
      · rename_i hother
        cases hstep
        have hquiet := hreceived _ _ h.nextStream
        cases event with
        | connectedToServer stream => exact absurd rfl (hother stream)
        | _ => exact ⟨_, rfl, hquiet⟩
    · cases hstep

/-- **A step** that one of two states that are alike can take, the other can take too, and what is
dispatched and what is left are alike. -/
theorem step (h : app.Alike app')
    (hplaces : ∀ name connection, app.connections.lookup name = some connection →
      clientSide.InPlace name connection)
    (hstep : app'.step input = some (after', output')) :
    ∃ after output, app.step input = some (after, output) ∧ after.Alike after' ∧
      AlikeMessages output output' := by
  cases input with
  | first system =>
    simp only [ClientApp.step] at hstep ⊢
    rw [h.pending]
    split at hstep
    · rename_i hnext
      cases hstep
      rw [if_pos hnext]
      exact ⟨_, _, rfl, ⟨h.registry, h.first hplaces system, h.unread, rfl, h.nextStream⟩,
        fun _ => rfl⟩
    · cases hstep
  | readMessagesClient => exact h.readMessages hplaces hstep
  | authenticationMessageClient =>
    cases hstep
    refine ⟨_, _, rfl, ⟨h.registry, h.authenticate, fun name => ?_, h.pending, h.nextStream⟩,
      fun _ => rfl⟩
    rw [onConnection_filter, onConnection_filter, h.unread name]
  | registerMessage t =>
    cases hstep
    exact ⟨_, _, rfl, ⟨congrArg (·.registerMessage t) h.registry, h.connections, h.unread,
      h.pending, h.nextStream⟩, fun _ => rfl⟩
  | startConnection connectionName settings =>
    cases hstep
    have hstarted := NetworkConnections.related_startConnection (r := Eq)
      (.of_same h.connections fun _ => rfl) (fun _ => rfl) connectionName settings
    exact ⟨_, _, rfl, ⟨h.registry, hstarted.same, h.unread, h.pending, h.nextStream⟩,
      fun _ => rfl⟩
  | disconnect connectionName =>
    cases hstep
    exact ⟨_, _, rfl, ⟨h.registry, h.connections.erase connectionName, h.unread, h.pending,
      h.nextStream⟩, fun _ => rfl⟩
  | sendMessage connectionName t message =>
    cases hstep
    exact ⟨_, _, rfl, ⟨h.registry, h.connections.mapVals _, h.unread, h.pending, h.nextStream⟩,
      fun _ => rfl⟩
  | task connectionName task event =>
    obtain ⟨after', htask, heq⟩ := Option.map_eq_some_iff.mp hstep
    cases heq
    obtain ⟨after, htask', halike⟩ := h.task htask
    refine ⟨after, [], ?_, halike, fun _ => rfl⟩
    rw [ClientApp.step, htask', Option.map_some]
  | updateMessages =>
    cases hstep
    exact ⟨_, _, rfl, ⟨h.registry, h.connections, fun _ => rfl, h.pending, h.nextStream⟩,
      fun _ => rfl⟩

end Alike

end ClientApp

/-- **The order in which a client visits its connections does not matter.** In a run in which they
may be put in another order at any time, each connection dispatches what it dispatches in the plain
run with the same inputs. -/
theorem client_order_irrelevant (ts : List (ClientTransition τ)) (app : ClientApp τ)
    (h : (clientMachine τ).RunUpTo ClientApp.Alike .new ts app) :
    ∃ us app', (clientMachine τ).Run .new us app' ∧ app'.Alike app ∧
      List.Forall₂ (fun u t : ClientTransition τ => u.input = t.input ∧
        AlikeMessages u.output t.output) us ts := by
  refine h.plain (I := fun app => ∀ name connection, app.connections.lookup name = some connection →
    clientSide.InPlace name connection) (p := fun _ => True)
      ⟨ClientApp.alike_equivalence, ?_⟩ ?_ fun _ _ => trivial
  · intro app app' input after' output' hplaces halike _ hstep
    exact halike.step hplaces hstep
  · intro us app hrun
    exact ClientApp.inPlace_run hrun

namespace Sample

/-- Two connections, of which one has a UUID to read. -/
def toldInputs : List (ClientInput Sample) :=
  droppedInputs.take 3 ++ [.startConnection "other" (.client (.tcp .default))] ++
    (droppedInputs.take 9).drop 3

def toldRun : List (ClientTransition Sample) × ClientApp Sample :=
  ((clientMachine Sample).exec .new toldInputs).getD ([], .new)

/-- The connections the other way round. -/
def turned : ClientApp Sample :=
  { toldRun.2 with
    connections :=
      ⟨toldRun.2.connections.entries.reverse,
        (List.perm_nodupKeys (List.reverse_perm _)).mpr toldRun.2.connections.nodupKeys⟩ }

def turnedRun : List (ClientTransition Sample) × ClientApp Sample :=
  ((clientMachine Sample).exec turned [.readMessagesClient, .authenticationMessageClient]).getD
    ([], turned)

theorem alike_turned : toldRun.2.Alike turned :=
  ⟨rfl, .of_perm (List.reverse_perm _).symm, fun _ => rfl, rfl, rfl⟩

theorem runUpTo_turnedRun : (clientMachine Sample).RunUpTo ClientApp.Alike .new
    (toldRun.1 ++ turnedRun.1) turnedRun.2 := by
  have htold : (clientMachine Sample).exec .new toldInputs = some toldRun := rfl
  have hturned : (clientMachine Sample).exec turned
    [.readMessagesClient, .authenticationMessageClient] = some turnedRun := rfl
  have hrun : (clientMachine Sample).RunUpTo ClientApp.Alike .new ([] ++ toldRun.1) toldRun.2 :=
    Machine.RunUpTo.nil.append (.of_exec htold)
  exact (hrun.change alike_turned).append (.of_exec hturned)

end Sample

/-- The connection that comes first when they are read is the other one. -/
theorem client_order_irrelevant_turnedRun :
    ∃ us app', (clientMachine Sample).Run .new us app' ∧ app'.Alike Sample.turnedRun.2 ∧
      List.Forall₂ (fun u t : ClientTransition Sample => u.input = t.input ∧
        AlikeMessages u.output t.output) us (Sample.toldRun.1 ++ Sample.turnedRun.1) :=
  client_order_irrelevant _ _ Sample.runUpTo_turnedRun

end Inator
