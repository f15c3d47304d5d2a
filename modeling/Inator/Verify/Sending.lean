import Inator.Plugins.Deployment
import Inator.Verify.Delivery

/-! # Where tasks come from

A reader reads the stream that was entered for the client it reads for, and no two streams are
entered for one client. A write task carries a message that was sent to the client whose stream it
writes to: a program handed it to `send_message`, or it tells a client that was authenticated its
UUID. So there are no more write tasks than messages (`buffers_run`). -/

namespace Inator

/-- The bytes of a message, if it encodes. -/
def MessageType.encoded {τ : Type} [UserMessages τ] [Ciborium τ] (t : MessageType τ)
    (message : t.Message) : List (List UInt8) :=
  match Ciborium.intoWriter message with
  | .ok buf => [buf]
  | .error _ => []

/-! ## The tasks of a server -/

section Server
variable {τ : Type} [DecidableEq τ] [UserMessages τ] [Ciborium τ]
  {entered : Uuid → Stream → Prop} {sent sent' : Uuid → List (List UInt8)}

/-- The tasks read the streams of their clients, and write what was sent to the one client of a
stream. -/
structure Owned (entered : Uuid → Stream → Prop) (sent : Uuid → List (List UInt8))
    (tasks : List Task) : Prop where
  reads : ∀ stream framing target isAuthenticated,
    .read stream framing target isAuthenticated ∈ tasks → entered target stream
  writes : ∀ stream uuid, (∀ uuid', entered uuid' stream → uuid' = uuid) →
    (tasks.filterMap (·.buffer stream)).Sublist (sent uuid)

namespace Owned
variable {tasks tasks' : List Task}

theorem nil : Owned entered sent [] where
  reads _ _ _ _ hread := absurd hread List.not_mem_nil
  writes _ _ _ := List.nil_sublist _

theorem append (h : Owned entered sent tasks) (h' : Owned entered sent' tasks') :
    Owned entered (fun uuid => sent uuid ++ sent' uuid) (tasks ++ tasks') where
  reads stream framing target isAuthenticated hread :=
    (List.mem_append.mp hread).elim (h.reads _ _ _ _) (h'.reads _ _ _ _)
  writes stream uuid hown := by
    rw [List.filterMap_append]
    exact (h.writes stream uuid hown).append (h'.writes stream uuid hown)

theorem mono (h : Owned entered sent tasks) (hsent : ∀ uuid, (sent uuid).Sublist (sent' uuid)) :
    Owned entered sent' tasks where
  reads := h.reads
  writes stream uuid hown := (h.writes stream uuid hown).trans (hsent uuid)

/-- What operations spawn reads the streams of its clients, and writes nothing. -/
theorem of_spawns {port : ServerPort} (h : ∀ task ∈ tasks, port.Spawns task)
    (hentries : ∀ target infos, port.notAuthenticatedListening.lookup target = some infos ∨
      port.listeningClients.lookup target = some infos → entered target infos.readWriteType) :
    Owned entered sent tasks where
  reads stream framing target isAuthenticated hread := by
    cases h _ hread with
    | read entry => exact hentries target _ entry
  writes stream uuid _ := by
    have hnone : tasks.filterMap (·.buffer stream) = [] := by
      refine List.filterMap_eq_nil_iff.mpr fun task htask => ?_
      cases h task htask <;> rfl
    rw [hnone]
    exact List.nil_sublist _

omit [DecidableEq τ] in
/-- A message is written to the stream of its target. -/
theorem sendMessage {port : ServerPort} {t : MessageType τ} (message : t.Message) (target : Uuid)
    (runtime : Option Runtime)
    (hentries : ∀ target infos, port.listeningClients.lookup target = some infos →
      entered target infos.readWriteType) :
    Owned entered (fun uuid => if target = uuid then t.encoded message else [])
      (port.sendMessage message target runtime) where
  reads stream framing target' isAuthenticated hread := by
    obtain ⟨infos, buf, -, -, -, heq⟩ := ServerPort.mem_sendMessage.mp hread
    cases heq
  writes stream uuid hown := by
    have hcases : port.sendMessage message target runtime = [] ∨
        ∃ infos buf, port.listeningClients.lookup target = some infos ∧
          Ciborium.intoWriter message = .ok buf ∧ port.sendMessage message target runtime =
            [.write infos.readWriteType port.settings.framing buf] := by
      cases hs : port.settings <;> cases runtime <;>
        cases hb : Ciborium.intoWriter message <;>
        cases hl : port.listeningClients.lookup target <;>
        simp [ServerPort.sendMessage, ServerTcp.sendMessage, ServerWebSocket.sendMessage, hs, hb,
          hl]
    rcases hcases with hnone | ⟨infos, buf, hlookup, hbuf, hsend⟩
    · rw [hnone]
      exact List.nil_sublist _
    · rw [hsend, List.filterMap_cons, List.filterMap_nil, Task.buffer]
      by_cases hstream : infos.readWriteType = stream
      · have htarget := hown target (hstream ▸ hentries target infos hlookup)
        rw [if_pos hstream, if_pos htarget, MessageType.encoded, hbuf]
      · rw [if_neg hstream]
        exact List.nil_sublist _

end Owned

/-- The connection has spawned these tasks more, and no other is running that was not before. -/
structure ServerConnection.Spawned (before after : ServerConnection) (tasks : List Task) :
    Prop where
  spawned : after.spawned = before.spawned ++ tasks
  running : ∀ task ∈ after.running, task ∈ before.running ∨ task ∈ tasks

namespace ServerConnection
variable {connection before after third : ServerConnection} {tasks tasks' : List Task}

theorem Spawned.none (hspawned : after.spawned = before.spawned)
    (hrunning : ∀ task ∈ after.running, task ∈ before.running) : before.Spawned after [] where
  spawned := hspawned.trans (List.append_nil _).symm
  running task htask := .inl (hrunning task htask)

theorem Spawned.trans (h : before.Spawned after tasks) (h' : after.Spawned third tasks') :
    before.Spawned third (tasks ++ tasks') where
  spawned := by rw [h'.spawned, h.spawned, List.append_assoc]
  running task htask := by
    rcases h'.running task htask with hafter | hnew
    · exact (h.running task hafter).imp_right (List.mem_append_left _)
    · exact .inr (List.mem_append_right _ hnew)

theorem Spawned.onMainPort {port : ServerPort} (hport : connection.mainPort = some port)
    (op : ServerPort → Option Runtime → ServerPort × List Task) :
    connection.Spawned (connection.onMainPort op) (op port connection.runtime).2 := by
  unfold ServerConnection.onMainPort
  rw [hport]
  exact ⟨rfl, fun task htask =>
    (List.mem_append.mp htask).imp_right List.mem_of_mem_filter⟩

end ServerConnection

variable {accepted : Uuid → Prop} {connection : ServerConnection}

/-- The streams of the clients of its main port were entered for them. -/
theorem Gated.entries (h : Gated accepted entered connection) {port : ServerPort}
    (hport : connection.mainPort = some port) (target : Uuid) (infos : ListeningInfos)
    (hentry : port.notAuthenticatedListening.lookup target = some infos ∨
      port.listeningClients.lookup target = some infos) :
    entered target infos.readWriteType :=
  hentry.elim (h.waiting port target infos hport) fun hinfos =>
    (h.listening port target infos hport hinfos).2

namespace ServerConnection

/-- What an operation spawns, if it is one of those that only spawn readers. -/
theorem spawned_onMainPort (hgated : Gated accepted entered connection)
    {op : ServerPort → Option Runtime → ServerPort × List Task}
    (hop : ∀ port runtime, ∀ task ∈ (op port runtime).2, port.Spawns task) :
    ∃ tasks, connection.Spawned (connection.onMainPort op) tasks ∧
      Owned entered (fun _ => []) tasks := by
  cases hport : connection.mainPort with
  | none =>
    refine ⟨[], .none ?_ ?_, .nil⟩ <;> simp [onMainPort, hport]
  | some port =>
    exact ⟨_, .onMainPort hport op, .of_spawns (hop port _) (hgated.entries hport)⟩

omit [DecidableEq τ] in
theorem spawned_sendMessage (hgated : Gated accepted entered connection) {t : MessageType τ}
    (message : t.Message) (target : Uuid) :
    ∃ tasks, connection.Spawned (connection.onMainPort fun port runtime =>
        (port, port.sendMessage message target runtime)) tasks ∧
      Owned entered (fun uuid => if target = uuid then t.encoded message else []) tasks := by
  cases hport : connection.mainPort with
  | none =>
    refine ⟨[], .none ?_ ?_, .nil⟩ <;> simp [onMainPort, hport]
  | some port =>
    exact ⟨_, .onMainPort hport _,
      .sendMessage message target _ fun target infos hinfos =>
        hgated.entries hport target infos (.inr hinfos)⟩

theorem spawned_authenticateClient (hgated : Gated accepted entered connection) (uuid : Uuid)
    (portNumber : Nat) :
    ∃ tasks, connection.Spawned (connection.authenticateClient uuid portNumber) tasks ∧
      Owned entered (fun _ => []) tasks := by
  have hnone : connection.Spawned connection [] := .none rfl fun _ => id
  unfold authenticateClient
  split
  · exact ⟨[], hnone, .nil⟩
  · dsimp only
    have hsame : Gated (fun _ => True) entered { connection with
        clientsConnected := connection.clientsConnected.insert uuid [0] } :=
      ⟨fun _ _ => trivial, fun port uuid infos hport hinfos =>
        ⟨trivial, (hgated.listening port uuid infos hport hinfos).2⟩, hgated.waiting,
        fun stream framing buf hwrite =>
          (hgated.written stream framing buf hwrite).imp fun _ h => ⟨trivial, h.2⟩⟩
    split
    · have hreads : ∀ (port : ServerPort) (runtime : Option Runtime),
          ∀ task ∈ (port.authenticateClient uuid runtime).2, port.Spawns task :=
        fun _ _ _ htask => ServerPort.authenticateClient_spawns htask
      obtain ⟨tasks, hspawned, howned⟩ := spawned_onMainPort hsame hreads
      exact ⟨tasks, ⟨hspawned.spawned, hspawned.running⟩, howned⟩
    · exact ⟨[], ⟨hnone.spawned, hnone.running⟩, .nil⟩

omit [DecidableEq τ] in
theorem spawned_acceptClient (hgated : Gated (fun _ => True) entered connection) (uuid : Uuid)
    (portNumber : Nat) :
    ∃ tasks, connection.Spawned (connection.acceptClient τ uuid portNumber) tasks ∧
      Owned entered (fun uuid' => if uuid = uuid' then
        MessageType.encoded (.authenticatedUuid : MessageType τ) ⟨uuid⟩ else []) tasks := by
  obtain ⟨tasks, hspawned, howned⟩ := spawned_authenticateClient hgated uuid portNumber
  unfold acceptClient
  dsimp only
  split
  · have hauthenticated : Gated (fun _ => True) entered
        (connection.authenticateClient uuid portNumber) := hgated.authenticated trivial portNumber
    obtain ⟨tasks', hspawned', howned'⟩ := spawned_sendMessage hauthenticated
      (t := (.authenticatedUuid : MessageType τ)) ⟨uuid⟩ uuid
    exact ⟨tasks ++ tasks', hspawned.trans hspawned', howned.append howned'⟩
  · exact ⟨tasks, hspawned, howned.mono fun _ => List.nil_sublist _⟩

/-- What a client is told by an answer of the handler. -/
def told (uuid : Uuid) (call : AuthenticateCall τ) : List (List UInt8) :=
  if call.answer ∧ call.event.sender = some uuid then
    MessageType.encoded (.authenticatedUuid : MessageType τ) ⟨uuid⟩
  else []

omit [DecidableEq τ] in
theorem spawned_settled (name : String) (calls : List (AuthenticateCall τ))
    (hgated : Gated (fun _ => True) entered connection) :
    ∃ tasks, connection.Spawned (calls.foldl (settleCall name) connection) tasks ∧
      Owned entered (fun uuid => calls.flatMap (told uuid)) tasks := by
  induction calls generalizing connection with
  | nil => exact ⟨[], .none rfl fun _ => id, .nil⟩
  | cons call calls ih =>
    rw [List.foldl_cons]
    rcases settleCall_cases name connection call with ⟨hsame, -⟩ | ⟨uuid, haccepts, haccept⟩
    · rw [hsame]
      obtain ⟨tasks, hspawned, howned⟩ := ih hgated
      exact ⟨tasks, hspawned, howned.mono fun uuid => List.sublist_append_right _ _⟩
    · rw [haccept]
      obtain ⟨tasks, hspawned, howned⟩ :=
        spawned_acceptClient (τ := τ) hgated uuid call.event.portNumber
      have haccepted : Gated (fun _ => True) entered
          (connection.acceptClient τ uuid call.event.portNumber) :=
        hgated.acceptClient trivial call.event.portNumber
      obtain ⟨tasks', hspawned', howned'⟩ := ih haccepted
      refine ⟨tasks ++ tasks', hspawned.trans hspawned', (howned.append howned').mono ?_⟩
      intro uuid'
      rw [List.flatMap_cons]
      refine List.Sublist.append ?_ (List.Sublist.refl _)
      by_cases huuid : uuid = uuid'
      · subst huuid
        rw [if_pos rfl, told, if_pos ⟨haccepts.1, haccepts.2.2⟩]
      · rw [if_neg huuid]
        exact List.nil_sublist _

/-- A turn of a system spawns readers at most. -/
theorem spawned_turn (hgated : Gated (fun _ => True) entered connection) (system : FirstSystem) :
    ∃ tasks, connection.Spawned (system.turn connection) tasks ∧
      Owned entered (fun _ => []) tasks := by
  have hquiet : ∀ op : ServerPort → ServerPort, ∃ tasks,
      connection.Spawned (connection.onMainPort fun port _ => (op port, [])) tasks ∧
        Owned entered (fun _ => []) tasks := fun op =>
    spawned_onMainPort hgated fun _ _ _ htask => absurd htask List.not_mem_nil
  cases system with
  | checkMainPortDropped =>
    refine ⟨[], ?_, .nil⟩
    simp only [FirstSystem.turn, checkDropped]
    split <;> exact .none rfl fun _ => id
  | startConnections =>
    simp only [FirstSystem.turn]
    split
    · have hconnected : Gated (fun _ => True) entered { connection with
          connected := true, runtime := some (connection.runtime.getD .new) } :=
        ⟨hgated.connected, hgated.listening, hgated.waiting, hgated.written⟩
      have hconnect : ∀ (port : ServerPort) (runtime : Option Runtime),
          ∀ task ∈ (port.connect runtime).2, port.Spawns task := fun port runtime task htask =>
        @PortOp.run_spawns port runtime .connect task htask
      obtain ⟨tasks, hspawned, howned⟩ := spawned_onMainPort hconnected hconnect
      exact ⟨tasks, ⟨hspawned.spawned, hspawned.running⟩, howned⟩
    · exact ⟨[], .none rfl fun _ => id, .nil⟩
  | receiveMainPortListener | checkClientDisconnectedFromPort | checkClientConnectedToPort =>
    exact hquiet _
  | startAcceptingConnectionsMainPort =>
    exact spawned_onMainPort hgated fun port runtime task htask =>
      @PortOp.run_spawns port runtime .startAcceptingConnections task htask
  | startListeningNotAuthenticated =>
    exact spawned_onMainPort hgated fun port runtime task htask =>
      @PortOp.run_spawns port runtime .checkNotAuthenticatedClients task htask

end ServerConnection

namespace ServerApp
variable {app app' : ServerApp τ} {input : ServerInput τ} {output : ServerOutput τ}
  {name : String} {after : ServerConnection}

/-- What a step sends to a client. -/
def sentTo (uuid : Uuid) (input : ServerInput τ) (output : ServerOutput τ) : List (List UInt8) :=
  match input with
  | .sendMessage _ t message target => if target = uuid then t.encoded message else []
  | _ => output.calls.flatMap (ServerConnection.told uuid)

/-- **The tasks that a step spawns** read the streams of their clients, and write what it sends to
the one client of a stream. -/
theorem step_spawned (h : app.step input = some (app', output))
    (hgated : ∀ name connection, app.connections.lookup name = some connection →
      Gated (fun _ => True) entered connection)
    (hafter : app'.connections.lookup name = some after) :
    (after.spawned = [] ∧ after.running = []) ∨
      ∃ before tasks, app.connections.lookup name = some before ∧ before.Spawned after tasks ∧
        Owned entered (fun uuid => sentTo uuid input output) tasks := by
  have hkept : ∀ {before}, app.connections.lookup name = some before →
      before.spawned = after.spawned → before.running = after.running →
        ∃ before tasks, app.connections.lookup name = some before ∧ before.Spawned after tasks ∧
          Owned entered (fun uuid => sentTo uuid input output) tasks := by
    intro before hbefore hspawned hrunning
    exact ⟨before, [], hbefore, .none hspawned.symm fun _ htask => hrunning ▸ htask, .nil⟩
  have hreads : ∀ {before}, app.connections.lookup name = some before →
      (∃ tasks, before.Spawned after tasks ∧ Owned entered (fun _ => []) tasks) →
        ∃ before tasks, app.connections.lookup name = some before ∧ before.Spawned after tasks ∧
          Owned entered (fun uuid => sentTo uuid input output) tasks := by
    intro before hbefore hspawns
    obtain ⟨tasks, hspawned, howned⟩ := hspawns
    exact ⟨before, tasks, hbefore, hspawned, howned.mono fun _ => List.nil_sublist _⟩
  cases input with
  | first system =>
    rw [step_first h] at hafter
    obtain ⟨before, hbefore, rfl⟩ := FirstSystem.lookup_turn hafter
    exact .inr (hreads hbefore (ServerConnection.spawned_turn (hgated name before hbefore) system))
  | readMessagesServer =>
    obtain ⟨connections, commands, dispatched, hread, -, -, rfl⟩ := step_readMessagesServer h
    obtain ⟨commands', -, heq⟩ := Panicking.bind_eq_ok.mp hread
    cases heq
    rw [AssocMap.lookup_mapVals] at hafter
    obtain ⟨before, hbefore, rfl⟩ := Option.map_eq_some_iff.mp hafter
    exact .inr (hkept hbefore rfl rfl)
  | authenticationMessageServer t handler =>
    obtain ⟨connections, calls, hloop, rfl, rfl⟩ := step_authenticationMessageServer h
    have hsettled := (authenticationLoop_spec hloop).1 name
    rw [hafter] at hsettled
    obtain ⟨before, hbefore, hfold⟩ := Option.map_eq_some_iff.mp hsettled.symm
    obtain ⟨tasks, hspawned, howned⟩ :=
      ServerConnection.spawned_settled name calls (hgated name before hbefore)
    rw [hfold] at hspawned
    exact .inr ⟨before, tasks, hbefore, hspawned, howned⟩
  | registerMessage t | updateMessages =>
    cases h
    exact .inr (hkept hafter rfl rfl)
  | startConnection connectionName settings =>
    cases h
    rcases NetworkConnections.lookup_startConnection hafter with hbefore | hnew
    · exact .inr (hkept hbefore rfl rfl)
    · cases settings with
      | client settings => cases hnew
      | server settings =>
        cases hnew
        exact .inl ⟨rfl, rfl⟩
  | disconnect connectionName =>
    cases h
    exact .inr (hkept (AssocMap.lookup_of_erase hafter).2 rfl rfl)
  | portOp connectionName op =>
    obtain ⟨hconnections, -⟩ := portOp_spec h
    rw [hconnections] at hafter
    rcases AssocMap.lookup_of_modify hafter with ⟨-, hbefore⟩ | ⟨before, rfl, hbefore, rfl⟩
    · exact .inr (hkept hbefore rfl rfl)
    · exact .inr (hreads hbefore (ServerConnection.spawned_onMainPort (hgated _ before hbefore)
        fun _ _ _ htask => PortOp.run_spawns htask))
  | sendMessage connectionName t message target =>
    cases h
    rcases AssocMap.lookup_of_modify hafter with ⟨-, hbefore⟩ | ⟨before, rfl, hbefore, rfl⟩
    · exact .inr (hkept hbefore rfl rfl)
    · obtain ⟨tasks, hspawned, howned⟩ :=
        ServerConnection.spawned_sendMessage (hgated _ before hbefore) message target
      exact .inr ⟨before, tasks, hbefore, hspawned, howned⟩
  | task connectionName task event =>
    obtain ⟨hconnections, -⟩ := task_spec h
    rw [hconnections] at hafter
    rcases AssocMap.lookup_of_modify hafter with ⟨-, hbefore⟩ | ⟨before, rfl, hbefore, rfl⟩
    · exact .inr (hkept hbefore rfl rfl)
    · refine .inr ⟨before, [], hbefore, ?_, .nil⟩
      unfold ServerConnection.receive
      split
      · exact .none rfl fun _ => id
      · refine .none rfl fun task' htask' => ?_
        dsimp only at htask'
        split at htask'
        · exact List.mem_of_mem_erase htask'
        · exact htask'

/-- UUIDs stay issued. -/
theorem step_issued (h : app.step input = some (app', output)) {uuid : Uuid}
    (hissued : uuid ∈ app.issued) : uuid ∈ app'.issued := by
  cases input with
  | readMessagesServer =>
    obtain ⟨connections, commands, dispatched, -, -, -, rfl⟩ := step_readMessagesServer h
    exact hissued
  | authenticationMessageServer t handler =>
    obtain ⟨connections, calls, -, -, rfl⟩ := step_authenticationMessageServer h
    exact hissued
  | portOp connectionName op =>
    rcases (portOp_spec h).2.2.2.2.2 with ⟨-, hsame, -⟩ | ⟨newUuid, _, _, _, -, -, -, -, hnew, -⟩
    · rwa [hsame]
    · rw [hnew]
      exact List.mem_cons_of_mem _ hissued
  | task connectionName task event =>
    obtain ⟨-, -, -, hsame, -⟩ := task_spec h
    rwa [hsame]
  | first | registerMessage | startConnection | disconnect | sendMessage | updateMessages =>
    cases h
    exact hissued

end ServerApp

/-! ### Runs -/

variable {ts : List (ServerTransition τ)} {app : ServerApp τ}

/-- **A client has one stream.** -/
theorem entered_once (h : (serverMachine τ).Run .new ts app) {uuid : Uuid} {stream stream' : Stream}
    (hentered : EnteredIn ts uuid stream) (hentered' : EnteredIn ts uuid stream') :
    stream = stream' := by
  have hinvariant : (∀ uuid stream, EnteredIn ts uuid stream → uuid ∈ app.issued) ∧
      ∀ uuid stream stream', EnteredIn ts uuid stream → EnteredIn ts uuid stream' →
        stream = stream' := by
    refine h.history (fun ts app => (∀ uuid stream, EnteredIn ts uuid stream → uuid ∈ app.issued) ∧
      ∀ uuid stream stream', EnteredIn ts uuid stream → EnteredIn ts uuid stream' →
        stream = stream') ⟨?_, ?_⟩ ?_
    · rintro _ _ ⟨t, ht, -⟩
      cases ht
    · rintro _ _ _ ⟨t, ht, -⟩
      cases ht
    · intro ts t _ ih hof
      obtain ⟨hissued, honce⟩ := ih
      refine ⟨fun uuid stream hentered => ?_, fun uuid stream stream' hentered hentered' => ?_⟩
      · rcases enteredIn_snoc.mp hentered with hbefore | hadmitted
        · exact ServerApp.step_issued hof (hissued uuid stream hbefore)
        · exact (ServerApp.step_admitted hof hadmitted).2.2.1
      · rcases enteredIn_snoc.mp hentered, enteredIn_snoc.mp hentered' with
          ⟨hbefore | hadmitted, hbefore' | hadmitted'⟩
        · exact honce uuid stream stream' hbefore hbefore'
        · exact absurd (hissued uuid stream hbefore) (ServerApp.step_admitted hof hadmitted').2.1
        · exact absurd (hissued uuid stream' hbefore') (ServerApp.step_admitted hof hadmitted).2.1
        · rw [(ServerApp.step_admitted hof hadmitted).1] at hadmitted'
          cases List.mem_singleton.mp hadmitted'
          rfl
  exact hinvariant.2 uuid stream stream' hentered hentered'

theorem gated_run (h : (serverMachine τ).Run .new ts app) (name : String)
    (connection : ServerConnection) (hlookup : app.connections.lookup name = some connection) :
    Gated (fun _ => True) (EnteredIn ts) connection :=
  ((gateInvariant_run h).gated name connection hlookup).mono (fun _ _ => trivial) fun _ _ => id

/-- **A reader reads the stream of its client.** -/
theorem reads_run (h : (serverMachine τ).Run .new ts app) {name : String}
    {connection : ServerConnection} (hlookup : app.connections.lookup name = some connection)
    {stream : Stream} {framing : StreamFraming} {target : Uuid} {isAuthenticated : Bool}
    (hruns : .read stream framing target isAuthenticated ∈ connection.running) :
    EnteredIn ts target stream := by
  have hinvariant : ∀ name connection, app.connections.lookup name = some connection →
      ∀ stream framing target isAuthenticated,
        .read stream framing target isAuthenticated ∈ connection.running →
          EnteredIn ts target stream := by
    refine h.history (fun ts app => ∀ name connection,
      app.connections.lookup name = some connection →
        ∀ stream framing target isAuthenticated,
          .read stream framing target isAuthenticated ∈ connection.running →
            EnteredIn ts target stream) ?_ ?_
    · intro name connection hlookup
      cases hlookup
    · intro ts t hrun ih hof name after hafter stream framing target isAuthenticated hruns
      rcases ServerApp.step_spawned hof (gated_run hrun) hafter with
        ⟨-, hnone⟩ | ⟨before, tasks, hbefore, hspawned, howned⟩
      · rw [hnone] at hruns
        cases hruns
      · rcases hspawned.running _ hruns with hold | hnew
        · exact (ih name before hbefore stream framing target isAuthenticated hold).append
        · exact (howned.reads stream framing target isAuthenticated hnew).append
  exact hinvariant name connection hlookup stream framing target isAuthenticated hruns

/-- **There are no more write tasks** of a stream than messages that were sent to its client. -/
theorem buffers_run (h : (serverMachine τ).Run .new ts app) {source : ServerEnd} {uuid : Uuid}
    (hown : ∀ uuid', EnteredIn ts uuid' source.stream → uuid' = uuid) (buf : List UInt8) :
    (app.buffers source).count buf ≤
      (ts.flatMap fun t => ServerApp.sentTo uuid t.input t.output).count buf := by
  refine h.history (fun ts app => (∀ uuid', EnteredIn ts uuid' source.stream → uuid' = uuid) →
    (app.buffers source).count buf ≤
      (ts.flatMap fun t => ServerApp.sentTo uuid t.input t.output).count buf) ?_ ?_ hown
  · intro _
    exact Nat.zero_le _
  · intro ts t hrun ih hof hown
    have hfew := ih fun uuid' hentered => hown uuid' hentered.append
    rw [List.flatMap_append, List.flatMap_singleton, List.count_append]
    cases hafter : t.post.connections.lookup source.connectionName with
    | none =>
      rw [ServerApp.buffers, hafter]
      exact Nat.zero_le _
    | some after =>
      rw [ServerApp.buffers, hafter, Option.map_some, Option.getD_some]
      rcases ServerApp.step_spawned hof (gated_run hrun) hafter with
        ⟨hnone, -⟩ | ⟨before, tasks, hbefore, hspawned, howned⟩
      · rw [hnone]
        exact Nat.zero_le _
      · rw [ServerApp.buffers, hbefore, Option.map_some, Option.getD_some] at hfew
        have hnew := (howned.writes source.stream uuid fun uuid' hentered =>
          hown uuid' hentered.append).count_le buf
        rw [hspawned.spawned, List.filterMap_append, List.count_append]
        exact Nat.add_le_add hfew hnew

end Server

/-! ## The tasks of a client -/

section Client
variable {τ : Type} [DecidableEq τ] [UserMessages τ] [Ciborium τ]

omit [DecidableEq τ] in
/-- What either native port spawns for a message is a task that writes it to the stream that is
installed, if anything. -/
theorem ClientPort.buffers_sendMessage {t : MessageType τ} (port : ClientPort) (message : t.Message)
    (runtime : Option Runtime) (stream : Stream) :
    ((port.sendMessage message runtime).2.filterMap (·.buffer stream)).Sublist
      (if port.writeHalf = some stream then t.encoded message else []) := by
  have hcases : (∀ task ∈ (port.sendMessage message runtime).2, ∃ sink, task = .sendQueue sink) ∨
      ∃ stream' framing buf, port.writeHalf = some stream' ∧ Ciborium.intoWriter message = .ok buf ∧
        (port.sendMessage message runtime).2 = [.write stream' framing buf] := by
    cases hs : port.settings <;> cases runtime <;> cases hb : Ciborium.intoWriter message <;>
      cases hw : port.writeHalf <;> cases hq : port.sendingMessages <;>
      simp [ClientPort.sendMessage, ClientTcp.sendMessage, ClientWebSocket.sendMessage,
        WasmClient.sendMessage, hs, hb, hw, hq]
  rcases hcases with hqueue | ⟨stream', framing, buf, hhalf, hbuf, hsend⟩
  · have hnone : (port.sendMessage message runtime).2.filterMap (·.buffer stream) = [] := by
      refine List.filterMap_eq_nil_iff.mpr fun task htask => ?_
      obtain ⟨sink, rfl⟩ := hqueue task htask
      rfl
    rw [hnone]
    exact List.nil_sublist _
  · rw [hsend, List.filterMap_cons, List.filterMap_nil, ClientTask.buffer, hhalf]
    by_cases hstream : stream' = stream
    · rw [if_pos hstream, if_pos (congrArg some hstream), MessageType.encoded, hbuf]
    · rw [if_neg hstream]
      exact List.nil_sublist _

namespace ClientConnection
variable {connection : ClientConnection}

/-- A turn spawns no task that writes. -/
theorem buffers_turn (system : ClientSystem) (connection : ClientConnection) (stream : Stream) :
    (system.turn connection).spawned.filterMap (·.buffer stream) =
      connection.spawned.filterMap (·.buffer stream) := by
  have hop : ∀ {op : ClientPort → Option Runtime → ClientPort × List ClientTask}
      {connection : ClientConnection},
      (∀ port runtime, (op port runtime).2.filterMap (·.buffer stream) = []) →
        (connection.onMainPort op).spawned.filterMap (·.buffer stream) =
          connection.spawned.filterMap (·.buffer stream) := by
    intro op connection hnone
    unfold onMainPort
    split
    · rfl
    · rw [List.filterMap_append, hnone, List.append_nil]
  cases system with
  | checkMainPortDropped =>
    simp only [ClientSystem.turn, checkDropped]
    split <;> rfl
  | startConnections =>
    simp only [ClientSystem.turn, startUnlessConnected]
    split
    · refine hop fun port runtime => ?_
      rcases port.connect_cases runtime with hnone | ⟨-, hnone | ⟨tryReconnect, tls, hone⟩⟩
      · rw [hnone]
        rfl
      · rw [hnone]
        rfl
      · rw [hone]
        rfl
    · rfl
  | checkConnectedToMainPort => exact hop fun _ _ => rfl
  | checkListeningToMainPort =>
    refine hop fun port runtime => ?_
    rcases port.startListening_cases runtime with hnone | ⟨-, ⟨-, hnone⟩ | ⟨stream', -, hone⟩⟩
    · rw [hnone]
      rfl
    · rw [hnone]
      rfl
    · rw [hone]
      rfl

end ClientConnection

namespace ClientApp
variable {app app' : ClientApp τ} {input : ClientInput τ} {output : List (WorldMessage τ)}

/-- The stream that a connection writes to. -/
def writeHalf (app : ClientApp τ) (connectionName : String) : Option Stream :=
  ((app.connections.lookup connectionName).bind (·.mainPort)).bind (·.writeHalf)

/-- What a step sends on the stream of an end. -/
def sentOn (app : ClientApp τ) (source : ClientEnd) (input : ClientInput τ) : List (List UInt8) :=
  match input with
  | .sendMessage connectionName t message =>
    if connectionName = source.connectionName ∧
        app.writeHalf connectionName = some source.stream then t.encoded message
    else []
  | _ => []

/-- **The write tasks that a step spawns** write what it sends. -/
theorem step_buffers (h : app.step input = some (app', output)) (source : ClientEnd) :
    (app'.buffers source).Sublist (app.buffers source ++ app.sentOn source input) := by
  cases hafter : app'.connections.lookup source.connectionName with
  | none =>
    rw [buffers, hafter]
    exact List.nil_sublist _
  | some after =>
    have hkept : ∀ {before}, app.connections.lookup source.connectionName = some before →
        after.spawned.filterMap (·.buffer source.stream) =
          before.spawned.filterMap (·.buffer source.stream) →
            (app'.buffers source).Sublist (app.buffers source ++ app.sentOn source input) := by
      intro before hbefore hsame
      rw [buffers, hafter, buffers, hbefore, Option.map_some, hsame]
      exact List.sublist_append_left _ _
    cases input with
    | first system =>
      rw [step_first h] at hafter
      obtain ⟨before, hbefore, rfl⟩ := ClientSystem.run_lookup hafter
      exact hkept hbefore (ClientConnection.buffers_turn system before source.stream)
    | readMessagesClient =>
      rw [step_readMessages h, AssocMap.lookup_mapVals] at hafter
      obtain ⟨before, hbefore, rfl⟩ := Option.map_eq_some_iff.mp hafter
      exact hkept hbefore rfl
    | authenticationMessageClient =>
      rw [lookup_identified h] at hafter
      obtain ⟨before, hbefore, rfl⟩ := Option.map_eq_some_iff.mp hafter
      exact hkept hbefore rfl
    | registerMessage t | updateMessages =>
      cases h
      exact hkept hafter rfl
    | startConnection connectionName settings =>
      cases h
      rcases NetworkConnections.lookup_startConnection hafter with hbefore | hnew
      · exact hkept hbefore rfl
      · cases settings with
        | server settings => cases hnew
        | client settings =>
          cases hnew
          rw [buffers, hafter]
          exact List.nil_sublist _
    | disconnect connectionName =>
      cases h
      exact hkept (AssocMap.lookup_of_erase hafter).2 rfl
    | sendMessage connectionName t message =>
      cases h
      rcases AssocMap.lookup_of_modify hafter with ⟨-, hbefore⟩ | ⟨before, hname, hbefore, rfl⟩
      · exact hkept hbefore rfl
      · cases hport : before.mainPort with
        | none =>
          refine hkept hbefore ?_
          simp only [ClientConnection.onMainPort, hport]
        | some port =>
          have hnew := port.buffers_sendMessage message before.runtime source.stream
          have hhalf : app.writeHalf connectionName = port.writeHalf := by
            rw [writeHalf, ← hname, hbefore, Option.bind_some, hport, Option.bind_some]
          rw [buffers, hafter, buffers, hbefore]
          simp only [Option.map_some, Option.getD_some, ClientConnection.onMainPort, hport,
            List.filterMap_append, sentOn, hname, true_and]
          rw [hhalf]
          exact (List.Sublist.refl _).append hnew
    | task connectionName task event =>
      obtain ⟨app'', htask, heq⟩ := Option.map_eq_some_iff.mp h
      cases heq
      rw [(task_spec htask).1] at hafter
      rcases AssocMap.lookup_of_modify hafter with ⟨-, hbefore⟩ | ⟨before, rfl, hbefore, rfl⟩
      · exact hkept hbefore rfl
      · refine hkept hbefore ?_
        unfold ClientConnection.receive
        split <;> rfl

end ClientApp

/-- **There are no more write tasks** of a stream than messages that were sent on it. -/
theorem ClientApp.buffers_run {ts : List (ClientTransition τ)} {app : ClientApp τ}
    (h : (clientMachine τ).Run .new ts app) (source : ClientEnd) (buf : List UInt8) :
    (app.buffers source).count buf ≤
      (ts.flatMap fun t => t.pre.sentOn source t.input).count buf := by
  refine h.history (fun ts app => (app.buffers source).count buf ≤
    (ts.flatMap fun t => t.pre.sentOn source t.input).count buf) (Nat.zero_le _) ?_
  intro ts t _ ih hof
  have hstep := (step_buffers hof source).count_le buf
  rw [List.count_append] at hstep
  rw [List.flatMap_append, List.flatMap_singleton, List.count_append]
  omega

end Client

end Inator
