import Inator.Lib.Fifo
import Inator.Lib.Simulation
import Inator.Verify.Frames
import Inator.Verify.Provenance

/-! # What a program gets to read

Messages that the readers of a connection forward wait in the channel of its main port until a
read system takes them all. So what was read in a run is what was forwarded, in order and once,
and nothing is lost unless the connection is removed or the application takes the messages itself.
Of what it reads, the server dispatches what passes the gate, and the client all that decodes
(`server_delivers`, `client_delivers`). -/

namespace Inator
open Incoming

/-! ## The server -/

/-- Only `check_messages_received` takes from the channel. -/
theorem PortOp.run_messageReceived (port : ServerPort) (runtime : Option Runtime) {op : PortOp}
    (h : op ≠ .checkMessagesReceived) :
    (op.run port runtime).1.messageReceived = port.messageReceived := by
  cases op with
  | checkMessagesReceived => exact absurd rfl h
  | connect =>
    simp only [run, ServerPort.connect]
    split
    · rfl
    · split <;> rfl
  | startAcceptingConnections =>
    simp only [run, ServerPort.startAcceptingConnections]
    split
    · rfl
    · split
      · rfl
      · split <;> rfl
  | checkPortDropped =>
    simp only [run, ServerPort.checkPortDropped]
    split <;> rfl
  | checkPortConnected =>
    simp only [run, ServerPort.checkPortConnected]
    split
    · rfl
    · split <;> rfl
  | checkClientsDiconnected =>
    simp only [run, ServerPort.checkClientsDiconnected]
    split
    · rfl
    · split <;> rfl
  | checkClientsConnected =>
    simp only [run, ServerPort.checkClientsConnected]
    split <;> rfl
  | asMainPort | checkNotAuthenticatedClients | startListeningNotAuthenticatedClient
  | startListeningAuthenticatedClient => rfl

namespace ServerConnection
variable {before after : ServerConnection}

theorem batch_eq {port : ServerPort} (hport : before.mainPort = some port) :
    before.batch = port.messageReceived := by
  rw [batch, hport]
  rfl

theorem batch_ran {op : PortOp} (hran : before.Ran op after) :
    after.batch = if op = .checkMessagesReceived then [] else before.batch := by
  obtain ⟨runtime, hport, -⟩ := hran.mainPort
  cases hbefore : before.mainPort with
  | none =>
    rw [hbefore, Option.map_none] at hport
    rw [batch, hport, batch, hbefore, ite_self]
  | some port =>
    rw [hbefore, Option.map_some] at hport
    rw [batch_eq hport, batch_eq hbefore]
    split
    · rename_i hop
      subst hop
      rfl
    · rename_i hop
      exact PortOp.run_messageReceived port runtime hop

end ServerConnection

namespace ServerInput
variable {τ : Type} [UserMessages τ]

/-- The message that a reader of the connection forwards. -/
def forwarded (name : String) : ServerInput τ → List Incoming
  | .task connectionName _ (.messageReceived bytes uuid) =>
    if connectionName = name then [(bytes, uuid)] else []
  | _ => []

end ServerInput

namespace ServerApp
variable {τ : Type} [DecidableEq τ] [UserMessages τ] [Ciborium τ] {app app' : ServerApp τ}
  {input : ServerInput τ} {output : ServerOutput τ} {name : String} {sender : Uuid}

/-- The messages of a connection that wait to be read. -/
def waiting (app : ServerApp τ) (name : String) : List Incoming :=
  ((app.connections.lookup name).map (·.batch)).getD []

/-- The messages of a connection that the step takes. -/
def taken (app : ServerApp τ) (name : String) : ServerInput τ → List Incoming
  | .readMessagesServer => app.waiting name
  | _ => []

/-- The connection has authenticated the client. -/
def authenticated (app : ServerApp τ) (name : String) (sender : Uuid) : Bool :=
  (app.connections.lookup name).any fun connection => sender ∈ connection.clientsConnected

/-- What the step should dispatch of a client's messages: those that pass the gate and decode. -/
def passed (app : ServerApp τ) (name : String) (sender : Uuid) (input : ServerInput τ) :
    List (WorldMessage τ) :=
  (((app.taken name input).filter (·.2 = sender)).filter fun message =>
    app.authenticated name sender || authenticates app.registry message).filterMap
      (written app.registry name)

theorem waiting_eq {connection : ServerConnection}
    (hlookup : app.connections.lookup name = some connection) :
    app.waiting name = connection.batch := by
  rw [waiting, hlookup]
  rfl

theorem waiting_none (hlookup : app.connections.lookup name = none) : app.waiting name = [] := by
  rw [waiting, hlookup]
  rfl

/-- **What a step does to the messages of a connection** that it keeps, and to its clients. -/
theorem step_stays {before after : ServerConnection} (h : app.step input = some (app', output))
    (hplace : serverSide.InPlace name before)
    (hbefore : app.connections.lookup name = some before)
    (hafter : app'.connections.lookup name = some after) :
    (input.Asks name .checkMessagesReceived ∧ after.batch = [] ∨
        ¬input.Asks name .checkMessagesReceived ∧
          after.batch = before.batch ++ input.forwarded name) ∧
      ∀ uuid ∈ before.clientsConnected, uuid ∈ after.clientsConnected := by
  obtain ⟨port, hport⟩ := Option.isSome_iff_exists.mp hplace.2
  change before.mainPort = some port at hport
  have hsame : ∀ {after' : ServerConnection}, after'.batch = before.batch →
      after'.clientsConnected = before.clientsConnected →
      ¬input.Asks name .checkMessagesReceived → input.forwarded name = [] →
        (input.Asks name .checkMessagesReceived ∧ after'.batch = [] ∨
            ¬input.Asks name .checkMessagesReceived ∧
              after'.batch = before.batch ++ input.forwarded name) ∧
          ∀ uuid ∈ before.clientsConnected, uuid ∈ after'.clientsConnected := by
    intro after' hbatch hclients hasks hnone
    rw [hnone, List.append_nil, hclients]
    exact ⟨.inr ⟨hasks, hbatch⟩, fun _ huuid => huuid⟩
  cases input with
  | first system =>
    cases h
    obtain ⟨before', hbefore', hturn⟩ := FirstSystem.run_lookup hafter
    cases hbefore.symm.trans hbefore'
    have hop : system.portOp ≠ .checkMessagesReceived := by
      intro hop
      cases system <;> cases hop
    rcases hturn with rfl | hran
    · exact hsame rfl rfl hop rfl
    · have hbatch := ServerConnection.batch_ran hran
      rw [if_neg hop] at hbatch
      exact hsame hbatch hran.clientsConnected hop rfl
  | readMessagesServer =>
    obtain ⟨connections, commands, dispatched, hread, -, -, rfl⟩ := step_readMessagesServer h
    obtain ⟨commands', -, heq⟩ := Panicking.bind_eq_ok.mp hread
    cases heq
    rw [AssocMap.lookup_mapVals, hbefore] at hafter
    cases hafter
    exact ⟨.inl ⟨rfl, batch_drained before⟩, fun _ huuid => huuid⟩
  | authenticationMessageServer t handler =>
    obtain ⟨connections, calls, hloop, -, rfl⟩ := step_authenticationMessageServer h
    have hsettled := (authenticationLoop_spec hloop).1 name
    rw [hbefore, hafter] at hsettled
    cases hsettled
    refine ⟨.inr ⟨id, ?_⟩, fun uuid huuid => ?_⟩
    · exact (batch_settled name before calls).trans (List.append_nil _).symm
    · exact ServerConnection.mem_clientsConnected_settled.mpr (.inr huuid)
  | registerMessage t | updateMessages =>
    cases h
    cases hbefore.symm.trans hafter
    exact hsame rfl rfl id rfl
  | startConnection connectionName settings =>
    cases h
    cases (NetworkConnections.startConnection_of_lookup hbefore _ _).symm.trans hafter
    exact hsame rfl rfl id rfl
  | disconnect connectionName =>
    cases h
    cases hbefore.symm.trans (AssocMap.lookup_of_erase hafter).2
    exact hsame rfl rfl id rfl
  | portOp connectionName op =>
    obtain ⟨hconnections, -⟩ := portOp_spec h
    rw [hconnections] at hafter
    rcases AssocMap.lookup_of_modify hafter with ⟨hname, hkept⟩ | ⟨before', rfl, hbefore', rfl⟩
    · cases hbefore.symm.trans hkept
      exact hsame rfl rfl (fun hasks => hname hasks.1.symm) rfl
    · cases hbefore.symm.trans hbefore'
      have hran := before.onMainPort_ran op
      have hbatch := ServerConnection.batch_ran hran
      by_cases hop : op = .checkMessagesReceived
      · rw [if_pos hop] at hbatch
        rw [hran.clientsConnected]
        exact ⟨.inl ⟨⟨rfl, hop⟩, hbatch⟩, fun _ huuid => huuid⟩
      · rw [if_neg hop] at hbatch
        exact hsame hbatch hran.clientsConnected (fun hasks => hop hasks.2) rfl
  | sendMessage connectionName t message target =>
    cases h
    rcases AssocMap.lookup_of_modify hafter with ⟨-, hkept⟩ | ⟨before', -, hbefore', rfl⟩
    · cases hbefore.symm.trans hkept
      exact hsame rfl rfl id rfl
    · cases hbefore.symm.trans hbefore'
      refine hsame ?_ ?_ id rfl <;> simp only [ServerConnection.onMainPort, hport,
        ServerConnection.batch]
  | task connectionName task event =>
    obtain ⟨hconnections, -⟩ := task_spec h
    rw [hconnections] at hafter
    rcases AssocMap.lookup_of_modify hafter with ⟨hname, hkept⟩ | ⟨before', rfl, hbefore', rfl⟩
    · cases hbefore.symm.trans hkept
      refine hsame rfl rfl id ?_
      cases event with
      | messageReceived bytes uuid => exact if_neg (Ne.symm hname)
      | _ => rfl
    · cases hbefore.symm.trans hbefore'
      refine ⟨.inr ⟨id, ?_⟩, fun uuid huuid => ?_⟩
      · rw [ServerConnection.batch_eq hport]
        simp only [ServerConnection.receive, hport, ServerConnection.batch,
          ServerPort.checkMessagesReceived]
        cases event with
        | messageReceived bytes uuid =>
          simp only [ServerInput.forwarded, if_true]
          rfl
        | _ => exact (List.append_nil _).symm
      · simpa only [ServerConnection.receive, hport] using huuid

/-- Nothing comes in on a connection that is not there. -/
theorem forwarded_none (h : app.step input = some (app', output))
    (hlookup : app.connections.lookup name = none) : input.forwarded name = [] := by
  cases input with
  | task connectionName task event =>
    cases event with
    | messageReceived bytes uuid =>
      obtain ⟨-, ⟨connection, hconnection, -⟩, -⟩ := task_spec h
      refine if_neg ?_
      rintro rfl
      cases hlookup.symm.trans hconnection
    | _ => rfl
  | _ => rfl

theorem taken_sublist (app : ServerApp τ) (name : String) (input : ServerInput τ) :
    (app.taken name input).Sublist (app.waiting name) := by
  cases input with
  | readMessagesServer => exact List.Sublist.refl _
  | _ => exact List.nil_sublist _

/-- The connection stays, and the application does not take its messages. -/
structure Keeps (app app' : ServerApp τ) (input : ServerInput τ) (name : String) : Prop where
  untouched : input ≠ .portOp name .checkMessagesReceived
  stays : name ∈ app.connections → name ∈ app'.connections

/-- **No step takes or leaves a message that neither waited nor came**, and one that keeps the
messages loses none. -/
theorem step_waiting (h : app.step input = some (app', output))
    (hplace : ∀ name connection, app.connections.lookup name = some connection →
      serverSide.InPlace name connection) (name : String) :
    (app.taken name input ++ app'.waiting name).Sublist
        (app.waiting name ++ input.forwarded name) ∧
      (app.Keeps app' input name →
        app.taken name input ++ app'.waiting name = app.waiting name ++ input.forwarded name) := by
  have htaken := taken_sublist app name input
  cases hbefore : app.connections.lookup name with
  | none =>
    rw [waiting_none hbefore] at htaken ⊢
    have hempty : app'.waiting name = [] := by
      cases hafter : app'.connections.lookup name with
      | none => exact waiting_none hafter
      | some after =>
        rw [waiting_eq hafter]
        cases step_change h hafter with
        | @created settings _ new =>
          cases settings with
          | client settings => cases new
          | server settings =>
            cases new
            rfl
        | kept lookup | ran lookup | received lookup | sent lookup | settled lookup =>
          cases hbefore.symm.trans lookup
    rw [List.sublist_nil.mp htaken, hempty, forwarded_none h hbefore]
    exact ⟨List.Sublist.refl _, fun _ => rfl⟩
  | some before =>
    cases hafter : app'.connections.lookup name with
    | none =>
      rw [waiting_none hafter, List.append_nil]
      refine ⟨htaken.trans (List.sublist_append_left _ _), fun hkeeps => ?_⟩
      exact absurd (hkeeps.stays (AssocMap.mem_of_lookup hbefore)) (AList.lookup_eq_none.mp hafter)
    | some after =>
      rw [waiting_eq hafter, waiting_eq hbefore] at *
      rcases (step_stays h (hplace name before hbefore) hbefore hafter).1 with
        ⟨hasks, hempty⟩ | ⟨hasks, hbatch⟩
      · rw [hempty, List.append_nil]
        refine ⟨htaken.trans (List.sublist_append_left _ _), fun hkeeps => ?_⟩
        cases input with
        | readMessagesServer => exact (waiting_eq hbefore).trans (List.append_nil _).symm
        | portOp connectionName op =>
          obtain ⟨rfl, rfl⟩ := hasks
          exact absurd rfl hkeeps.untouched
        | first system => cases system <;> cases hasks
        | _ => cases hasks
      · have hnone : app.taken name input = [] := by
          cases input with
          | readMessagesServer => exact absurd rfl hasks
          | _ => rfl
        rw [hbatch, hnone]
        exact ⟨List.Sublist.refl _, fun _ => rfl⟩

/-- If `read_messages_server` ends, there was nothing that it panics on. -/
theorem readsBatch_of_ok {registry : MessagesRegistry τ} {connections left : ServerConnections}
    {commands : List (Command τ)}
    (h : readMessagesServer registry connections = .ok (left, commands)) :
    ReadsBatchServer registry connections := by
  refine (readsBatchServer_iff _).mpr fun name connection hlookup message hmessage => ?_
  obtain ⟨commands', hloop, -⟩ := Panicking.bind_eq_ok.mp h
  obtain ⟨queued, hturn⟩ := Panicking.forEach_ok hloop _ (AssocMap.mem_entries.mpr hlookup)
  obtain ⟨out, hout⟩ := Panicking.forEach_ok hturn message hmessage
  exact not_undecodable_of_ok hout

/-- What `read_messages_server` does if there is nothing that it panics on. -/
theorem readMessagesServer_ok {registry : MessagesRegistry τ} {connections : ServerConnections}
    (h : ReadsBatchServer registry connections) :
    readMessagesServer registry connections =
      .ok (AssocMap.mapVals (fun _ connection => connection.drained) connections,
        (connections.admitted registry).map Except.ok) := by
  rw [ReadsBatchServer] at h
  rw [h]
  simp only [flatMap_dispatchServer]
  exact congrArg (fun commands => Except.ok (_, commands)) List.map_flatMap.symm

/-- What `read_messages_server` queues, if it ends. -/
theorem commands_eq {registry : MessagesRegistry τ} {connections left : ServerConnections}
    {commands : List (Command τ)}
    (h : readMessagesServer registry connections = .ok (left, commands)) :
    commands = (connections.admitted registry).map Except.ok := by
  rw [readMessagesServer_ok (readsBatch_of_ok h)] at h
  cases h
  rfl

/-- **A step dispatches what passes** of the messages that it takes, and nothing else. -/
theorem step_passed (h : app.step input = some (app', output))
    (hplace : ∀ name connection, app.connections.lookup name = some connection →
      serverSide.InPlace name connection) (name : String) (sender : Uuid) :
    dispatchedFor name sender output.dispatched = app.passed name sender input := by
  have hquiet : output.dispatched = [] → app.taken name input = [] →
      dispatchedFor name sender output.dispatched = app.passed name sender input := by
    intro hdispatched htaken
    rw [hdispatched, passed, htaken]
    rfl
  cases input with
  | readMessagesServer =>
    obtain ⟨connections, commands, dispatched, hread, happlied, rfl, -⟩ := step_readMessagesServer h
    rw [commands_eq hread, applyCommands_ok] at happlied
    cases happlied
    change dispatchedFor name sender (app.connections.admitted app.registry) =
      app.passed name sender .readMessagesServer
    rw [passed, taken]
    cases hlookup : app.connections.lookup name with
    | none =>
      rw [waiting_none hlookup]
      refine List.filter_eq_nil_iff.mpr fun message hmessage => ?_
      obtain ⟨other, connection, hother, hmem⟩ := AssocMap.mem_collect.mp hmessage
      obtain ⟨sender', hsource⟩ := mem_admitted_source (hplace other connection hother) hmem
      rw [hsource]
      intro heq
      cases of_decide_eq_true heq
      cases hlookup.symm.trans hother
    | some connection =>
      rw [dispatchedFor_admitted hplace hlookup, waiting_eq hlookup, authenticated, hlookup]
      rfl
  | authenticationMessageServer t handler =>
    obtain ⟨connections, calls, -, rfl, -⟩ := step_authenticationMessageServer h
    exact hquiet rfl rfl
  | portOp connectionName op => exact hquiet (portOp_spec h).2.2.2.1 rfl
  | task connectionName task event =>
    obtain ⟨-, -, -, -, rfl, -⟩ := task_spec h
    exact hquiet rfl rfl
  | first | registerMessage | startConnection | disconnect | sendMessage | updateMessages =>
    cases h
    exact hquiet rfl rfl

theorem authenticated_iff : app.authenticated name sender = true ↔
    ∃ connection, app.connections.lookup name = some connection ∧
      sender ∈ connection.clientsConnected := by
  rw [authenticated]
  cases app.connections.lookup name with
  | none => simp
  | some connection => simp

/-- A client stays authenticated while its connection stays. -/
theorem step_authenticated (h : app.step input = some (app', output))
    (hplace : ∀ name connection, app.connections.lookup name = some connection →
      serverSide.InPlace name connection)
    (hkeeps : app.Keeps app' input name) (hsender : app.authenticated name sender = true) :
    app'.authenticated name sender = true := by
  obtain ⟨before, hbefore, hmem⟩ := authenticated_iff.mp hsender
  obtain ⟨after, hafter⟩ := AssocMap.lookup_of_mem (hkeeps.stays (AssocMap.mem_of_lookup hbefore))
  have hclients := (step_stays h (hplace name before hbefore) hbefore hafter).2
  exact authenticated_iff.mpr ⟨after, hafter, hclients sender hmem⟩

end ServerApp

/-! ### Runs -/

section Runs
open ServerApp
variable {τ : Type} [DecidableEq τ] [UserMessages τ] [Ciborium τ]
  {ts us : List (ServerTransition τ)} {mid app : ServerApp τ}

theorem ServerApp.inPlace_run (h : (serverMachine τ).Run .new ts app) :
    ∀ name connection, app.connections.lookup name = some connection →
      serverSide.InPlace name connection := by
  refine h.invariant (fun app => ∀ name connection, app.connections.lookup name = some connection →
    serverSide.InPlace name connection) ?_ ?_
  · intro _ _ hlookup
    cases hlookup
  · intro t hplace hof
    exact inPlace_step hplace hof

theorem ServerApp.inPlace_of_mem (h : (serverMachine τ).Run .new ts mid)
    (h' : (serverMachine τ).Run mid us app) {t : ServerTransition τ} (ht : t ∈ us) :
    ∀ name connection, t.pre.connections.lookup name = some connection →
      serverSide.InPlace name connection := by
  obtain ⟨before, after, rfl⟩ := List.append_of_mem ht
  exact inPlace_run (h.append (h'.of_split rfl).1)

theorem authenticated_run (h : (serverMachine τ).Run .new ts mid)
    (h' : (serverMachine τ).Run mid us app)
    (hkeeps : ∀ t ∈ us, t.pre.Keeps t.post t.input name)
    (hsender : mid.authenticated name sender = true) : app.authenticated name sender = true := by
  refine h'.history (fun us app => (∀ t ∈ us, t.pre.Keeps t.post t.input name) →
    app.authenticated name sender = true) (fun _ => hsender) ?_ hkeeps
  intro us t hrun ih hof hkeeps
  obtain ⟨hbefore, hlast⟩ := List.forall_mem_append.mp hkeeps
  exact step_authenticated hof (inPlace_run (h.append hrun)) (hlast t (List.mem_singleton_self t))
    (ih hbefore)

theorem ServerApp.taken_run (h : (serverMachine τ).Run .new ts mid)
    (h' : (serverMachine τ).Run mid us app) (name : String) :
    (us.flatMap (fun t => t.pre.taken name t.input) ++ app.waiting name).Sublist
      (mid.waiting name ++ us.flatMap fun t => t.input.forwarded name) :=
  h'.took_sublist (waiting · name) _ _ fun t ht =>
    (step_waiting (h'.forall_of t ht) (inPlace_of_mem h h' ht) name).1

theorem ServerApp.passed_run (h : (serverMachine τ).Run .new ts mid)
    (h' : (serverMachine τ).Run mid us app) (name : String) (sender : Uuid) :
    dispatchedFor name sender (us.flatMap (·.output.dispatched)) =
      us.flatMap (fun t => t.pre.passed name sender t.input) := by
  rw [dispatchedFor, List.filter_flatMap]
  exact List.flatMap_congr fun t ht =>
    step_passed (h'.forall_of t ht) (inPlace_of_mem h h' ht) name sender

/-- **What the server dispatches of a client's messages** is what passes the gate and decodes of
those that its readers forwarded, in order and once. While the connection stays and the
application leaves its messages alone none is lost, and once it has authenticated the client the
gate is open. -/
theorem server_delivers (ts us : List (ServerTransition τ)) (mid app : ServerApp τ)
    (h : (serverMachine τ).Run .new ts mid) (h' : (serverMachine τ).Run mid us app)
    (name : String) (sender : Uuid) :
    (us.flatMap (fun t => t.pre.taken name t.input) ++ app.waiting name).Sublist
        (mid.waiting name ++ us.flatMap fun t => t.input.forwarded name) ∧
      dispatchedFor name sender (us.flatMap (·.output.dispatched)) =
        us.flatMap (fun t => t.pre.passed name sender t.input) ∧
      ((∀ t ∈ us, t.pre.Keeps t.post t.input name) →
        us.flatMap (fun t => t.pre.taken name t.input) ++ app.waiting name =
            mid.waiting name ++ us.flatMap (fun t => t.input.forwarded name) ∧
          (mid.authenticated name sender = true →
            dispatchedFor name sender (us.flatMap (·.output.dispatched)) =
              us.flatMap fun t => ((t.pre.taken name t.input).filter (·.2 = sender)).filterMap
                (written t.pre.registry name))) := by
  refine ⟨taken_run h h' name, passed_run h h' name sender, fun hkeeps => ⟨?_, ?_⟩⟩
  · exact h'.took_eq (waiting · name) _ _ fun t ht =>
      (step_waiting (h'.forall_of t ht) (inPlace_of_mem h h' ht) name).2 (hkeeps t ht)
  · intro hsender
    rw [passed_run h h' name sender]
    refine List.flatMap_congr fun t ht => ?_
    obtain ⟨before, after, rfl⟩ := List.append_of_mem ht
    have hopen := authenticated_run h (h'.of_split rfl).1
      (fun t ht => hkeeps t (List.mem_append_left _ ht)) hsender
    simp only [passed, hopen, Bool.true_or, List.filter_true]

end Runs

/-- The ticket of the client is dispatched. -/
theorem server_delivers_ticket :
    dispatchedFor "main" 7 (Sample.ticketRun.1.flatMap (·.output.dispatched)) =
      [.fromClient (.user .ticket) ⟨(5 : UInt8), .tcp, some 7, "main", 0⟩] :=
  (server_delivers [] _ .new _ .nil Sample.run_ticketRun "main" 7).2.1.trans rfl

/-! ## The client -/

namespace ClientConnection
variable {connection : ClientConnection}

theorem batch_onMainPort {op : ClientPort → Option Runtime → ClientPort × List ClientTask}
    (hop : ∀ port runtime, (op port runtime).1.messageReceived = port.messageReceived) :
    (connection.onMainPort op).batch = connection.batch := by
  unfold onMainPort
  split
  · rfl
  · rename_i port hport
    rw [batch_eq hport]
    exact hop port connection.runtime

theorem batch_drained (connection : ClientConnection) : connection.drained.batch = [] := by
  cases hport : connection.mainPort <;>
    simp [batch, drained, hport, ClientPort.checkMessagesReceived]

/-- A turn leaves the messages alone. -/
theorem batch_turn (system : ClientSystem) (connection : ClientConnection) :
    (system.turn connection).batch = connection.batch := by
  cases system with
  | checkMainPortDropped =>
    simp only [ClientSystem.turn, checkDropped]
    split
    · rfl
    · rename_i port hport
      rw [batch_eq hport]
      simp only [batch, ClientPort.checkMessagesReceived, ClientPort.checkPortDropped]
      split <;> rfl
  | startConnections =>
    simp only [ClientSystem.turn, startUnlessConnected]
    split
    · exact batch_onMainPort fun port runtime =>
        (ClientPort.ReadsHalf.connect port runtime).messageReceived
    · rfl
  | checkConnectedToMainPort =>
    exact batch_onMainPort fun port _ =>
      (ClientPort.ReadsHalf.checkConnectedToServer port).messageReceived
  | checkListeningToMainPort =>
    exact batch_onMainPort fun port runtime =>
      (ClientPort.ReadsHalf.startListeningToServer port runtime).messageReceived

end ClientConnection

namespace ClientInput
variable {τ : Type} [UserMessages τ]

/-- The message that a reader of the connection forwards. -/
def forwarded (name : String) : ClientInput τ → List (List UInt8)
  | .task connectionName _ (.messageReceived bytes) => if connectionName = name then [bytes] else []
  | _ => []

end ClientInput

/-- The connection of a message that came from a server. -/
def WorldMessage.server? {τ : Type} [UserMessages τ] : WorldMessage τ → Option String
  | .fromServer _ ev => some ev.connectionName
  | .fromClient .. => none

/-- What the dispatch of the bytes that came from a server writes. -/
def ClientConnection.received {τ : Type} [DecidableEq τ] [UserMessages τ] [Ciborium τ]
    (registry : MessagesRegistry τ) (connectionName : String) (bytes : List UInt8) :
    Option (WorldMessage τ) :=
  (registry.decode bytes).map fun decoded =>
    .fromServer decoded.type ⟨decoded.message, .tcp, connectionName, 0⟩

namespace ClientApp
variable {τ : Type} [DecidableEq τ] [UserMessages τ] [Ciborium τ] {app app' : ClientApp τ}
  {input : ClientInput τ} {output : List (WorldMessage τ)} {name : String}

/-- The messages of a connection that wait to be read. -/
def waiting (app : ClientApp τ) (name : String) : List (List UInt8) :=
  ((app.connections.lookup name).map (·.batch)).getD []

/-- The messages of a connection that the step takes. -/
def taken (app : ClientApp τ) (name : String) : ClientInput τ → List (List UInt8)
  | .readMessagesClient => app.waiting name
  | _ => []

theorem waiting_eq {connection : ClientConnection}
    (hlookup : app.connections.lookup name = some connection) :
    app.waiting name = connection.batch := by
  rw [waiting, hlookup]
  rfl

theorem waiting_none (hlookup : app.connections.lookup name = none) : app.waiting name = [] := by
  rw [waiting, hlookup]
  rfl

/-- **What a step does to the messages of a connection** that it keeps. -/
theorem step_stays {before after : ClientConnection} (h : app.step input = some (app', output))
    (hbefore : app.connections.lookup name = some before)
    (hafter : app'.connections.lookup name = some after) :
    app.taken name input ++ after.batch = before.batch ++ input.forwarded name := by
  have hsame : ∀ {after' : ClientConnection}, after'.batch = before.batch →
      app.taken name input = [] → input.forwarded name = [] →
        app.taken name input ++ after'.batch = before.batch ++ input.forwarded name := by
    intro after' hbatch htaken hforwarded
    rw [hbatch, htaken, hforwarded, List.append_nil]
    rfl
  cases input with
  | first system =>
    rw [step_first h] at hafter
    obtain ⟨before', hbefore', rfl⟩ := ClientSystem.run_lookup hafter
    cases hbefore.symm.trans hbefore'
    exact hsame (ClientConnection.batch_turn system before) rfl rfl
  | readMessagesClient =>
    rw [step_readMessages h, AssocMap.lookup_mapVals, hbefore] at hafter
    cases hafter
    rw [before.batch_drained]
    exact congrArg (· ++ []) (waiting_eq hbefore)
  | authenticationMessageClient =>
    rw [lookup_identified h, hbefore] at hafter
    cases hafter
    exact hsame rfl rfl rfl
  | startConnection connectionName settings =>
    cases h
    cases (NetworkConnections.startConnection_of_lookup hbefore _ _).symm.trans hafter
    exact hsame rfl rfl rfl
  | disconnect connectionName =>
    cases h
    cases hbefore.symm.trans (AssocMap.lookup_of_erase hafter).2
    exact hsame rfl rfl rfl
  | sendMessage connectionName t message =>
    cases h
    rcases AssocMap.lookup_of_modify hafter with ⟨-, hkept⟩ | ⟨before', -, hbefore', rfl⟩
    · cases hbefore.symm.trans hkept
      exact hsame rfl rfl rfl
    · cases hbefore.symm.trans hbefore'
      refine hsame (ClientConnection.batch_onMainPort fun port runtime => ?_) rfl rfl
      exact (ClientPort.ReadsHalf.sendMessage port message runtime).messageReceived
  | task connectionName task event =>
    obtain ⟨app'', htask, heq⟩ := Option.map_eq_some_iff.mp h
    cases heq
    obtain ⟨hconnections, -, connection, port, hconnection, -, hport, -⟩ := task_spec htask
    rw [hconnections] at hafter
    rcases AssocMap.lookup_of_modify hafter with ⟨hname, hkept⟩ | ⟨before', rfl, hbefore', rfl⟩
    · cases hbefore.symm.trans hkept
      refine hsame rfl rfl ?_
      cases event with
      | messageReceived bytes => exact if_neg (Ne.symm hname)
      | _ => rfl
    · cases hbefore.symm.trans hbefore'
      cases hbefore.symm.trans hconnection
      rw [ClientConnection.batch_eq hport]
      simp only [taken, List.nil_append, ClientConnection.receive, hport, ClientConnection.batch,
        ClientPort.checkMessagesReceived]
      cases event with
      | messageReceived bytes =>
        simp only [ClientInput.forwarded, if_true]
        rfl
      | _ => exact (List.append_nil _).symm
  | registerMessage t | updateMessages =>
    cases h
    cases hbefore.symm.trans hafter
    exact hsame rfl rfl rfl

/-- **No step takes or leaves a message that neither waited nor came**, and one that keeps the
connection loses none. -/
theorem step_waiting (h : app.step input = some (app', output)) (name : String) :
    (app.taken name input ++ app'.waiting name).Sublist
        (app.waiting name ++ input.forwarded name) ∧
      ((name ∈ app.connections → name ∈ app'.connections) →
        app.taken name input ++ app'.waiting name = app.waiting name ++ input.forwarded name) := by
  have htaken : (app.taken name input).Sublist (app.waiting name) := by
    cases input with
    | readMessagesClient => exact List.Sublist.refl _
    | _ => exact List.nil_sublist _
  cases hbefore : app.connections.lookup name with
  | none =>
    have hforwarded : input.forwarded name = [] := by
      cases input with
      | task connectionName task event =>
        cases event with
        | messageReceived bytes =>
          obtain ⟨app'', htask, -⟩ := Option.map_eq_some_iff.mp h
          obtain ⟨-, -, connection, port, hconnection, -⟩ := task_spec htask
          refine if_neg ?_
          rintro rfl
          cases hbefore.symm.trans hconnection
        | _ => rfl
      | _ => rfl
    have hempty : app'.waiting name = [] := by
      cases hafter : app'.connections.lookup name with
      | none => exact waiting_none hafter
      | some after =>
        rw [waiting_eq hafter]
        cases step_change h hafter with
        | @created settings _ new =>
          cases settings with
          | server settings => cases new
          | client settings =>
            cases new
            rfl
        | kept lookup | turned lookup | received lookup | sent lookup | drained lookup
        | identified lookup => cases hbefore.symm.trans lookup
    rw [waiting_none hbefore] at htaken ⊢
    rw [List.sublist_nil.mp htaken, hempty, hforwarded]
    exact ⟨List.Sublist.refl _, fun _ => rfl⟩
  | some before =>
    cases hafter : app'.connections.lookup name with
    | none =>
      rw [waiting_none hafter, List.append_nil]
      refine ⟨htaken.trans (List.sublist_append_left _ _), fun hstays => ?_⟩
      exact absurd (hstays (AssocMap.mem_of_lookup hbefore)) (AList.lookup_eq_none.mp hafter)
    | some after =>
      have hstays := step_stays h hbefore hafter
      rw [waiting_eq hafter, waiting_eq hbefore, hstays]
      exact ⟨List.Sublist.refl _, fun _ => rfl⟩

/-- If `read_messages_client` ends, there was nothing that it panics on. -/
theorem readsBatch_of_ok {registry : MessagesRegistry τ} {connections left : ClientConnections}
    {commands : List (Command τ)}
    (h : readMessagesClient registry connections = .ok (left, commands)) :
    ReadsBatchClient registry connections := by
  refine (readsBatchClient_iff _).mpr fun name connection hlookup bytes hbytes => ?_
  obtain ⟨commands', hloop, -⟩ := Panicking.bind_eq_ok.mp h
  obtain ⟨queued, hturn⟩ := Panicking.forEach_ok hloop _ (AssocMap.mem_entries.mpr hlookup)
  obtain ⟨out, hout⟩ := Panicking.forEach_ok hturn bytes hbytes
  exact not_undecodable_of_ok hout

/-- What `read_messages_client` does if there is nothing that it panics on. -/
theorem readMessagesClient_ok {registry : MessagesRegistry τ} {connections : ClientConnections}
    (h : ReadsBatchClient registry connections) :
    readMessagesClient registry connections =
      .ok (AssocMap.mapVals (fun _ connection => connection.drained) connections,
        (AssocMap.collect (fun _ connection => connection.batch.filterMap
          (ClientConnection.received registry connection.connectionName)) connections).map
            Except.ok) := by
  have hone : ∀ (connection : ClientConnection) (batch : List (List UInt8)),
      batch.flatMap (dispatchClient registry connection) =
        (batch.filterMap (ClientConnection.received registry connection.connectionName)).map
          Except.ok := by
    intro connection batch
    induction batch with
    | nil => rfl
    | cons bytes batch ih =>
      rw [List.flatMap_cons, ih, List.filterMap_cons, dispatchClient, ClientConnection.received]
      cases registry.decode bytes <;> rfl
  rw [ReadsBatchClient] at h
  rw [h]
  simp only [hone]
  exact congrArg (fun commands => Except.ok (_, commands)) List.map_flatMap.symm

/-- What `read_messages_client` queues, if it ends. -/
theorem commands_eq {registry : MessagesRegistry τ} {connections left : ClientConnections}
    {commands : List (Command τ)}
    (h : readMessagesClient registry connections = .ok (left, commands)) :
    commands = (AssocMap.collect (fun _ connection => connection.batch.filterMap
      (ClientConnection.received registry connection.connectionName)) connections).map
        Except.ok := by
  rw [readMessagesClient_ok (readsBatch_of_ok h)] at h
  cases h
  rfl

/-- **A step dispatches what decodes** of the messages that it takes, and nothing else. -/
theorem step_received (h : app.step input = some (app', output))
    (hplace : ∀ name connection, app.connections.lookup name = some connection →
      clientSide.InPlace name connection) (name : String) :
    output.filter (·.server? = some name) =
      (app.taken name input).filterMap (ClientConnection.received app.registry name) := by
  have hquiet : output = [] → app.taken name input = [] →
      output.filter (·.server? = some name) =
        (app.taken name input).filterMap (ClientConnection.received app.registry name) := by
    intro houtput htaken
    rw [houtput, htaken]
    rfl
  have hserver : ∀ {other connection message}, app.connections.lookup other = some connection →
      message ∈ connection.batch.filterMap
        (ClientConnection.received app.registry connection.connectionName) →
          message.server? = some other := by
    intro other connection message hlookup hmessage
    obtain ⟨bytes, -, hreceived⟩ := List.mem_filterMap.mp hmessage
    obtain ⟨decoded, -, rfl⟩ := Option.map_eq_some_iff.mp hreceived
    exact congrArg some (hplace other connection hlookup).1
  cases input with
  | readMessagesClient =>
    simp only [step] at h
    split at h
    · cases h
    · rename_i connections commands hread
      split at h
      · cases h
      · rename_i dispatched happlied
        cases h
        rw [commands_eq hread, applyCommands_ok] at happlied
        cases happlied
        rw [taken]
        cases hlookup : app.connections.lookup name with
        | none =>
          rw [waiting_none hlookup]
          refine List.filter_eq_nil_iff.mpr fun message hmessage => ?_
          obtain ⟨other, connection, hother, hmem⟩ := AssocMap.mem_collect.mp hmessage
          rw [hserver hother hmem]
          intro heq
          cases of_decide_eq_true heq
          cases hlookup.symm.trans hother
        | some connection =>
          have hname : connection.connectionName = name := (hplace name connection hlookup).1
          rw [waiting_eq hlookup]
          refine (AssocMap.filter_collect _ hlookup ?_ ?_).trans (by rw [hname])
          · exact fun message hmessage => decide_eq_true (hserver hlookup hmessage)
          · intro other connection' hother hlookup' message hmessage
            rw [hserver hlookup' hmessage]
            exact decide_eq_false fun heq => hother (Option.some.inj heq)
  | first system =>
    simp only [step] at h
    split at h
    · cases h
      exact hquiet rfl rfl
    · cases h
  | task connectionName task event =>
    obtain ⟨app'', -, heq⟩ := Option.map_eq_some_iff.mp h
    cases heq
    exact hquiet rfl rfl
  | authenticationMessageClient | registerMessage | startConnection | disconnect | sendMessage
  | updateMessages =>
    cases h
    exact hquiet rfl rfl

end ClientApp

section Runs
open ClientApp
variable {τ : Type} [DecidableEq τ] [UserMessages τ] [Ciborium τ]
  {ts us : List (ClientTransition τ)} {mid app : ClientApp τ}

theorem ClientApp.inPlace_run (h : (clientMachine τ).Run .new ts app) :
    ∀ name connection, app.connections.lookup name = some connection →
      clientSide.InPlace name connection := by
  refine h.invariant (fun app => ∀ name connection, app.connections.lookup name = some connection →
    clientSide.InPlace name connection) ?_ ?_
  · intro _ _ hlookup
    cases hlookup
  · intro t hplace hof
    exact inPlace_step hplace hof

theorem ClientApp.taken_run (h' : (clientMachine τ).Run mid us app) (name : String) :
    (us.flatMap (fun t => t.pre.taken name t.input) ++ app.waiting name).Sublist
      (mid.waiting name ++ us.flatMap fun t => t.input.forwarded name) :=
  h'.took_sublist (waiting · name) _ _ fun t ht => (step_waiting (h'.forall_of t ht) name).1

theorem ClientApp.received_run (h : (clientMachine τ).Run .new ts mid)
    (h' : (clientMachine τ).Run mid us app) (name : String) :
    (us.flatMap (·.output)).filter (·.server? = some name) =
      us.flatMap (fun t => (t.pre.taken name t.input).filterMap
        (ClientConnection.received t.pre.registry name)) := by
  rw [List.filter_flatMap]
  refine List.flatMap_congr fun t ht => step_received (h'.forall_of t ht) ?_ name
  obtain ⟨before, after, rfl⟩ := List.append_of_mem ht
  exact ClientApp.inPlace_run (h.append (h'.of_split rfl).1)

/-- **What the client dispatches of a server's messages** is what decodes of those that its readers
forwarded, in order and once, and none is lost while the connection stays. -/
theorem client_delivers (ts us : List (ClientTransition τ)) (mid app : ClientApp τ)
    (h : (clientMachine τ).Run .new ts mid) (h' : (clientMachine τ).Run mid us app)
    (name : String) :
    (us.flatMap (fun t => t.pre.taken name t.input) ++ app.waiting name).Sublist
        (mid.waiting name ++ us.flatMap fun t => t.input.forwarded name) ∧
      (us.flatMap (·.output)).filter (·.server? = some name) =
        us.flatMap (fun t => (t.pre.taken name t.input).filterMap
          (ClientConnection.received t.pre.registry name)) ∧
      ((∀ t ∈ us, name ∈ t.pre.connections → name ∈ t.post.connections) →
        us.flatMap (fun t => t.pre.taken name t.input) ++ app.waiting name =
          mid.waiting name ++ us.flatMap fun t => t.input.forwarded name) := by
  refine ⟨taken_run h' name, received_run h h' name, fun hstays => ?_⟩
  exact h'.took_eq (waiting · name) _ _ fun t ht =>
    (step_waiting (h'.forall_of t ht) name).2 (hstays t ht)

end Runs

/-- What tells the client its UUID is dispatched. -/
theorem client_delivers_droppedRun :
    (Sample.droppedRun.1.flatMap (·.output)).filter (·.server? = some "main") =
      [.fromServer .authenticatedUuid ⟨⟨7⟩, .tcp, "main", 0⟩] :=
  (client_delivers [] _ .new _ .nil Sample.run_droppedRun "main").2.1.trans rfl

end Inator
