import Inator.Lib.Batches
import Inator.Plugins.Frames
import Inator.Verify.Agreement
import Inator.Verify.Messaging
import Inator.Verify.Removal

/-! # Messages and frame boundaries

`read_messages_server` asks who is authenticated before any message of its batch has been, and
`authentication_message_server` enters the senders after the whole batch. So a connection is a
gate that opens between batches, for each sender on its own (`messagesFrames_spec`), and what it
lets through depends on the frame boundaries just by the messages behind the first
`AuthenticationMessage` of their sender in the same frame (`dispatch_same_iff`). -/

namespace Inator

section Frames
variable {τ : Type} [DecidableEq τ] [UserMessages τ] [Ciborium τ]

/-! ## Messages -/

namespace Incoming
variable (registry : MessagesRegistry τ)

/-- The message is of a type that authenticates: it is dispatched for any sender. -/
def authenticates (message : Incoming) : Bool :=
  (registry.decode message.1).any fun decoded => decoded.type.asAuthentication decoded.message

/-- The message is the `AuthenticationMessage` that the handler accepts. -/
def enters (message : Incoming) : Bool :=
  (registry.decode message.1).any fun decoded => decoded.type = .authenticationMessage

/-- What the dispatch of the message writes. -/
def written (connectionName : String) (message : Incoming) : Option (WorldMessage τ) :=
  (registry.decode message.1).map fun decoded =>
    .fromClient decoded.type ⟨decoded.message, .tcp, some message.2, connectionName, 0⟩

end Incoming

/-- The connection and the client that a message came from. -/
def WorldMessage.source? : WorldMessage τ → Option (String × Uuid)
  | .fromClient _ ev => ev.sender.map (ev.connectionName, ·)
  | .fromServer .. => none

/-- The messages of a batch that come in on a connection. -/
def arrivedOn (name : String) (batch : List Arrival) : List Incoming :=
  (batch.filter (·.1 = name)).map (·.2)

open Incoming

variable {registry : MessagesRegistry τ} {connection : ServerConnection}
  {connections : ServerConnections} {name : String} {sender : Uuid}

/-- The messages of a batch that a connection lets through. -/
def ServerConnection.admits (registry : MessagesRegistry τ) (connection : ServerConnection)
    (batch : List Incoming) : List Incoming :=
  batch.filter fun message =>
    message.2 ∈ connection.clientsConnected || authenticates registry message

theorem dispatchServer_eq (message : Incoming) :
    dispatchServer registry connection message.1 message.2 =
      ((connection.admits registry [message]).filterMap
        (written registry connection.connectionName)).map Except.ok := by
  unfold dispatchServer ServerConnection.admits authenticates written
  cases hdecode : registry.decode message.1 with
  | none => by_cases hsender : message.2 ∈ connection.clientsConnected <;> simp [hdecode, hsender]
  | some decoded =>
    obtain ⟨t, decoded⟩ := decoded
    by_cases hsender : message.2 ∈ connection.clientsConnected
    · simp [hdecode, hsender]
    · cases hasks : t.asAuthentication decoded <;> simp [hdecode, hsender, hasks]

theorem flatMap_dispatchServer (batch : List Incoming) :
    (batch.flatMap fun message => dispatchServer registry connection message.1 message.2) =
      ((connection.admits registry batch).filterMap
        (written registry connection.connectionName)).map Except.ok := by
  induction batch with
  | nil => rfl
  | cons message batch ih =>
    have hsplit : connection.admits registry (message :: batch) =
        connection.admits registry [message] ++ connection.admits registry batch := by
      rw [← List.singleton_append]
      exact List.filter_append ..
    rw [List.flatMap_cons, ih, dispatchServer_eq, hsplit, List.filterMap_append, List.map_append]

omit [DecidableEq τ] [Ciborium τ] in
theorem applyCommands_ok (written : List (WorldMessage τ)) :
    applyCommands (written.map Except.ok) = .ok written := by
  have hloop : applyCommands (written.map Except.ok) =
      .ok ((written.map Except.ok).flatMap fun command : Command τ =>
        match command with
        | .ok message => [message]
        | .error _ => []) := by
    refine Panicking.forEach_eq fun command hcommand => ?_
    obtain ⟨message, -, rfl⟩ := List.mem_map.mp hcommand
    rfl
  rw [hloop, List.flatMap_map]
  exact congrArg Except.ok (List.flatMap_singleton' written)

/-! ## What a frame does to a connection -/

/-- Nothing waits to be read. -/
def ServerConnections.Idle (connections : ServerConnections) : Prop :=
  ∀ name connection, connections.lookup name = some connection →
    serverSide.InPlace name connection ∧ connection.batch = []

/-- The connection after messages have come in. -/
def ServerConnection.arrive (messages : List Incoming) (connection : ServerConnection) :
    ServerConnection :=
  messages.foldl (fun connection message => connection.onMainPort fun mainPort _ =>
    (mainPort.receive (.messageReceived message.1 message.2), [])) connection

theorem lookup_arrive (batch : List Arrival) (connections : ServerConnections) (name : String) :
    (connections.arrive batch).lookup name =
      (connections.lookup name).map (·.arrive (arrivedOn name batch)) := by
  induction batch generalizing connections with
  | nil => exact Option.map_id'.symm
  | cons arrival batch ih =>
    rw [ServerConnections.arrive, List.foldl_cons]
    refine (ih _).trans ?_
    by_cases hname : arrival.1 = name
    · have hown : arrivedOn name (arrival :: batch) = arrival.2 :: arrivedOn name batch := by
        simp [arrivedOn, hname]
      rw [hown, ServerConnections.receive, hname, AssocMap.lookup_modify, Option.map_map]
      rfl
    · have hother : arrivedOn name (arrival :: batch) = arrivedOn name batch := by
        simp [arrivedOn, hname]
      rw [hother, ServerConnections.receive, AssocMap.lookup_modify_ne _ _ (Ne.symm hname)]

/-- Messages that come in wait behind those that do. -/
theorem arrive_spec (hplace : serverSide.InPlace name connection) (messages : List Incoming) :
    serverSide.InPlace name (connection.arrive messages) ∧
      (connection.arrive messages).clientsConnected = connection.clientsConnected ∧
      (connection.arrive messages).batch = connection.batch ++ messages := by
  induction messages generalizing connection with
  | nil => exact ⟨hplace, rfl, (List.append_nil _).symm⟩
  | cons message messages ih =>
    obtain ⟨port, hport⟩ := Option.isSome_iff_exists.mp hplace.2
    change connection.mainPort = some port at hport
    have hfirst : serverSide.InPlace name (connection.onMainPort fun mainPort _ =>
        (mainPort.receive (.messageReceived message.1 message.2), [])) :=
      ServerConnection.inPlace_onMainPort hplace
    obtain ⟨hplace', hclients, hbatch⟩ := ih hfirst
    refine ⟨hplace', hclients.trans ?_, hbatch.trans ?_⟩
    · simp only [ServerConnection.onMainPort, hport]
    · simp only [ServerConnection.onMainPort, hport, ServerConnection.batch]
      exact List.append_assoc ..

/-- The messages of a batch wait, each at its connection. -/
theorem ServerConnections.Idle.arrive {arrived : ServerConnection} (hidle : connections.Idle)
    {batch : List Arrival} (harrived : (connections.arrive batch).lookup name = some arrived) :
    serverSide.InPlace name arrived ∧ arrived.batch = arrivedOn name batch ∧
      ∃ connection, connections.lookup name = some connection ∧
        arrived.clientsConnected = connection.clientsConnected := by
  rw [lookup_arrive] at harrived
  obtain ⟨connection, hlookup, rfl⟩ := Option.map_eq_some_iff.mp harrived
  obtain ⟨hplace, hempty⟩ := hidle name connection hlookup
  obtain ⟨hplace', hclients, hbatch⟩ := arrive_spec hplace (arrivedOn name batch)
  rw [hempty, List.nil_append] at hbatch
  exact ⟨hplace', hbatch, connection, hlookup, hclients⟩

theorem batch_drained (connection : ServerConnection) : connection.drained.batch = [] := by
  cases hport : connection.mainPort <;>
    simp [ServerConnection.batch, ServerConnection.drained, hport, ServerPort.checkMessagesReceived]

theorem inPlace_drained (hplace : serverSide.InPlace name connection) :
    serverSide.InPlace name connection.drained := by
  obtain ⟨hname, hsome⟩ := hplace
  exact ⟨hname, by simpa [serverSide, ServerConnection.drained] using hsome⟩

omit [DecidableEq τ] in
/-- The authentication of a client leaves the messages alone. -/
theorem batch_settled (name : String) (connection : ServerConnection)
    (calls : List (AuthenticateCall τ)) :
    (calls.foldl (ServerConnection.settleCall name) connection).batch = connection.batch := by
  refine List.foldlRecOn (motive := fun settled : ServerConnection =>
    settled.batch = connection.batch) _ _ rfl fun settled hsettled call _ => ?_
  rcases ServerConnection.settleCall_cases name settled call with ⟨hsame, -⟩ | ⟨uuid, -, haccept⟩
  · rw [hsame, hsettled]
  · obtain ⟨-, hport⟩ := ServerConnection.acceptClient_eq τ settled uuid call.event.portNumber
    rw [← hsettled, ServerConnection.batch, haccept, hport, ServerConnection.batch]
    rcases settled.authenticateClient_cases uuid call.event.portNumber with
      ⟨-, hsame⟩ | ⟨-, hmain⟩
    · rw [hsame]
    · rw [hmain]
      split_ifs
      · cases hbefore : settled.mainPort with
        | none => rfl
        | some port =>
          cases hwaiting : port.notAuthenticatedListening.lookup uuid <;>
            simp [ServerPort.checkMessagesReceived, ServerPort.authenticateClient, hwaiting]
      · rfl

omit [DecidableEq τ] in
/-- **The handler of `AuthenticationMessage` accepts** each message that names a connection. -/
theorem authenticationLoop_stock (n : ℕ) (connections : ServerConnections)
    (evs : List (MessageReceivedFromClient τ .authenticationMessage))
    (hsenders : ∀ ev ∈ evs, ev.sender.isSome) :
    ∃ left, authenticationLoop AuthenticationMessage.authenticationTrait n connections evs =
      .ok (left, (evs.filter (·.connectionName ∈ connections)).map fun ev =>
        ⟨.authenticationMessage, ev, true⟩) := by
  induction evs generalizing n connections with
  | nil => exact ⟨connections, rfl⟩
  | cons ev evs ih =>
    obtain ⟨hsender, hrest⟩ := List.forall_mem_cons.mp hsenders
    obtain ⟨uuid, huuid⟩ := Option.isSome_iff_exists.mp hsender
    cases hlookup : connections.lookup ev.connectionName with
    | none =>
      obtain ⟨left, hleft⟩ := ih (n + 1) connections hrest
      have hgone : ev.connectionName ∉ connections := AList.lookup_eq_none.mp hlookup
      refine ⟨left, ?_⟩
      simp [authenticationLoop, huuid, Panicking.expectSome, hlookup, hleft, hgone, bind,
        Except.bind]
    | some connection =>
      have hthere : ev.connectionName ∈ connections := AssocMap.mem_of_lookup hlookup
      obtain ⟨left, hleft⟩ := ih (n + 1) (AssocMap.modify ev.connectionName
        (fun _ => connection.acceptClient τ uuid ev.portNumber) connections) hrest
      have hsame : ∀ other, other ∈ AssocMap.modify ev.connectionName
          (fun _ => connection.acceptClient τ uuid ev.portNumber) connections ↔
            other ∈ connections := fun _ => AssocMap.mem_mapVals
      have hstep : authenticationLoop AuthenticationMessage.authenticationTrait n connections
          (ev :: evs) = (authenticationLoop AuthenticationMessage.authenticationTrait (n + 1)
            (AssocMap.modify ev.connectionName
              (fun _ => connection.acceptClient τ uuid ev.portNumber) connections) evs).map
                fun rest => (rest.1, ⟨.authenticationMessage, ev, true⟩ :: rest.2) := by
        simp only [authenticationLoop, huuid, hlookup]
        rfl
      refine ⟨left, ?_⟩
      rw [hstep, hleft]
      simp only [hsame]
      simp [Except.map, hthere]

/-- What the connections let through of what they have to read. -/
def ServerConnections.admitted (registry : MessagesRegistry τ) (connections : ServerConnections) :
    List (WorldMessage τ) :=
  AssocMap.collect (fun _ connection => (connection.admits registry connection.batch).filterMap
    (written registry connection.connectionName)) connections

/-- All that is to be read, in every connection, is well formed. -/
def ServerConnections.WellFormed (registry : MessagesRegistry τ)
    (connections : ServerConnections) : Prop :=
  ∀ name connection, connections.lookup name = some connection →
    ∀ message ∈ connection.batch, (registry.decode message.1).isSome

theorem readMessagesServer_eq (hwell : connections.WellFormed registry) :
    readMessagesServer registry connections =
      .ok (AssocMap.mapVals (fun _ connection => connection.drained) connections,
        (connections.admitted registry).map Except.ok) := by
  have hread : ReadsBatchServer registry connections := by
    refine (readsBatchServer_iff _).mpr fun name connection hlookup message hmessage => ?_
    obtain ⟨decoded, hdecode⟩ := Option.isSome_iff_exists.mp
      (hwell name connection hlookup message hmessage)
    exact MessagesRegistry.not_undecodable_of_decode hdecode
  have hcommands : AssocMap.collect (fun _ connection => connection.batch.flatMap fun message =>
      dispatchServer registry connection message.1 message.2) connections =
        (connections.admitted registry).map Except.ok := by
    simp only [flatMap_dispatchServer]
    exact List.map_flatMap.symm
  rwa [ReadsBatchServer, hcommands] at hread

theorem source?_of_written {message : Incoming} {message' : WorldMessage τ}
    (h : written registry name message = some message') :
    message'.source? = some (name, message.2) := by
  obtain ⟨decoded, -, rfl⟩ := Option.map_eq_some_iff.mp h
  rfl

/-- A message that is let through, of a connection under its own name. -/
theorem mem_admitted_source {message : WorldMessage τ}
    (hplace : serverSide.InPlace name connection)
    (h : message ∈ (connection.admits registry connection.batch).filterMap
      (written registry connection.connectionName)) :
    ∃ sender, message.source? = some (name, sender) := by
  obtain ⟨incoming, -, hwritten⟩ := List.mem_filterMap.mp h
  have hname : connection.connectionName = name := hplace.1
  rw [hname] at hwritten
  exact ⟨incoming.2, source?_of_written hwritten⟩

/-- The messages that the handler reads. -/
theorem mem_authenticationMessages {ev : MessageReceivedFromClient τ .authenticationMessage} :
    ev ∈ (connections.admitted registry).filterMap (·.fromClient? .authenticationMessage) ↔
      ∃ name connection, connections.lookup name = some connection ∧
        ∃ message ∈ connection.batch, ∃ payload,
          registry.decode message.1 = some ⟨.authenticationMessage, payload⟩ ∧
            ev = ⟨payload, .tcp, some message.2, connection.connectionName, 0⟩ := by
  simp only [List.mem_filterMap, WorldMessage.fromClient?_eq_some, ServerConnections.admitted,
    AssocMap.mem_collect, ServerConnection.admits, List.mem_filter]
  constructor
  · intro h
    obtain ⟨_, ⟨name, connection, hlookup, message, ⟨hmessage, -⟩, hwritten⟩, rfl⟩ := h
    obtain ⟨⟨t, payload⟩, hdecode, heq⟩ := Option.map_eq_some_iff.mp hwritten
    cases heq
    exact ⟨name, connection, hlookup, message, hmessage, payload, hdecode, rfl⟩
  · intro h
    obtain ⟨name, connection, hlookup, message, hmessage, payload, hdecode, rfl⟩ := h
    refine ⟨_, ⟨name, connection, hlookup, message, ⟨hmessage, ?_⟩, ?_⟩, rfl⟩
    · simp [authenticates, hdecode, MessageType.asAuthentication]
    · simp [written, hdecode]

theorem enters_iff {message : Incoming} : enters registry message = true ↔
    ∃ payload, registry.decode message.1 = some ⟨.authenticationMessage, payload⟩ := by
  cases hdecode : registry.decode message.1 with
  | none => simp [enters, hdecode]
  | some decoded =>
    obtain ⟨t, payload⟩ := decoded
    simp only [enters, hdecode, Option.any_some, decide_eq_true_eq]
    constructor
    · intro h
      subst h
      exact ⟨payload, rfl⟩
    · intro h
      obtain ⟨payload', heq⟩ := h
      cases heq
      rfl

/-- The dispatched messages that a client has sent on a connection. -/
def dispatchedFor (name : String) (sender : Uuid) (dispatched : List (WorldMessage τ)) :
    List (WorldMessage τ) :=
  dispatched.filter fun message => message.source? = some (name, sender)

theorem dispatchedFor_admits (messages : List Incoming) :
    dispatchedFor name sender ((connection.admits registry messages).filterMap
        (written registry name)) =
      ((messages.filter (·.2 = sender)).filter fun message =>
        sender ∈ connection.clientsConnected || authenticates registry message).filterMap
          (written registry name) := by
  unfold dispatchedFor ServerConnection.admits
  rw [List.filter_filterMap, List.filterMap_filter, List.filter_filter, List.filterMap_filter]
  refine List.filterMap_congr fun message _ => ?_
  cases hwritten : written registry name message with
  | none => simp
  | some message' =>
    have hsource := source?_of_written hwritten
    by_cases hown : message.2 = sender
    · subst hown
      simp [hsource, Option.filter]
    · simp [hsource, hown, Option.filter]

/-- What is let through on a connection is what it lets through. -/
theorem dispatchedFor_admitted
    (hplaces : ∀ name connection, connections.lookup name = some connection →
      serverSide.InPlace name connection)
    (hlookup : connections.lookup name = some connection) (sender : Uuid) :
    dispatchedFor name sender (connections.admitted registry) =
      ((connection.batch.filter (·.2 = sender)).filter fun message =>
        sender ∈ connection.clientsConnected || authenticates registry message).filterMap
          (written registry name) := by
  have hname : connection.connectionName = name := (hplaces name connection hlookup).1
  have hown : (connections.admitted registry).filter
      (fun message => (message.source?.map Prod.fst) = some name) =
        (connection.admits registry connection.batch).filterMap
          (written registry connection.connectionName) := by
    refine AssocMap.filter_collect _ hlookup ?_ ?_
    · intro message hmessage
      obtain ⟨sender, hsource⟩ := mem_admitted_source (hplaces name connection hlookup) hmessage
      simp [hsource]
    · intro other connection' hother hlookup' message hmessage
      obtain ⟨sender, hsource⟩ := mem_admitted_source (hplaces other connection' hlookup') hmessage
      simpa [hsource] using hother
  have hrefine : dispatchedFor name sender (connections.admitted registry) =
      dispatchedFor name sender ((connections.admitted registry).filter
        fun message => (message.source?.map Prod.fst) = some name) := by
    rw [dispatchedFor, dispatchedFor, List.filter_filter]
    refine List.filter_congr fun message _ => ?_
    cases hsource : message.source? with
    | none => rfl
    | some source =>
      obtain ⟨name', sender'⟩ := source
      by_cases hname : name' = name <;> simp [hname]
  rw [hrefine, hown, hname, dispatchedFor_admits]

/-- The messages to be read are well formed if those that come in are. -/
theorem ServerConnections.Idle.wellFormed (hidle : connections.Idle) {batch : List Arrival}
    (hwell : ∀ arrival ∈ batch, (registry.decode arrival.2.1).isSome) :
    (connections.arrive batch).WellFormed registry := by
  intro name connection hlookup message hmessage
  rw [(hidle.arrive hlookup).2.1] at hmessage
  obtain ⟨arrival, harrival, rfl⟩ := List.mem_map.mp hmessage
  exact hwell arrival (List.mem_filter.mp harrival).1

/-- The calls that the handler of `AuthenticationMessage` accepts in a frame. -/
def ServerConnections.acceptedCalls (registry : MessagesRegistry τ)
    (connections : ServerConnections) : List (AuthenticateCall τ) :=
  (((connections.admitted registry).filterMap (·.fromClient? .authenticationMessage)).filter
    (·.connectionName ∈ connections)).map fun ev => ⟨.authenticationMessage, ev, true⟩

theorem messagesFrame_eq {batch : List Arrival}
    (hwell : (connections.arrive batch).WellFormed registry) :
    ∃ left, messagesFrame registry connections batch =
        .ok (left, (connections.arrive batch).admitted registry) ∧
      ∀ name, left.lookup name = ((connections.arrive batch).lookup name).map fun connection =>
        ((connections.arrive batch).acceptedCalls registry).foldl
          (ServerConnection.settleCall name) connection.drained := by
  set arrived := connections.arrive batch with harrived
  have hsenders : ∀ ev ∈ (arrived.admitted registry).filterMap
      (·.fromClient? .authenticationMessage), ev.sender.isSome := by
    intro ev hev
    obtain ⟨-, -, -, message, -, payload, -, rfl⟩ := mem_authenticationMessages.mp hev
    rfl
  obtain ⟨left, hleft⟩ := authenticationLoop_stock 0 (AssocMap.mapVals
    (fun _ connection => connection.drained) arrived) _ hsenders
  obtain ⟨hsettled, -⟩ := authenticationLoop_spec hleft
  refine ⟨left, ?_, fun name => ?_⟩
  · simp only [messagesFrame, ← harrived, readMessagesServer_eq hwell, applyCommands_ok,
      authenticationMessageServer, hleft, bind, Except.bind, pure, Except.pure]
  · rw [hsettled, AssocMap.lookup_mapVals, Option.map_map]
    simp only [AssocMap.mem_mapVals]
    rfl

/-- The handler accepts the senders of the `AuthenticationMessage`s of a connection. -/
theorem accepts_acceptedCalls
    (hplaces : ∀ name connection, connections.lookup name = some connection →
      serverSide.InPlace name connection)
    (hlookup : connections.lookup name = some connection) :
    (∃ call ∈ connections.acceptedCalls registry, ServerConnection.Accepts name call sender) ↔
      ∃ message ∈ connection.batch, message.2 = sender ∧ enters registry message = true := by
  constructor
  · intro h
    obtain ⟨call, hcall, -, hnamed, hfrom⟩ := h
    obtain ⟨ev, hev, rfl⟩ := List.mem_map.mp hcall
    obtain ⟨other, connection', hlookup', message, hmessage, payload, hdecode, rfl⟩ :=
      mem_authenticationMessages.mp (List.mem_filter.mp hev).1
    have hother : other = name := (hplaces other connection' hlookup').1.symm.trans hnamed
    subst hother
    cases hlookup.symm.trans hlookup'
    exact ⟨message, hmessage, Option.some.inj hfrom, enters_iff.mpr ⟨payload, hdecode⟩⟩
  · intro h
    obtain ⟨message, hmessage, rfl, henters⟩ := h
    obtain ⟨payload, hdecode⟩ := enters_iff.mp henters
    have hname : connection.connectionName = name := (hplaces name connection hlookup).1
    have hthere : connection.connectionName ∈ connections := by
      rw [hname]
      exact AssocMap.mem_of_lookup hlookup
    have hev := mem_authenticationMessages.mpr
      ⟨name, connection, hlookup, message, hmessage, payload, hdecode, rfl⟩
    exact ⟨_, List.mem_map_of_mem (List.mem_filter.mpr ⟨hev, decide_eq_true hthere⟩), rfl, hname,
      rfl⟩

/-- **One frame**: each connection dispatches what it lets through, and then enters the senders. -/
theorem messagesFrame_spec (hidle : connections.Idle) {batch : List Arrival}
    (hwell : ∀ arrival ∈ batch, (registry.decode arrival.2.1).isSome) :
    ∃ left dispatched, messagesFrame registry connections batch = .ok (left, dispatched) ∧
      left.Idle ∧ ∀ name connection, connections.lookup name = some connection →
        (∀ sender, dispatchedFor name sender dispatched =
          (((arrivedOn name batch).filter (·.2 = sender)).filter fun message =>
            sender ∈ connection.clientsConnected || authenticates registry message).filterMap
              (written registry name)) ∧
        ∃ after, left.lookup name = some after ∧
          ∀ sender, sender ∈ after.clientsConnected ↔ sender ∈ connection.clientsConnected ∨
            ∃ message ∈ arrivedOn name batch, message.2 = sender ∧
              enters registry message = true := by
  have hplaces : ∀ name connection, (connections.arrive batch).lookup name = some connection →
      serverSide.InPlace name connection := fun name connection hlookup =>
    (hidle.arrive hlookup).1
  obtain ⟨left, hframe, hleft⟩ := messagesFrame_eq (hidle.wellFormed hwell)
  refine ⟨left, _, hframe, ?_, fun name connection hlookup => ?_⟩
  · intro name after hafter
    rw [hleft] at hafter
    obtain ⟨before, hbefore, rfl⟩ := Option.map_eq_some_iff.mp hafter
    exact ⟨ServerConnection.inPlace_settleCalls (inPlace_drained (hplaces name before hbefore)) _,
      (batch_settled name before.drained _).trans (batch_drained before)⟩
  · have harrived : (connections.arrive batch).lookup name =
        some (connection.arrive (arrivedOn name batch)) := by
      rw [lookup_arrive, hlookup]
      rfl
    obtain ⟨-, hbatch, before, hbefore, hclients⟩ := hidle.arrive harrived
    cases hlookup.symm.trans hbefore
    have hafter := hleft name
    rw [harrived] at hafter
    refine ⟨fun sender => ?_, _, hafter, fun sender => ?_⟩
    · rw [dispatchedFor_admitted hplaces harrived, hbatch, hclients]
    · rw [ServerConnection.mem_clientsConnected_settled, accepts_acceptedCalls hplaces harrived,
        hbatch, or_comm, ← hclients]
      rfl

/-- A frame is two steps of the server, where it has read the `AuthenticationMessage`s before. -/
theorem ServerApp.step_messagesFrame {app : ServerApp τ} {batch : List Arrival}
    {left : ServerConnections} {dispatched : List (WorldMessage τ)}
    (hread : app.unread.filterMap (·.fromClient? .authenticationMessage) = [])
    (h : messagesFrame app.registry app.connections batch = .ok (left, dispatched)) :
    ∃ middle after calls,
      { app with connections := app.connections.arrive batch }.step .readMessagesServer =
        some (middle, { quiet with dispatched := dispatched }) ∧
      middle.step (.authenticationMessageServer .authenticationMessage
        AuthenticationMessage.authenticationTrait) = some (after, { quiet with calls := calls }) ∧
      after.registry = app.registry ∧ after.connections = left ∧
      after.unread.filterMap (·.fromClient? .authenticationMessage) = [] := by
  obtain ⟨⟨read, commands⟩, hbatch, h⟩ := Panicking.bind_eq_ok.mp h
  obtain ⟨written, happly, h⟩ := Panicking.bind_eq_ok.mp h
  obtain ⟨⟨settled, calls⟩, hloop, h⟩ := Panicking.bind_eq_ok.mp h
  cases h
  have hevents : (app.unread ++ dispatched).filterMap (·.fromClient? .authenticationMessage) =
      dispatched.filterMap (·.fromClient? .authenticationMessage) := by
    rw [List.filterMap_append, hread, List.nil_append]
  refine ⟨{ app with connections := read, unread := app.unread ++ dispatched },
    { app with
      connections := left
      unread := (app.unread ++ dispatched).filter
        fun message => (message.fromClient? .authenticationMessage).isNone },
    calls, ?_, ?_, rfl, rfl, ?_⟩
  · simp only [step, hbatch, happly]
  · simp only [step, hevents, hloop]
  · refine List.filterMap_eq_nil_iff.mpr fun message hmessage => ?_
    exact Option.isNone_iff_eq_none.mp (List.mem_filter.mp hmessage).2

/-! ## What frames dispatch for a sender -/

/-- The messages of a client on a connection, batch by batch. -/
def batchesOf (name : String) (sender : Uuid) (batches : List (List Arrival)) :
    List (List Incoming) :=
  batches.map fun batch => (arrivedOn name batch).filter (·.2 = sender)

/-- The messages of a client that are dispatched: those of a type that authenticates, and those of a
later frame than its first `AuthenticationMessage`. -/
def ServerConnection.through (registry : MessagesRegistry τ) (connection : ServerConnection)
    (name : String) (sender : Uuid) (batches : List (List Arrival)) : List Incoming :=
  Batches.through (authenticates registry) (enters registry) (sender ∈ connection.clientsConnected)
    (batchesOf name sender batches)

/-- The number of messages of a client that are dropped in the frame of its first
`AuthenticationMessage`, behind that one. -/
def ServerConnection.heldBack (registry : MessagesRegistry τ) (connection : ServerConnection)
    (name : String) (sender : Uuid) (batches : List (List Arrival)) : ℕ :=
  Batches.heldBack (authenticates registry) (enters registry) (sender ∈ connection.clientsConnected)
    (batchesOf name sender batches)

/-- **What frames dispatch** for each client of each connection. -/
theorem messagesFrames_spec (batches : List (List Arrival)) (hidle : connections.Idle)
    (hwell : ∀ arrival ∈ batches.flatten, (registry.decode arrival.2.1).isSome) :
    ∃ left dispatched, messagesFrames registry connections batches = .ok (left, dispatched) ∧
      ∀ name connection, connections.lookup name = some connection →
        ∀ sender, dispatchedFor name sender dispatched =
          (connection.through registry name sender batches).filterMap (written registry name) := by
  induction batches generalizing connections with
  | nil => exact ⟨connections, [], rfl, fun name connection hlookup sender => rfl⟩
  | cons batch batches ih =>
    rw [List.flatten_cons, List.forall_mem_append] at hwell
    obtain ⟨middle, now, hframe, hidle', hspec⟩ := messagesFrame_spec hidle hwell.1
    obtain ⟨left, more, hrest, hmore⟩ := ih hidle' hwell.2
    refine ⟨left, now ++ more, ?_, fun name connection hlookup sender => ?_⟩
    · simp only [messagesFrames, hframe, hrest, bind, Except.bind]
      rfl
    · obtain ⟨hnow, after, hafter, hclients⟩ := hspec name connection hlookup
      have hopened : decide (sender ∈ after.clientsConnected) =
          (decide (sender ∈ connection.clientsConnected) ||
            ((arrivedOn name batch).filter (·.2 = sender)).any (enters registry)) := by
        rw [Bool.eq_iff_iff, Bool.or_eq_true, decide_eq_true_iff, decide_eq_true_iff, hclients,
          List.any_filter, List.any_eq_true]
        simp
      have hsplit : connection.through registry name sender (batch :: batches) =
          (((arrivedOn name batch).filter (·.2 = sender)).filter fun message =>
            sender ∈ connection.clientsConnected || authenticates registry message) ++
              after.through registry name sender batches := by
        rw [ServerConnection.through, ServerConnection.through, hopened]
        rfl
      rw [hsplit, List.filterMap_append, ← hmore name after hafter sender, ← hnow sender]
      exact List.filter_append ..

theorem flatten_batchesOf (name : String) (sender : Uuid) (batches : List (List Arrival)) :
    (batchesOf name sender batches).flatten =
      (arrivedOn name batches.flatten).filter (·.2 = sender) := by
  rw [arrivedOn, List.filter_flatten, List.map_flatten, List.filter_flatten, List.map_map,
    List.map_map]
  rfl

/-- All that a connection lets through of well-formed messages is dispatched. -/
theorem length_written (batches : List (List Arrival))
    (hwell : ∀ arrival ∈ batches.flatten, (registry.decode arrival.2.1).isSome) :
    ((connection.through registry name sender batches).filterMap (written registry name)).length =
      (connection.through registry name sender batches).length := by
  refine List.filterMap_length_eq_length.mpr fun message hmessage => ?_
  have hmem := (Batches.through_sublist _).subset hmessage
  rw [flatten_batchesOf] at hmem
  obtain ⟨arrival, harrival, rfl⟩ := List.mem_map.mp (List.mem_filter.mp hmem).1
  rw [written, Option.isSome_map]
  exact hwell arrival (List.mem_filter.mp harrival).1

/-- **When frame boundaries change nothing.** Two ways to cut well-formed messages into frames
dispatch the same for a client of a connection exactly when they put as many of its messages, of a
type that does not authenticate, behind its first `AuthenticationMessage` in the frame of that
one. -/
theorem dispatch_same_iff (hidle : connections.Idle) (batches batches' : List (List Arrival))
    (hsame : batches.flatten = batches'.flatten)
    (hwell : ∀ arrival ∈ batches.flatten, (registry.decode arrival.2.1).isSome) :
    ∃ left dispatched left' dispatched',
      messagesFrames registry connections batches = .ok (left, dispatched) ∧
      messagesFrames registry connections batches' = .ok (left', dispatched') ∧
      ∀ name connection, connections.lookup name = some connection →
        ∀ sender, dispatchedFor name sender dispatched = dispatchedFor name sender dispatched' ↔
          connection.heldBack registry name sender batches =
            connection.heldBack registry name sender batches' := by
  have hwell' : ∀ arrival ∈ batches'.flatten, (registry.decode arrival.2.1).isSome :=
    hsame ▸ hwell
  obtain ⟨left, dispatched, hframes, hspec⟩ := messagesFrames_spec batches hidle hwell
  obtain ⟨left', dispatched', hframes', hspec'⟩ := messagesFrames_spec batches' hidle hwell'
  refine ⟨left, dispatched, left', dispatched', hframes, hframes', ?_⟩
  intro name connection hlookup sender
  have hsame' : (batchesOf name sender batches).flatten =
      (batchesOf name sender batches').flatten := by
    rw [flatten_batchesOf, flatten_batchesOf, hsame]
  rw [hspec name connection hlookup, hspec' name connection hlookup]
  constructor
  · intro heq
    have hlength := congrArg List.length heq
    rw [length_written batches hwell, length_written batches' hwell'] at hlength
    exact (Batches.length_through_eq_iff hsame').mp hlength
  · intro hheld
    exact congrArg (List.filterMap _) ((Batches.through_eq_iff hsame').mpr hheld)

end Frames

/-! ## A chat

The only message type of its own is a number, which does not authenticate. The codec writes what
CBOR prescribes for short texts of ASCII, and else what that of `Sample` does. -/

/-- The message types of the chat. -/
inductive Chat
  | line
  deriving DecidableEq

namespace Chat

instance : UserMessages Chat where
  Message _ := UInt8
  asAuthentication _ := false

def encodeText (text : String) : Except String (List UInt8) :=
  if text.length < 24 ∧ text.toList.all (·.toNat < 0x80) then
    .ok (.ofNat (0x60 + text.length) :: text.toList.map (.ofNat ·.toNat))
  else .error "text"

def decodeText : List UInt8 → Except String (String × List UInt8)
  | head :: rest =>
    if 0x60 ≤ head ∧ head < 0x78 ∧ (head - 0x60).toNat ≤ rest.length then
      .ok (String.ofList ((rest.take (head - 0x60).toNat).map (.ofNat ·.toNat)),
        rest.drop (head - 0x60).toNat)
    else .error "invalid type"
  | [] => .error "unexpected end"

/-- A map of two entries whose first key is the text `username`. -/
def usernameHead : List UInt8 := [0xA2, 0x68, 0x75, 0x73, 0x65, 0x72, 0x6E, 0x61, 0x6D, 0x65]

/-- The text `password`. -/
def passwordHead : List UInt8 := [0x68, 0x70, 0x61, 0x73, 0x73, 0x77, 0x6F, 0x72, 0x64]

def decodeAuthenticationMessage (bytes : List UInt8) : Except String AuthenticationMessage :=
  match usernameHead.isPrefixOf? bytes with
  | none => .error "invalid type"
  | some rest =>
    match decodeText rest with
    | .error e => .error e
    | .ok (username, rest) =>
      match passwordHead.isPrefixOf? rest with
      | none => .error "missing field"
      | some rest => (fun password => ⟨username, password.1⟩) <$> decodeText rest

instance : Ciborium Chat where
  intoWriter {t} message :=
    match t, message with
    | .authenticationMessage, message => do
      let username ← encodeText message.username
      let password ← encodeText message.password
      return usernameHead ++ username ++ passwordHead ++ password
    | .authenticatedUuid, message => .ok (0x50 :: Endian.bigBytes 16 message.uuid.toNat)
    | .user .line, n => .ok (Sample.encodeByte n)
  fromReader
    | .authenticationMessage, bytes => decodeAuthenticationMessage bytes
    | .authenticatedUuid, bytes =>
      match bytes with
      | 0x50 :: rest =>
        if rest.length < 16 then .error "unexpected end"
        else .ok ⟨.ofNat 128 (Endian.ofBig (rest.take 16))⟩
      | _ => .error "invalid type"
    | .user .line, bytes =>
      match Sample.decodeBytes 1 bytes with
      | .ok [n] => .ok n
      | _ => .error "invalid type"
  fromReaderMessageInfos := Sample.decodeMessageInfos

def registry : MessagesRegistry Chat :=
  ((MessagesRegistry.default.registerMessage .authenticationMessage).registerMessage
    .authenticatedUuid).registerMessage (.user .line)

/-- A login as `a` with the password `b`. -/
def login : Arrival := ("main", Sample.encodeMessageInfos
  ⟨1, usernameHead ++ [0x61, 0x61] ++ passwordHead ++ [0x61, 0x62]⟩, 7)

/-- A line of the same client. -/
def talk : Arrival := ("main", Sample.encodeMessageInfos ⟨3, [5]⟩, 7)

def connections : ServerConnections := AList.singleton "main" (Sample.server [])

end Chat

theorem Chat.idle : Chat.connections.Idle := by
  intro name connection hlookup
  have hentry := AssocMap.mem_entries.mpr hlookup
  cases List.mem_singleton.mp hentry
  exact ⟨⟨rfl, rfl⟩, rfl⟩

theorem Chat.lookup_connections :
    Chat.connections.lookup "main" = some (Sample.server []) := rfl

/-- In two frames of its own, or with empty frames between, a login and a line are dispatched
alike. -/
theorem dispatch_same_chat :
    ∃ left dispatched left' dispatched',
      messagesFrames Chat.registry Chat.connections [[Chat.login], [Chat.talk]] =
        .ok (left, dispatched) ∧
      messagesFrames Chat.registry Chat.connections [[], [Chat.login], [], [Chat.talk]] =
        .ok (left', dispatched') ∧
      dispatchedFor "main" 7 dispatched = dispatchedFor "main" 7 dispatched' := by
  have hwell : ∀ arrival ∈ [[Chat.login], [Chat.talk]].flatten,
      (Chat.registry.decode arrival.2.1).isSome := by decide
  obtain ⟨left, dispatched, left', dispatched', hframes, hframes', hiff⟩ :=
    dispatch_same_iff Chat.idle [[Chat.login], [Chat.talk]] [[], [Chat.login], [], [Chat.talk]] rfl
      hwell
  exact ⟨left, dispatched, left', dispatched', hframes, hframes',
    (hiff "main" _ Chat.lookup_connections 7).mpr (by decide)⟩

/-- A line is dispatched in a later frame than the login of its client, and dropped in the same
one. -/
theorem dispatch_depends :
    ¬∀ batches batches' : List (List Arrival), batches.flatten = batches'.flatten →
      (∀ arrival ∈ batches.flatten, (Chat.registry.decode arrival.2.1).isSome) →
        ∀ left dispatched left' dispatched',
          messagesFrames Chat.registry Chat.connections batches = .ok (left, dispatched) →
          messagesFrames Chat.registry Chat.connections batches' = .ok (left', dispatched') →
          ∀ sender, dispatchedFor "main" sender dispatched =
            dispatchedFor "main" sender dispatched' := by
  intro h
  have htogether : ∃ left dispatched, messagesFrames Chat.registry Chat.connections
      [[Chat.login, Chat.talk]] = .ok (left, dispatched) ∧
        (dispatchedFor "main" 7 dispatched).length = 1 := ⟨_, _, rfl, rfl⟩
  have hapart : ∃ left dispatched, messagesFrames Chat.registry Chat.connections
      [[Chat.login], [Chat.talk]] = .ok (left, dispatched) ∧
        (dispatchedFor "main" 7 dispatched).length = 2 := ⟨_, _, rfl, rfl⟩
  obtain ⟨left, dispatched, hframes, hone⟩ := htogether
  obtain ⟨left', dispatched', hframes', htwo⟩ := hapart
  have hsame := h [[Chat.login, Chat.talk]] [[Chat.login], [Chat.talk]] rfl (by decide) _ _ _ _
    hframes hframes' 7
  rw [hsame, htwo] at hone
  cases hone

end Inator
