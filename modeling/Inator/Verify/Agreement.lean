import Inator.Verify.Authentication

/-! # The two sets of authenticated clients

A connection keeps the clients it has authenticated, and its main port keeps them again, with
their streams. `agreement_iff` says in which runs the two sets stay the same. -/

namespace Inator
open ServerApp

variable {τ : Type} [DecidableEq τ] [UserMessages τ] [Ciborium τ]

/-! ## One connection -/

namespace ServerConnection

/-- The clients of the connection are the authenticated clients of its main port. -/
def Agrees (connection : ServerConnection) : Prop :=
  ∃ port, connection.mainPort = some port ∧
    ∀ uuid, uuid ∈ connection.clientsConnected ↔ uuid ∈ port.listeningClients

/-- The main port has the client in one of its maps. -/
def Holds (connection : ServerConnection) (uuid : Uuid) : Prop :=
  ∃ port, connection.mainPort = some port ∧ port.Holds uuid

variable {connection before after : ServerConnection} {uuid k : Uuid} {portNumber : Nat}

/-- Both keys and ports after an operation that leaves the authenticated clients alone. -/
theorem Agrees.of_keys (h : before.Agrees)
    (hclients : after.clientsConnected = before.clientsConnected)
    (hport : ∀ port, before.mainPort = some port → ∃ port', after.mainPort = some port' ∧
      ∀ uuid, uuid ∈ port'.listeningClients ↔ uuid ∈ port.listeningClients) : after.Agrees := by
  obtain ⟨port, hmain, hagree⟩ := h
  obtain ⟨port', hmain', hkeys⟩ := hport port hmain
  refine ⟨port', hmain', fun uuid => ?_⟩
  rw [hclients, hagree, hkeys]

theorem Agrees.onMainPort (h : connection.Agrees)
    {op : ServerPort → Option Runtime → ServerPort × List Task}
    (hop : ∀ port runtime, (op port runtime).1.listeningClients = port.listeningClients) :
    (connection.onMainPort op).Agrees := by
  refine h.of_keys ?_ ?_
  · unfold ServerConnection.onMainPort
    split <;> rfl
  · intro port hport
    refine ⟨(op port connection.runtime).1, by rw [ServerConnection.onMainPort, hport], ?_⟩
    intro uuid
    rw [hop]

/-- What `authenticate_client` of a connection does: nothing to a client it has, and else it
enters the client before it looks whether the port holds it. -/
theorem authenticateClient_cases (connection : ServerConnection) (uuid : Uuid)
    (portNumber : Nat) :
    (uuid ∈ connection.clientsConnected ∧
        connection.authenticateClient uuid portNumber = connection) ∨
      (connection.authenticateClient uuid portNumber).clientsConnected =
          connection.clientsConnected.insert uuid [0] ∧
        (connection.authenticateClient uuid portNumber).mainPort =
          if portNumber = 0 then
            connection.mainPort.map fun port =>
              (port.authenticateClient uuid connection.runtime).1
          else connection.mainPort := by
  unfold authenticateClient
  by_cases huuid : uuid ∈ connection.clientsConnected
  · exact .inl ⟨huuid, if_pos huuid⟩
  · right
    rw [if_neg huuid]
    dsimp only
    split
    · unfold ServerConnection.onMainPort
      cases hport : connection.mainPort with
      | none | some port => exact ⟨rfl, rfl⟩
    · exact ⟨rfl, rfl⟩

theorem mem_clientsConnected_authenticateClient :
    k ∈ (connection.authenticateClient uuid portNumber).clientsConnected ↔
      k = uuid ∨ k ∈ connection.clientsConnected := by
  rcases connection.authenticateClient_cases uuid portNumber with ⟨huuid, hsame⟩ | ⟨hclients, -⟩
  · rw [hsame]
    refine ⟨.inr, ?_⟩
    rintro (rfl | hk)
    · exact huuid
    · exact hk
  · rw [hclients, AList.mem_insert]

theorem holds_authenticateClient :
    (connection.authenticateClient uuid portNumber).Holds k ↔ connection.Holds k := by
  rcases connection.authenticateClient_cases uuid portNumber with ⟨-, hsame⟩ | ⟨-, hport⟩
  · rw [hsame]
  · unfold Holds
    rw [hport]
    split
    · cases connection.mainPort with
      | none => simp only [Option.map_none]
      | some port =>
        simp only [Option.map_some, Option.some.injEq, exists_eq_left',
          ServerPort.holds_authenticateClient]
    · exact Iff.rfl

/-- Authenticating a client that the port holds keeps the two sets together. -/
theorem Agrees.authenticateClient (h : connection.Agrees) (hholds : connection.Holds uuid) :
    (connection.authenticateClient uuid 0).Agrees := by
  rcases connection.authenticateClient_cases uuid 0 with ⟨-, hsame⟩ | ⟨hclients, hport⟩
  · rwa [hsame]
  · obtain ⟨port, hmain, hagree⟩ := h
    obtain ⟨port', hmain', hheld⟩ := hholds
    cases hmain.symm.trans hmain'
    rw [if_pos rfl, hmain] at hport
    refine ⟨_, hport, fun k => ?_⟩
    rw [hclients, AList.mem_insert, ServerPort.mem_listeningClients_authenticateClient, hagree]
    constructor
    · rintro (rfl | hk)
      · exact hheld.imp_right fun hwaiting => ⟨rfl, hwaiting⟩
      · exact .inl hk
    · rintro (hk | ⟨rfl, -⟩)
      · exact .inr hk
      · exact .inl rfl

/-- The message `accept_client` sends changes neither set. -/
theorem acceptClient_eq (τ : Type) [UserMessages τ] [Ciborium τ] (connection : ServerConnection)
    (uuid : Uuid) (portNumber : Nat) :
    (connection.acceptClient τ uuid portNumber).clientsConnected =
        (connection.authenticateClient uuid portNumber).clientsConnected ∧
      (connection.acceptClient τ uuid portNumber).mainPort =
        (connection.authenticateClient uuid portNumber).mainPort := by
  unfold acceptClient
  dsimp only
  split
  · unfold ServerConnection.onMainPort
    split
    · exact ⟨rfl, rfl⟩
    · rename_i port hport
      exact ⟨rfl, hport.symm⟩
  · exact ⟨rfl, rfl⟩

section Calls
variable {name : String} {call : AuthenticateCall τ} {calls : List (AuthenticateCall τ)}

/-- The handler accepts a client of the connection of that name. -/
def Accepts (name : String) (call : AuthenticateCall τ) (uuid : Uuid) : Prop :=
  call.answer = true ∧ call.event.connectionName = name ∧ call.event.sender = some uuid

omit [DecidableEq τ] in
theorem settleCall_cases (name : String) (connection : ServerConnection)
    (call : AuthenticateCall τ) :
    connection.settleCall name call = connection ∧ (∀ uuid, ¬Accepts name call uuid) ∨
      ∃ uuid, Accepts name call uuid ∧
        connection.settleCall name call = connection.acceptClient τ uuid call.event.portNumber := by
  unfold settleCall
  split
  · rename_i hanswer
    cases hsender : call.event.sender with
    | none =>
      refine .inl ⟨rfl, ?_⟩
      rintro uuid ⟨-, -, hsome⟩
      cases hsender.symm.trans hsome
    | some uuid => exact .inr ⟨uuid, ⟨hanswer.1, hanswer.2, hsender⟩, rfl⟩
  · rename_i hanswer
    exact .inl ⟨rfl, fun uuid haccepts => hanswer ⟨haccepts.1, haccepts.2.1⟩⟩

omit [DecidableEq τ] in
theorem holds_settleCall :
    (connection.settleCall name call).Holds k ↔ connection.Holds k := by
  rcases settleCall_cases name connection call with ⟨hsame, -⟩ | ⟨uuid, -, haccept⟩
  · rw [hsame]
  · rw [haccept, Holds, (acceptClient_eq τ connection uuid call.event.portNumber).2]
    exact holds_authenticateClient

omit [DecidableEq τ] in
theorem holds_settled :
    (calls.foldl (settleCall name) connection).Holds k ↔ connection.Holds k := by
  induction calls generalizing connection with
  | nil => exact Iff.rfl
  | cons call calls ih => exact ih.trans holds_settleCall

omit [DecidableEq τ] in
theorem mem_clientsConnected_settleCall :
    k ∈ (connection.settleCall name call).clientsConnected ↔
      Accepts name call k ∨ k ∈ connection.clientsConnected := by
  rcases settleCall_cases name connection call with ⟨hsame, hnone⟩ | ⟨uuid, haccepts, haccept⟩
  · simp only [hsame, hnone k, false_or]
  · rw [haccept, (acceptClient_eq τ connection uuid call.event.portNumber).1,
      mem_clientsConnected_authenticateClient]
    refine or_congr_left ⟨?_, ?_⟩
    · rintro rfl
      exact haccepts
    · intro haccepts'
      exact Option.some.inj (haccepts'.2.2.symm.trans haccepts.2.2)

omit [DecidableEq τ] in
/-- Calls enter the clients they accept, and no others. -/
theorem mem_clientsConnected_settled :
    k ∈ (calls.foldl (settleCall name) connection).clientsConnected ↔
      (∃ call ∈ calls, Accepts name call k) ∨ k ∈ connection.clientsConnected := by
  induction calls generalizing connection with
  | nil => simp only [List.foldl_nil, List.not_mem_nil, false_and, exists_false, false_or]
  | cons call calls ih =>
    rw [List.foldl_cons, ih, mem_clientsConnected_settleCall, ← or_assoc]
    apply or_congr_left
    simp only [List.mem_cons, exists_eq_or_imp]
    exact or_comm

omit [DecidableEq τ] in
theorem Agrees.settleCall (h : connection.Agrees)
    (hcall : ∀ uuid, Accepts name call uuid →
      call.event.portNumber = 0 ∧ connection.Holds uuid) :
    (connection.settleCall name call).Agrees := by
  rcases settleCall_cases name connection call with ⟨hsame, -⟩ | ⟨uuid, haccepts, haccept⟩
  · rwa [hsame]
  · obtain ⟨hzero, hholds⟩ := hcall uuid haccepts
    obtain ⟨hclients, hmain⟩ := acceptClient_eq τ connection uuid call.event.portNumber
    refine (h.authenticateClient hholds).of_keys ?_ ?_
    · rw [haccept, hclients, hzero]
    · intro port hport
      rw [haccept, hmain, hzero]
      exact ⟨port, hport, fun _ => Iff.rfl⟩

omit [DecidableEq τ] in
/-- **Calls keep the two sets together** exactly when the port holds every client they accept. -/
theorem Agrees.settled_iff (h : connection.Agrees)
    (hzero : ∀ call ∈ calls, call.event.portNumber = 0) :
    (calls.foldl (ServerConnection.settleCall name) connection).Agrees ↔
      ∀ call ∈ calls, ∀ uuid, Accepts name call uuid → connection.Holds uuid := by
  constructor
  · rintro ⟨port, hmain, hagree⟩ call hcall uuid haccepts
    refine holds_settled.mp ⟨port, hmain, .inl ((hagree uuid).mp ?_)⟩
    exact mem_clientsConnected_settled.mpr (.inl ⟨call, hcall, haccepts⟩)
  · intro hholds
    refine (List.foldlRecOn (motive := fun settled : ServerConnection =>
      settled.Agrees ∧ ∀ uuid, connection.Holds uuid → settled.Holds uuid) _ _ ⟨h, fun _ hk => hk⟩
        ?_).1
    rintro settled ⟨hagrees, hkept⟩ call hcall
    refine ⟨hagrees.settleCall ?_, fun uuid hk => holds_settleCall.mpr (hkept uuid hk)⟩
    intro uuid haccepts
    exact ⟨hzero call hcall, hkept uuid (hholds call hcall uuid haccepts)⟩

end Calls

theorem new_agrees {settings : PortSideSettings}
    (hnew : ServerConnection.new name settings = some after) : after.Agrees := by
  cases settings with
  | client settings => cases hnew
  | server settings =>
    cases hnew
    refine ⟨_, rfl, fun uuid => ?_⟩
    exact iff_of_false (AList.notMem_empty uuid) (AList.notMem_empty uuid)

/-- Of the operations, only `check_clients_diconnected` can part the two sets. -/
theorem Agrees.ran {op : PortOp} (h : before.Agrees) (hran : before.Ran op after)
    (hpopped : ∀ port uuid rest, op = .checkClientsDiconnected → before.mainPort = some port →
      port.clientDisconnected = (uuid, true) :: rest → uuid ∉ port.listeningClients) :
    after.Agrees := by
  obtain ⟨runtime, hmain, -⟩ := hran.mainPort
  refine h.of_keys hran.clientsConnected fun port hport => ?_
  rw [hport, Option.map_some] at hmain
  refine ⟨_, hmain, fun uuid => ?_⟩
  have heffect := op.run_effect port runtime
  generalize (op.run port runtime).1 = port' at heffect
  cases heffect with
  | quiet _ _ _ _ listeningClients => rw [listeningClients]
  | marked | disconnectedWaiting | admitted => exact Iff.rfl
  | @disconnected gone rest popped =>
    have habsent := hpopped port gone rest rfl hport popped
    rw [AList.mem_erase]
    refine ⟨And.right, fun huuid => ⟨?_, huuid⟩⟩
    rintro rfl
    exact habsent huuid

/-- The clients of a connection forget nobody, so a notification of an authenticated client
parts the two sets. -/
theorem Agrees.not_listening {port : ServerPort} {rest : List (Uuid × Bool)}
    (h : before.Agrees)
    (hafter : (before.onMainPort fun port _ => (port.checkClientsDiconnected.1, [])).Agrees)
    (hport : before.mainPort = some port)
    (hpopped : port.clientDisconnected = (uuid, true) :: rest) :
    uuid ∉ port.listeningClients := by
  intro huuid
  obtain ⟨port₀, hmain, hagree⟩ := h
  cases hport.symm.trans hmain
  obtain ⟨port', hmain', hagree'⟩ := hafter
  simp only [ServerConnection.onMainPort, hport, ServerPort.checkClientsDiconnected, hpopped,
    if_true] at hmain' hagree'
  cases hmain'
  have hgone := (hagree' uuid).mp ((hagree uuid).mpr huuid)
  exact (AList.mem_erase.mp hgone).1 rfl

end ServerConnection

/-! ## The steps and the runs of a server -/

/-- The two sets are the same at every connection. -/
def ServerApp.Agree (app : ServerApp τ) : Prop :=
  ∀ name connection, app.connections.lookup name = some connection → connection.Agrees

/-- No notification that the step takes up is of an authenticated client, and every client a
handler accepts is still held by the port. -/
structure KeepsAgreement (t : ServerTransition τ) : Prop where
  disconnects : ∀ name connection port uuid rest, t.input.Asks name .checkClientsDiconnected →
    t.pre.connections.lookup name = some connection → connection.mainPort = some port →
      port.clientDisconnected = (uuid, true) :: rest → uuid ∉ port.listeningClients
  accepts : ∀ call ∈ t.output.calls, ∀ name connection uuid,
    t.pre.connections.lookup name = some connection →
      ServerConnection.Accepts name call uuid → connection.Holds uuid

section Steps
variable {t : ServerTransition τ}

/-- The messages no handler has read came by a main port. -/
def ServerApp.UnreadOnMainPort (app : ServerApp τ) : Prop :=
  ∀ type ev, .fromClient type ev ∈ app.unread → ev.portNumber = 0

theorem unreadOnMainPort_step (h : t.pre.UnreadOnMainPort) (hof : t.Of (serverMachine τ)) :
    t.post.UnreadOnMainPort := by
  intro type ev hmessage
  rcases step_unread hof hmessage with hold | hnew
  · exact h type ev hold
  · obtain ⟨name, connection, -, type', payload, sender, -, heq⟩ := step_dispatched hof hnew
    cases heq
    rfl

/-- **A step keeps the two sets together** exactly when it meets the condition. -/
theorem agree_step_iff (h : t.pre.Agree) (hunread : t.pre.UnreadOnMainPort)
    (hof : t.Of (serverMachine τ)) : t.post.Agree ↔ KeepsAgreement t := by
  have hzero : ∀ call ∈ t.output.calls, call.event.portNumber = 0 := by
    intro call hcall
    exact hunread call.type call.event (step_calls hof hcall)
  constructor
  · intro hpost
    constructor
    · intro name before port uuid rest hasks hlookup hport hpopped
      have hafter := hpost name _ (step_disconnects hof hasks hlookup)
      exact (h name before hlookup).not_listening hafter hport hpopped
    · intro call hcall name before uuid hlookup haccepts
      have hafter := step_settles hof hcall name
      rw [hlookup] at hafter
      exact ((h name before hlookup).settled_iff hzero).mp (hpost name _ hafter) call hcall uuid
        haccepts
  · intro hkeeps name after hlookup
    cases step_change hof hlookup with
    | created new => exact ServerConnection.new_agrees new
    | kept lookup => exact h name after lookup
    | @ran op before _ lookup ran asked =>
      apply (h name before lookup).ran ran
      rintro port uuid rest rfl hport hpopped
      exact hkeeps.disconnects name before port uuid rest asked lookup hport hpopped
    | @received before task event lookup =>
      obtain ⟨running, heq⟩ := before.receive_eq task event
      rw [heq]
      exact (h name before lookup).onMainPort fun port _ => port.receive_listeningClients event
    | @sent before _ _ _ lookup => exact (h name before lookup).onMainPort fun _ _ => rfl
    | @settled before lookup =>
      apply ((h name before lookup).settled_iff hzero).mpr
      intro call hcall uuid haccepts
      exact hkeeps.accepts call hcall name before uuid lookup haccepts

end Steps

theorem new_agree : (new : ServerApp τ).Agree := by
  intro name connection hlookup
  cases hlookup

theorem new_unreadOnMainPort : (new : ServerApp τ).UnreadOnMainPort := by
  intro type ev hmessage
  cases hmessage

/-- **When the two sets agree** throughout a run: exactly when no step takes up the notification
of an authenticated client, and no handler accepts a client that the port has let go. -/
theorem agreement_iff (ts : List (ServerTransition τ)) (app : ServerApp τ)
    (h : (serverMachine τ).Run .new ts app) :
    (∀ t ∈ ts, t.post.Agree) ↔ ∀ t ∈ ts, KeepsAgreement t := by
  refine h.forall_iff (fun _ app => app.Agree ∧ app.UnreadOnMainPort)
    ⟨new_agree, new_unreadOnMainPort⟩ ?_ ?_
  · rintro ts t - ⟨hagree, hunread⟩ hof hkeeps
    have hpost := (agree_step_iff hagree hunread hof).mpr hkeeps
    exact ⟨hpost, hpost, unreadOnMainPort_step hunread hof⟩
  · rintro ts t - ⟨hagree, hunread⟩ hof hpost
    exact (agree_step_iff hagree hunread hof).mp hpost

theorem agreement_ticket :
    (∀ t ∈ Sample.ticketRun.1, t.post.Agree) ↔ ∀ t ∈ Sample.ticketRun.1, KeepsAgreement t :=
  agreement_iff _ _ Sample.run_ticketRun

/-- The client of the ticket hangs up, and the notification of its reader is taken up. -/
def Sample.hangUpInputs : List (ServerInput Sample) :=
  ticketInputs ++ [
    .task "main" (.read ⟨0, .stream⟩ (some (.u32, .littleEndian)) 7 true)
      (.clientDisconnected 7 true),
    .first .checkClientDisconnectedFromPort]

/-- The connection keeps a client that its port has let go. -/
theorem hangUp_disagrees :
    ¬∀ ts app, (serverMachine Sample).Run .new ts app → app.Agree := by
  intro h
  obtain ⟨⟨ts, app⟩, hexec⟩ : ∃ r, (serverMachine Sample).exec .new Sample.hangUpInputs = some r :=
    ⟨_, rfl⟩
  have hagree := h ts app (.of_exec hexec) "main"
  cases hexec
  obtain ⟨port, hport, hkeys⟩ := hagree _ rfl
  cases hport
  have hlistening := (hkeys 7).mp (AssocMap.mem_of_lookup rfl)
  exact AList.lookup_eq_none.mp rfl hlistening

end Inator
