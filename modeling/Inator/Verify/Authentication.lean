import Inator.Plugins.ServerApp
import Inator.Verify.Messaging

/-! # The authentication gate

Over every run of a server, a client is in `clients_connected`, or among the authenticated
clients of a port, only after its handler has accepted a message of it that was dispatched
before. `Gated` says so of a connection, relative to the clients accepted so far. -/

namespace Inator
open ServerApp

variable {τ : Type} [DecidableEq τ] [UserMessages τ] [Ciborium τ]

/-- A step of a server, with the states on both sides. -/
abbrev ServerTransition (τ : Type) [DecidableEq τ] [UserMessages τ] [Ciborium τ] :=
  Machine.Transition (ServerApp τ) (ServerInput τ) (ServerOutput τ)

/-- A message of the client was dispatched, and a later step had its handler accept it. -/
def AuthenticatedIn (ts : List (ServerTransition τ)) (uuid : Uuid) : Prop :=
  ∃ before t after, ts = before ++ t :: after ∧
    ∃ type ev, (∃ t' ∈ before, .fromClient type ev ∈ t'.output.dispatched) ∧
      ⟨type, ev, true⟩ ∈ t.output.calls ∧ ev.sender = some uuid

/-- The stream was entered under the UUID. -/
def EnteredIn (ts : List (ServerTransition τ)) (uuid : Uuid) (stream : Stream) : Prop :=
  ∃ t ∈ ts, (uuid, stream) ∈ t.output.admitted

theorem AuthenticatedIn.append {ts us : List (ServerTransition τ)} {uuid : Uuid}
    (h : AuthenticatedIn ts uuid) : AuthenticatedIn (ts ++ us) uuid := by
  obtain ⟨before, t, after, rfl, found⟩ := h
  exact ⟨before, t, after ++ us, by simp, found⟩

theorem EnteredIn.append {ts us : List (ServerTransition τ)} {uuid : Uuid} {stream : Stream}
    (h : EnteredIn ts uuid stream) : EnteredIn (ts ++ us) uuid stream := by
  obtain ⟨t, ht, found⟩ := h
  exact ⟨t, List.mem_append_left _ ht, found⟩

theorem enteredIn_snoc {ts : List (ServerTransition τ)} {t : ServerTransition τ} {uuid : Uuid}
    {stream : Stream} :
    EnteredIn (ts ++ [t]) uuid stream ↔
      EnteredIn ts uuid stream ∨ (uuid, stream) ∈ t.output.admitted := by
  simp only [EnteredIn, List.mem_append, List.mem_singleton, or_and_right, exists_or,
    exists_eq_left]

/-! ## One connection -/

section Gated
variable {accepted : Uuid → Prop} {entered : Uuid → Stream → Prop}
  {connection before after : ServerConnection}

/-- Every client behind the gate was accepted, and every stream belongs to its client. -/
structure Gated (accepted : Uuid → Prop) (entered : Uuid → Stream → Prop)
    (connection : ServerConnection) : Prop where
  connected : ∀ uuid ∈ connection.clientsConnected, accepted uuid
  listening : ∀ port uuid infos, connection.mainPort = some port →
    port.listeningClients.lookup uuid = some infos →
      accepted uuid ∧ entered uuid infos.readWriteType
  waiting : ∀ port uuid infos, connection.mainPort = some port →
    port.notAuthenticatedListening.lookup uuid = some infos → entered uuid infos.readWriteType
  written : ∀ stream framing buf, .write stream framing buf ∈ connection.spawned →
    ∃ uuid, accepted uuid ∧ entered uuid stream

namespace Gated

theorem mono {accepted' : Uuid → Prop} {entered' : Uuid → Stream → Prop}
    (h : Gated accepted entered connection) (haccepted : ∀ uuid, accepted uuid → accepted' uuid)
    (hentered : ∀ uuid stream, entered uuid stream → entered' uuid stream) :
    Gated accepted' entered' connection where
  connected uuid huuid := haccepted uuid (h.connected uuid huuid)
  listening port uuid infos hport hinfos :=
    (h.listening port uuid infos hport hinfos).imp (haccepted _) (hentered _ _)
  waiting port uuid infos hport hinfos := hentered _ _ (h.waiting port uuid infos hport hinfos)
  written stream framing buf hwrite := by
    obtain ⟨uuid, ha, he⟩ := h.written stream framing buf hwrite
    exact ⟨uuid, haccepted uuid ha, hentered uuid stream he⟩

theorem created {name : String} {settings : PortSideSettings}
    (hnew : ServerConnection.new name settings = some connection) :
    Gated accepted entered connection := by
  cases settings with
  | client settings => cases hnew
  | server settings =>
    cases hnew
    refine ⟨nofun, ?_, ?_, nofun⟩
    · rintro port uuid infos hport hinfos
      cases hport
      cases hinfos
    · rintro port uuid infos hport hinfos
      cases hport
      cases hinfos

/-- Running an operation that is no call of `authenticate_client` keeps the gate. -/
theorem ran {op : PortOp} (h : Gated accepted entered before) (hran : before.Ran op after)
    (hadmits : ∀ newUuid port stream rest, op = .checkClientsConnected newUuid →
      before.mainPort = some port → port.clientConnected = stream :: rest →
        entered newUuid stream) :
    Gated accepted entered after := by
  obtain ⟨runtime, hmain, hspawned⟩ := hran.mainPort
  have hafter : ∀ {port'}, after.mainPort = some port' → ∃ port, before.mainPort = some port ∧
      op.Effect port port' := by
    intro port' hport'
    rw [hmain] at hport'
    obtain ⟨port, hport, rfl⟩ := Option.map_eq_some_iff.mp hport'
    exact ⟨port, hport, op.run_effect port runtime⟩
  refine ⟨?_, ?_, ?_, ?_⟩
  · rw [hran.clientsConnected]
    exact h.connected
  · intro port' uuid infos hport' hinfos
    obtain ⟨port, hport, heffect⟩ := hafter hport'
    apply h.listening port uuid infos hport
    cases heffect with
    | quiet _ _ _ _ listeningClients => rwa [← listeningClients]
    | disconnected => exact (AssocMap.lookup_of_erase hinfos).2
    | marked | disconnectedWaiting | admitted => exact hinfos
  · intro port' uuid infos hport' hinfos
    obtain ⟨port, hport, heffect⟩ := hafter hport'
    cases heffect with
    | quiet _ _ _ _ _ notAuthenticatedListening =>
      rw [notAuthenticatedListening] at hinfos
      exact h.waiting port uuid infos hport hinfos
    | marked =>
      rw [AssocMap.lookup_mapVals] at hinfos
      obtain ⟨infos₀, hinfos₀, rfl⟩ := Option.map_eq_some_iff.mp hinfos
      exact h.waiting port uuid infos₀ hport hinfos₀
    | disconnected => exact h.waiting port uuid infos hport hinfos
    | disconnectedWaiting =>
      exact h.waiting port uuid infos hport (AssocMap.lookup_of_erase hinfos).2
    | admitted popped =>
      rcases AssocMap.lookup_of_insert hinfos with ⟨rfl, rfl⟩ | hinfos
      · exact hadmits _ port _ _ rfl hport popped
      · exact h.waiting port uuid infos hport hinfos
  · intro stream framing buf hwrite
    rcases hspawned _ hwrite with hwrite | ⟨port, -, hwrite⟩
    · exact h.written stream framing buf hwrite
    · cases PortOp.run_spawns hwrite

/-- An operation that leaves both maps as they are, and writes only to authenticated clients. -/
theorem onMainPort {op : ServerPort → Option Runtime → ServerPort × List Task}
    (h : Gated accepted entered connection)
    (hlistening : ∀ port runtime, (op port runtime).1.listeningClients = port.listeningClients)
    (hwaiting : ∀ port runtime,
      (op port runtime).1.notAuthenticatedListening = port.notAuthenticatedListening)
    (hwrites : ∀ port runtime stream framing buf, .write stream framing buf ∈ (op port runtime).2 →
      ∃ uuid infos, port.listeningClients.lookup uuid = some infos ∧
        infos.readWriteType = stream) :
    Gated accepted entered (connection.onMainPort op) := by
  unfold ServerConnection.onMainPort
  split
  · exact h
  · rename_i port hport
    refine ⟨h.connected, ?_, ?_, ?_⟩
    · intro port' uuid infos hport' hinfos
      cases hport'
      rw [hlistening] at hinfos
      exact h.listening port uuid infos hport hinfos
    · intro port' uuid infos hport' hinfos
      cases hport'
      rw [hwaiting] at hinfos
      exact h.waiting port uuid infos hport hinfos
    · intro stream framing buf hwrite
      rcases List.mem_append.mp hwrite with hwrite | hwrite
      · exact h.written stream framing buf hwrite
      · obtain ⟨uuid, infos, hinfos, rfl⟩ := hwrites _ _ _ _ _ hwrite
        exact ⟨uuid, h.listening port uuid infos hport hinfos⟩

theorem received (h : Gated accepted entered connection) (task : Task) (event : TaskEvent) :
    Gated accepted entered (connection.receive task event) := by
  have hreceived : Gated accepted entered
      (connection.onMainPort fun port _ => (port.receive event, [])) :=
    h.onMainPort (fun port _ => port.receive_listeningClients event)
      (fun port _ => port.receive_notAuthenticatedListening event)
      (fun _ _ _ _ _ hwrite => absurd hwrite List.not_mem_nil)
  obtain ⟨running, heq⟩ := connection.receive_eq task event
  rw [heq]
  exact ⟨hreceived.connected, hreceived.listening, hreceived.waiting, hreceived.written⟩

omit [DecidableEq τ] in
theorem sent (h : Gated accepted entered connection) {t : MessageType τ} (message : t.Message)
    (target : Uuid) :
    Gated accepted entered (connection.onMainPort fun port runtime =>
      (port, port.sendMessage message target runtime)) := by
  apply h.onMainPort (fun _ _ => rfl) (fun _ _ => rfl)
  intro port runtime stream framing buf hwrite
  obtain ⟨infos, buf', -, hinfos, -, heq⟩ := ServerPort.mem_sendMessage.mp hwrite
  cases heq
  exact ⟨target, infos, hinfos, rfl⟩

/-- `authenticate_client` of a port moves the client from the one map to the other. -/
theorem portAuthenticated (h : Gated accepted entered connection) {uuid : Uuid}
    (huuid : accepted uuid) :
    Gated accepted entered (connection.onMainPort (·.authenticateClient uuid ·)) := by
  unfold ServerConnection.onMainPort
  split
  · exact h
  · rename_i port hport
    dsimp only
    cases hinfos : port.notAuthenticatedListening.lookup uuid with
    | none =>
      rw [ServerPort.authenticateClient_none hinfos, List.filter_nil, List.append_nil,
        List.append_nil, ← hport]
      exact h
    | some infos =>
      rw [ServerPort.authenticateClient_some hinfos]
      have hentered := h.waiting port uuid infos hport hinfos
      refine ⟨h.connected, ?_, ?_, ?_⟩
      · intro port' uuid' infos' hport' hinfos'
        cases hport'
        rcases AssocMap.lookup_of_insert hinfos' with ⟨rfl, rfl⟩ | hinfos'
        · exact ⟨huuid, hentered⟩
        · exact h.listening port uuid' infos' hport hinfos'
      · intro port' uuid' infos' hport' hinfos'
        cases hport'
        exact h.waiting port uuid' infos' hport (AssocMap.lookup_of_erase hinfos').2
      · intro stream framing buf hwrite
        rcases List.mem_append.mp hwrite with hwrite | hread
        · exact h.written stream framing buf hwrite
        · split at hread
          · cases hread
          · cases List.mem_singleton.mp hread

theorem authenticated (h : Gated accepted entered connection) {uuid : Uuid}
    (huuid : accepted uuid) (portNumber : Nat) :
    Gated accepted entered (connection.authenticateClient uuid portNumber) := by
  unfold ServerConnection.authenticateClient
  split
  · exact h
  · have hentered : Gated accepted entered { connection with
        clientsConnected := connection.clientsConnected.insert uuid [0] } := by
      refine ⟨?_, h.listening, h.waiting, h.written⟩
      intro uuid' huuid'
      rcases (AList.mem_insert _).mp huuid' with rfl | huuid'
      · exact huuid
      · exact h.connected uuid' huuid'
    dsimp only
    split
    · exact hentered.portAuthenticated huuid
    · exact hentered

omit [DecidableEq τ] in
theorem acceptClient (h : Gated accepted entered connection) {uuid : Uuid} (huuid : accepted uuid)
    (portNumber : Nat) :
    Gated accepted entered (connection.acceptClient τ uuid portNumber) := by
  unfold ServerConnection.acceptClient
  dsimp only
  split
  · exact (h.authenticated huuid portNumber).sent (τ := τ) _ uuid
  · exact h.authenticated huuid portNumber

omit [DecidableEq τ] in
theorem settled {calls : List (AuthenticateCall τ)} (h : Gated accepted entered connection)
    (hcalls : ∀ call ∈ calls, call.answer = true → ∀ uuid, call.event.sender = some uuid →
      accepted uuid) (name : String) :
    Gated accepted entered (calls.foldl (ServerConnection.settleCall name) connection) := by
  apply List.foldlRecOn _ _ h
  intro connection hconnection call hcall
  unfold ServerConnection.settleCall
  split
  · rename_i hanswer
    split
    · exact hconnection
    · rename_i uuid hsender
      exact hconnection.acceptClient (hcalls call hcall hanswer.1 uuid hsender) _
  · exact hconnection

end Gated

end Gated

/-! ## The steps of a server -/

section Steps
variable {ts : List (ServerTransition τ)} {t : ServerTransition τ}

/-- What holds after the transitions `ts`: the messages no handler has read were dispatched,
and every connection is behind the gate. -/
structure GateInvariant (ts : List (ServerTransition τ)) (app : ServerApp τ) : Prop where
  unread : ∀ message ∈ app.unread, ∃ t ∈ ts, message ∈ t.output.dispatched
  gated : ∀ name connection, app.connections.lookup name = some connection →
    Gated (AuthenticatedIn ts) (EnteredIn ts) connection

/-- A message that a handler accepts was dispatched before. -/
theorem GateInvariant.authenticated (h : GateInvariant ts t.pre) (hof : t.Of (serverMachine τ))
    {call : AuthenticateCall τ} (hcall : call ∈ t.output.calls) (hanswer : call.answer = true)
    {uuid : Uuid} (hsender : call.event.sender = some uuid) :
    AuthenticatedIn (ts ++ [t]) uuid := by
  obtain ⟨type, ev, answer⟩ := call
  cases hanswer
  exact ⟨ts, t, [], rfl, type, ev, h.unread _ (step_calls hof hcall), hcall, hsender⟩

theorem gateInvariant_step (h : GateInvariant ts t.pre) (hof : t.Of (serverMachine τ)) :
    GateInvariant (ts ++ [t]) t.post := by
  constructor
  · intro message hmessage
    rcases step_unread hof hmessage with hold | hnew
    · obtain ⟨t', ht', hdispatched⟩ := h.unread message hold
      exact ⟨t', List.mem_append_left _ ht', hdispatched⟩
    · exact ⟨t, List.mem_append_right _ List.mem_cons_self, hnew⟩
  · intro name after hlookup
    have gated : ∀ {before}, t.pre.connections.lookup name = some before →
        Gated (AuthenticatedIn (ts ++ [t])) (EnteredIn (ts ++ [t])) before := by
      intro before hbefore
      exact (h.gated name before hbefore).mono (fun _ ha => ha.append) fun _ _ he => he.append
    cases step_change hof hlookup with
    | created new => exact Gated.created new
    | kept lookup => exact gated lookup
    | ran lookup ran asked admits =>
      apply (gated lookup).ran ran
      rintro newUuid port stream rest rfl hport hqueue
      refine enteredIn_snoc.mpr (.inr ?_)
      rw [(admits newUuid rfl).2 port stream rest hport hqueue]
      exact List.mem_cons_self
    | received lookup => exact (gated lookup).received _ _
    | sent lookup => exact (gated lookup).sent _ _
    | settled lookup =>
      exact (gated lookup).settled
        (fun call hcall hanswer uuid hsender => h.authenticated hof hcall hanswer hsender) name

/-- Every stream waits at one place at most, and is entered once. -/
structure Distinct (ts : List (ServerTransition τ)) (app : ServerApp τ) : Prop where
  entered_lt : ∀ {uuid stream}, EnteredIn ts uuid stream → stream.id < app.nextStream
  waiting_lt : ∀ {name stream}, stream ∈ app.queue name → stream.id < app.nextStream
  nodup : ∀ name, (app.queue name).Nodup
  apart : ∀ {name name' stream}, stream ∈ app.queue name → stream ∈ app.queue name' → name = name'
  entered : ∀ {uuid stream name}, EnteredIn ts uuid stream → stream ∉ app.queue name
  unique : ∀ {uuid uuid' stream}, EnteredIn ts uuid stream → EnteredIn ts uuid' stream →
    uuid = uuid'

/-- A stream that waits after a step waited before it, or is a new one. -/
theorem mem_queue (hof : t.Of (serverMachine τ)) {name : String} {stream : Stream}
    (h : stream ∈ t.post.queue name) :
    stream ∈ t.pre.queue name ∨
      ∃ task, t.input = .task name task (.clientConnected stream) ∧
        stream.id = t.pre.nextStream := by
  rcases step_queue hof name with hnil | hsame | ⟨newUuid, first, -, hpop, -⟩ |
      ⟨task, new, hinput, hid, hpush⟩
  · rw [hnil] at h
    cases h
  · exact .inl (hsame ▸ h)
  · left
    rw [hpop]
    exact List.mem_cons_of_mem _ h
  · rw [hpush] at h
    rcases List.mem_append.mp h with h | h
    · exact .inl h
    · cases List.mem_singleton.mp h
      exact .inr ⟨task, hinput, hid⟩

/-- A stream that is entered after a step was entered before it, or was given out by it. -/
theorem enteredIn_step (hof : t.Of (serverMachine τ)) {uuid : Uuid} {stream : Stream}
    (h : EnteredIn (ts ++ [t]) uuid stream) :
    EnteredIn ts uuid stream ∨ t.output.admitted = [(uuid, stream)] ∧
      ∃ name, t.input = .portOp name (.checkClientsConnected uuid) ∧
        t.pre.queue name = stream :: t.post.queue name := by
  refine (enteredIn_snoc.mp h).imp_right fun hadmitted => ?_
  obtain ⟨hout, -, -, found⟩ := step_admitted hof hadmitted
  exact ⟨hout, found⟩

namespace Distinct
variable {name name' : String} {uuid uuid' : Uuid} {stream : Stream}

theorem nodup_step (h : Distinct ts t.pre) (hof : t.Of (serverMachine τ)) (name : String) :
    (t.post.queue name).Nodup := by
  rcases step_queue hof name with hnil | hsame | ⟨newUuid, first, -, hpop, -⟩ |
      ⟨task, new, hinput, hid, hpush⟩
  · rw [hnil]
    exact List.nodup_nil
  · rw [hsame]
    exact h.nodup name
  · have hpre := h.nodup name
    rw [hpop] at hpre
    exact (List.nodup_cons.mp hpre).2
  · rw [hpush]
    refine List.nodup_append.mpr ⟨h.nodup name, List.nodup_singleton new, ?_⟩
    intro stream hstream other hother heq
    cases List.mem_singleton.mp hother
    cases heq
    exact absurd hid (h.waiting_lt hstream).ne

theorem apart_step (h : Distinct ts t.pre) (hof : t.Of (serverMachine τ))
    (hmem : stream ∈ t.post.queue name) (hmem' : stream ∈ t.post.queue name') : name = name' := by
  rcases mem_queue hof hmem with hmem | ⟨task, hinput, hid⟩
  · rcases mem_queue hof hmem' with hmem' | ⟨-, -, hid⟩
    · exact h.apart hmem hmem'
    · exact absurd hid (h.waiting_lt hmem).ne
  · rcases mem_queue hof hmem' with hmem' | ⟨task', hinput', -⟩
    · exact absurd hid (h.waiting_lt hmem').ne
    · cases hinput.symm.trans hinput'
      rfl

/-- A stream that is given out has waited, and waits no more. -/
theorem entered_step (h : Distinct ts t.pre) (hof : t.Of (serverMachine τ))
    (he : EnteredIn (ts ++ [t]) uuid stream) : stream ∉ t.post.queue name := by
  intro hmem
  rcases mem_queue hof hmem with hmem' | ⟨task, hinput, hid⟩
  · rcases enteredIn_step hof he with he | ⟨-, name', hinput, hqueue⟩
    · exact h.entered he hmem'
    · have hwaits : stream ∈ t.pre.queue name' := hqueue ▸ List.mem_cons_self
      cases h.apart hwaits hmem'
      have hpre := h.nodup name
      rw [hqueue] at hpre
      exact (List.nodup_cons.mp hpre).1 hmem
  · rcases enteredIn_step hof he with he | ⟨-, name', hinput', -⟩
    · exact absurd hid (h.entered_lt he).ne
    · cases hinput.symm.trans hinput'

theorem unique_step (h : Distinct ts t.pre) (hof : t.Of (serverMachine τ))
    (he : EnteredIn (ts ++ [t]) uuid stream) (he' : EnteredIn (ts ++ [t]) uuid' stream) :
    uuid = uuid' := by
  have hwaits : ∀ {name}, t.pre.queue name = stream :: t.post.queue name →
      stream ∈ t.pre.queue name := by
    intro name hqueue
    rw [hqueue]
    exact List.mem_cons_self
  rcases enteredIn_step hof he with he | ⟨hout, name, -, hqueue⟩
  · rcases enteredIn_step hof he' with he' | ⟨-, name', -, hqueue'⟩
    · exact h.unique he he'
    · exact absurd (hwaits hqueue') (h.entered he)
  · rcases enteredIn_step hof he' with he' | ⟨hout', -⟩
    · exact absurd (hwaits hqueue) (h.entered he')
    · cases hout.symm.trans hout'
      rfl

end Distinct

theorem distinct_step (h : Distinct ts t.pre) (hof : t.Of (serverMachine τ)) :
    Distinct (ts ++ [t]) t.post := by
  have hnext := step_nextStream hof
  refine ⟨?_, ?_, h.nodup_step hof, h.apart_step hof, h.entered_step hof, h.unique_step hof⟩
  · intro uuid stream he
    rcases enteredIn_step hof he with he | ⟨-, name, -, hqueue⟩
    · exact (h.entered_lt he).trans_le hnext.1
    · have hwaits : stream ∈ t.pre.queue name := hqueue ▸ List.mem_cons_self
      exact (h.waiting_lt hwaits).trans_le hnext.1
  · intro name stream hmem
    rcases mem_queue hof hmem with hmem | ⟨task, hinput, hid⟩
    · exact (h.waiting_lt hmem).trans_le hnext.1
    · rw [hnext.2 name task stream hinput, hid]
      exact Nat.lt_succ_self _

end Steps

/-! ## The runs of a server -/

section Runs
variable {ts : List (ServerTransition τ)} {app : ServerApp τ}

theorem gateInvariant_run (h : (serverMachine τ).Run .new ts app) : GateInvariant ts app := by
  refine h.history GateInvariant ⟨?_, ?_⟩ fun _ _ _ hI hof => gateInvariant_step hI hof
  · intro message hmessage
    cases hmessage
  · intro name connection hlookup
    cases hlookup

theorem distinct_run (h : (serverMachine τ).Run .new ts app) : Distinct ts app := by
  refine h.history Distinct ?_ fun _ _ _ hI hof => distinct_step hI hof
  have hnone : ∀ {uuid stream}, ¬EnteredIn ([] : List (ServerTransition τ)) uuid stream := by
    rintro uuid stream ⟨t, ht, -⟩
    cases ht
  exact ⟨fun he => absurd he hnone, nofun, fun _ => List.nodup_nil, nofun,
    fun he => absurd he hnone, fun he => absurd he hnone⟩

/-- **The authentication gate.** In every run of a server, a message that does not authenticate
is dispatched only if an earlier message of its sender was dispatched that the handler of its
type accepted; and a task that writes to a stream is spawned only if that holds of the client
the stream was entered for, which is one client. -/
theorem authentication_gate (ts : List (ServerTransition τ)) (app : ServerApp τ)
    (h : (serverMachine τ).Run .new ts app) :
    (∀ before t after, ts = before ++ t :: after →
      ∀ type ev, .fromClient type ev ∈ t.output.dispatched →
        type.asAuthentication ev.message = false →
          ∃ uuid, ev.sender = some uuid ∧ AuthenticatedIn before uuid) ∧
    (∀ before t after, ts = before ++ t :: after →
      ∀ name connection stream framing buf,
        t.post.connections.lookup name = some connection →
        .write stream framing buf ∈ connection.spawned →
          ∃ uuid, EnteredIn (before ++ [t]) uuid stream ∧ AuthenticatedIn (before ++ [t]) uuid ∧
            ∀ uuid', EnteredIn (before ++ [t]) uuid' stream → uuid' = uuid) := by
  constructor
  · intro before t after hts type ev hdispatched hauth
    obtain ⟨hrun, hof⟩ := h.of_split hts
    obtain ⟨name, connection, hlookup, type', payload, sender, hadmitted, heq⟩ :=
      step_dispatched hof hdispatched
    cases heq
    rcases hadmitted with hconnected | hauth'
    · exact ⟨sender, rfl, ((gateInvariant_run hrun).gated name connection hlookup).connected
        sender hconnected⟩
    · rw [hauth] at hauth'
      cases hauth'
  · intro before t after hts name connection stream framing buf hlookup hwrite
    obtain ⟨hrun, hof⟩ := h.of_split hts
    have hpost : (serverMachine τ).Run .new (before ++ [t]) t.post := .snoc hrun hof
    obtain ⟨uuid, haccepted, hentered⟩ :=
      ((gateInvariant_run hpost).gated name connection hlookup).written stream framing buf hwrite
    exact ⟨uuid, hentered, haccepted, fun uuid' he => (distinct_run hpost).unique he hentered⟩

end Runs

namespace Sample

/-- A client connects and sends a ticket, which the handler of its type accepts. -/
def ticketInputs : List (ServerInput Sample) :=
  [.registerMessage .authenticationMessage, .registerMessage .authenticatedUuid,
    .registerMessage (.user .ticket), .startConnection "main" (.server (.tcp .default)),
    .first .startConnections, .task "main" .bind (.portConnected 0),
    .first .receiveMainPortListener, .first .startAcceptingConnectionsMainPort,
    .task "main" (.accept 0 0 false false) (.clientConnected ⟨0, .stream⟩),
    .portOp "main" (.checkClientsConnected 7), .first .startListeningNotAuthenticated,
    .task "main" (.read ⟨0, .stream⟩ (some (.u32, .littleEndian)) 7 false)
      (.messageReceived (encodeMessageInfos ⟨3, [5]⟩) 7), .readMessagesServer,
    .authenticationMessageServer (.user .ticket) ⟨fun _ _ _ => (true, "Success")⟩]

def ticketRun : List (ServerTransition Sample) × ServerApp Sample :=
  ((serverMachine Sample).exec .new ticketInputs).getD ([], .new)

theorem run_ticketRun : (serverMachine Sample).Run .new ticketRun.1 ticketRun.2 := by
  have hexec : (serverMachine Sample).exec .new ticketInputs = some ticketRun := rfl
  exact .of_exec hexec

end Sample

/-- At the end of the run the server writes to the stream it accepted. -/
theorem authentication_gate_ticket :
    ∃ uuid, EnteredIn Sample.ticketRun.1 uuid ⟨0, .stream⟩ ∧
      AuthenticatedIn Sample.ticketRun.1 uuid := by
  obtain ⟨uuid, hentered, haccepted, -⟩ := (authentication_gate _ _ Sample.run_ticketRun).2
    (Sample.ticketRun.1.take 13) _ [] rfl "main" _ ⟨0, .stream⟩ (some (.u32, .littleEndian))
    (0x50 :: Endian.bigBytes 16 7) rfl (by decide)
  exact ⟨uuid, hentered, haccepted⟩

end Inator
