import Inator.Verify.Identity
import Inator.Verify.Listener

/-! # Which connections a drop removes

`check_main_port_dropped` collects names while it goes over the connections and removes them
afterwards, so it is right only while each connection goes by its own name. At either end every
operation keeps it so, and so a drop removes the connections whose port does not reconnect and
touches no other (`drops_exactly`). -/

namespace Inator

/-! ## One pass over the connections -/

/-- One end of the connections, with what its `check_main_port_dropped` does: the turn at each
connection, and the names that it pushes to `disconnect_vector`. -/
structure ConnectionSide (T Port : Type) [ConnectionTrait T] where
  connectionName : T → String
  mainPort : T → Option Port
  checkPortDropped : Port → Port × (Bool × Bool)
  /-- The connection with `connected = false` and that port. -/
  down : T → Port → T
  checkMainPortDropped : NetworkConnections T → NetworkConnections T
  /-- The settings are those of the other end. -/
  wrongSide : PortSideSettings → Prop
  turn : T → T
  toDisconnect : T → List String
  check_eq : ∀ connections, checkMainPortDropped connections =
    AssocMap.sweep turn toDisconnect connections
  turn_eq : ∀ connection port, mainPort connection = some port →
    turn connection =
      if (checkPortDropped port).2.1 then down connection (checkPortDropped port).1
      else connection
  toDisconnect_eq : ∀ connection port, mainPort connection = some port →
    toDisconnect connection =
      if (checkPortDropped port).2 = (true, false) then [connectionName connection] else []
  new_eq : ∀ name settings, wrongSide settings →
    (ConnectionTrait.new name settings : Option T) = none

namespace ConnectionSide
variable {T Port : Type} [ConnectionTrait T] (side : ConnectionSide T Port)

/-- The connection goes by its own name and has its main port. -/
def InPlace (name : String) (connection : T) : Prop :=
  side.connectionName connection = name ∧ (side.mainPort connection).isSome

/-- A drop and a start change what they should, and nothing else. -/
structure DropsExactly (connections : NetworkConnections T) : Prop where
  named : ∀ name connection, connections.lookup name = some connection →
    side.connectionName connection = name
  port : ∀ name connection, connections.lookup name = some connection →
    (side.mainPort connection).isSome
  removed : ∀ name connection port, connections.lookup name = some connection →
    side.mainPort connection = some port → (side.checkPortDropped port).2 = (true, false) →
      (side.checkMainPortDropped connections).lookup name = none
  reconnects : ∀ name connection port, connections.lookup name = some connection →
    side.mainPort connection = some port → (side.checkPortDropped port).2 = (true, true) →
      (side.checkMainPortDropped connections).lookup name =
        some (side.down connection (side.checkPortDropped port).1)
  unchanged : ∀ name connection port, connections.lookup name = some connection →
    side.mainPort connection = some port → (side.checkPortDropped port).2.1 = false →
      (side.checkMainPortDropped connections).lookup name = some connection
  absent : ∀ name, connections.lookup name = none →
    (side.checkMainPortDropped connections).lookup name = none
  starts : ∀ name settings, name ∈ connections ∨ side.wrongSide settings →
    NetworkConnections.startConnection connections name settings = connections

variable {side}

/-- **What a pass leaves** of the connections that are in place. -/
theorem lookup_check {connections : NetworkConnections T}
    (hplace : ∀ name connection, connections.lookup name = some connection →
      side.InPlace name connection) {connection : T} {port : Port}
    (hlookup : connections.lookup name = some connection)
    (hport : side.mainPort connection = some port) :
    (side.checkMainPortDropped connections).lookup name =
      if (side.checkPortDropped port).2 = (true, false) then none
      else some (side.turn connection) := by
  have hself : ∀ name connection, connections.lookup name = some connection →
      side.toDisconnect connection = [] ∨ side.toDisconnect connection = [name] := by
    intro name connection hlookup
    obtain ⟨hname, hsome⟩ := hplace name connection hlookup
    obtain ⟨port, hport⟩ := Option.isSome_iff_exists.mp hsome
    rw [side.toDisconnect_eq connection port hport, hname]
    split
    · exact .inr rfl
    · exact .inl rfl
  rw [side.check_eq, AssocMap.lookup_sweep hself, hlookup, Option.bind_some,
    side.toDisconnect_eq connection port hport]
  by_cases hdrops : (side.checkPortDropped port).2 = (true, false)
  · simp [hdrops]
  · simp [hdrops]

theorem dropsExactly {connections : NetworkConnections T}
    (hplace : ∀ name connection, connections.lookup name = some connection →
      side.InPlace name connection) : side.DropsExactly connections where
  named name connection hlookup := (hplace name connection hlookup).1
  port name connection hlookup := (hplace name connection hlookup).2
  removed := by
    intro name connection port hlookup hport hdrops
    rw [lookup_check hplace hlookup hport, if_pos hdrops]
  reconnects := by
    intro name connection port hlookup hport hdrops
    rw [lookup_check hplace hlookup hport, side.turn_eq connection port hport, hdrops]
    rfl
  unchanged := by
    intro name connection port hlookup hport hdrops
    have hother : (side.checkPortDropped port).2 ≠ (true, false) := by
      intro heq
      rw [heq] at hdrops
      cases hdrops
    rw [lookup_check hplace hlookup hport, if_neg hother, side.turn_eq connection port hport,
      hdrops]
    rfl
  absent := by
    intro name hlookup
    rw [side.check_eq, AssocMap.sweep, AssocMap.lookup_eraseAll, AssocMap.lookup_mapVals, hlookup]
    exact ite_self _
  starts := by
    intro name settings hrefused
    unfold NetworkConnections.startConnection NetworkConnections.canConnect
    by_cases hthere : name ∈ connections
    · simp [hthere]
    · simp [hthere, side.new_eq name settings (hrefused.resolve_left hthere)]

end ConnectionSide

/-! ## A client -/

namespace ClientConnection

theorem checkDropped_report {connection : ClientConnection} {port : ClientPort}
    (hport : connection.mainPort = some port) :
    connection.checkDropped =
      if port.checkPortDropped.2.1 then
        { connection with connected := false, mainPort := some port.checkPortDropped.1 }
      else connection := by
  cases hdown : port.connectionDown with
  | nil =>
    simp only [checkDropped, hport, ClientPort.checkPortDropped, hdown, Bool.false_eq_true,
      if_false]
    rw [← hport]
  | cons _ rest => simp only [checkDropped, hport, ClientPort.checkPortDropped, hdown, if_true]

theorem toDisconnect_eq {connection : ClientConnection} {port : ClientPort}
    (hport : connection.mainPort = some port) :
    connection.toDisconnect =
      if port.checkPortDropped.2 = (true, false) then [connection.connectionName] else [] := by
  simp only [toDisconnect, hport]
  rcases port.checkPortDropped with ⟨-, dropped, canReconnect⟩
  cases dropped <;> cases canReconnect <;> rfl

end ClientConnection

def clientSide : ConnectionSide ClientConnection ClientPort where
  connectionName := ClientConnection.connectionName
  mainPort := ClientConnection.mainPort
  checkPortDropped := ClientPort.checkPortDropped
  down connection port := { connection with connected := false, mainPort := some port }
  checkMainPortDropped := ClientConnections.checkMainPortDropped
  wrongSide settings := ∃ server, settings = .server server
  turn := ClientConnection.checkDropped
  toDisconnect := ClientConnection.toDisconnect
  check_eq _ := rfl
  turn_eq _ _ := ClientConnection.checkDropped_report
  toDisconnect_eq _ _ := ClientConnection.toDisconnect_eq
  new_eq := by
    intro name settings hwrong
    obtain ⟨server, rfl⟩ := hwrong
    rfl

namespace ClientConnection
variable {connection before : ClientConnection} {name : String}

theorem inPlace_onMainPort {op : ClientPort → Option Runtime → ClientPort × List ClientTask}
    (h : clientSide.InPlace name connection) :
    clientSide.InPlace name (connection.onMainPort op) := by
  obtain ⟨hname, hsome⟩ := h
  obtain ⟨port, hport⟩ := Option.isSome_iff_exists.mp hsome
  rw [mainPort_onMainPort hport]
  exact ⟨hname, rfl⟩

theorem inPlace_checkDropped (h : clientSide.InPlace name connection) :
    clientSide.InPlace name connection.checkDropped := by
  obtain ⟨port, hport⟩ := Option.isSome_iff_exists.mp h.2
  rw [checkDropped_report hport]
  split
  · exact ⟨h.1, rfl⟩
  · exact h

theorem inPlace_turn (h : clientSide.InPlace name connection) (system : ClientSystem) :
    clientSide.InPlace name (system.turn connection) := by
  cases system with
  | checkMainPortDropped => exact inPlace_checkDropped h
  | startConnections =>
    simp only [ClientSystem.turn, startUnlessConnected]
    split
    · have hconnected : clientSide.InPlace name { connection with
          connected := true, runtime := some (connection.runtime.getD .new) } := h
      exact inPlace_onMainPort hconnected
    · exact h
  | checkConnectedToMainPort => exact inPlace_onMainPort h
  | checkListeningToMainPort => exact inPlace_onMainPort h

theorem inPlace_receive (h : clientSide.InPlace name connection) (task : ClientTask)
    (event : ClientEvent) : clientSide.InPlace name (connection.receive task event) := by
  unfold receive
  split
  · exact h
  · exact ⟨h.1, rfl⟩

theorem inPlace_drained (h : clientSide.InPlace name connection) :
    clientSide.InPlace name connection.drained := by
  obtain ⟨hname, hsome⟩ := h
  exact ⟨hname, by simpa [clientSide, drained] using hsome⟩

theorem inPlace_new {settings : PortSideSettings}
    (hnew : ClientConnection.new name settings = some connection) :
    clientSide.InPlace name connection := by
  cases settings with
  | server settings => cases hnew
  | client settings =>
    cases hnew
    exact ⟨rfl, rfl⟩

end ClientConnection

/-- **A step of a client keeps its connections in place.** -/
theorem ClientApp.inPlace_step {τ : Type} [DecidableEq τ] [UserMessages τ] [Ciborium τ]
    {app app' : ClientApp τ} {input : ClientInput τ} {output : List (WorldMessage τ)}
    (hplace : ∀ name connection, app.connections.lookup name = some connection →
      clientSide.InPlace name connection)
    (h : app.step input = some (app', output)) :
    ∀ name connection, app'.connections.lookup name = some connection →
      clientSide.InPlace name connection := by
  intro name after hlookup
  cases step_change h hlookup with
  | created hnew => exact ClientConnection.inPlace_new hnew
  | kept hbefore => exact hplace name after hbefore
  | turned hbefore => exact ClientConnection.inPlace_turn (hplace name _ hbefore) _
  | received hbefore => exact ClientConnection.inPlace_receive (hplace name _ hbefore) _ _
  | sent hbefore => exact ClientConnection.inPlace_onMainPort (hplace name _ hbefore)
  | drained hbefore => exact ClientConnection.inPlace_drained (hplace name _ hbefore)
  | identified hbefore =>
    have hkept := hplace name _ hbefore
    exact ⟨hkept.1, hkept.2⟩

/-! ## A server -/

namespace ServerConnection

theorem checkDropped_report {connection : ServerConnection} {port : ServerPort}
    (hport : connection.mainPort = some port) :
    connection.checkDropped =
      if port.checkPortDropped.2.1 then
        { connection with connected := false, mainPort := some port.checkPortDropped.1 }
      else connection := by
  cases hdown : port.connectionDown with
  | nil =>
    simp only [checkDropped, hport, ServerPort.checkPortDropped, hdown, Bool.false_eq_true,
      if_false]
    rw [← hport]
  | cons _ rest => simp only [checkDropped, hport, ServerPort.checkPortDropped, hdown, if_true]

theorem toDisconnect_eq {connection : ServerConnection} {port : ServerPort}
    (hport : connection.mainPort = some port) :
    connection.toDisconnect =
      if port.checkPortDropped.2 = (true, false) then [connection.connectionName] else [] := by
  simp only [toDisconnect, hport]
  rcases port.checkPortDropped with ⟨-, dropped, canReconnect⟩
  cases dropped <;> cases canReconnect <;> rfl

end ServerConnection

def serverSide : ConnectionSide ServerConnection ServerPort where
  connectionName := ServerConnection.connectionName
  mainPort := ServerConnection.mainPort
  checkPortDropped := ServerPort.checkPortDropped
  down connection port := { connection with connected := false, mainPort := some port }
  checkMainPortDropped := checkMainPortDropped
  wrongSide settings := ∃ client, settings = .client client
  turn := ServerConnection.checkDropped
  toDisconnect := ServerConnection.toDisconnect
  check_eq _ := rfl
  turn_eq _ _ := ServerConnection.checkDropped_report
  toDisconnect_eq _ _ := ServerConnection.toDisconnect_eq
  new_eq := by
    intro name settings hwrong
    obtain ⟨client, rfl⟩ := hwrong
    rfl

namespace ServerConnection
variable {connection before after : ServerConnection} {name : String}

theorem inPlace_onMainPort {op : ServerPort → Option Runtime → ServerPort × List Task}
    (h : serverSide.InPlace name connection) :
    serverSide.InPlace name (connection.onMainPort op) := by
  unfold onMainPort
  split
  · exact h
  · exact ⟨h.1, rfl⟩

theorem inPlace_ran {op : PortOp} (h : serverSide.InPlace name before)
    (hran : before.Ran op after) : serverSide.InPlace name after := by
  obtain ⟨runtime, hport, -⟩ := hran.mainPort
  obtain ⟨hname, hsome⟩ := h
  refine ⟨hran.connectionName.trans hname, ?_⟩
  simpa [serverSide, hport] using hsome

theorem inPlace_receive (h : serverSide.InPlace name connection) (task : Task)
    (event : TaskEvent) : serverSide.InPlace name (connection.receive task event) := by
  unfold receive
  split
  · exact h
  · exact ⟨h.1, rfl⟩

theorem inPlace_authenticateClient (h : serverSide.InPlace name connection) (uuid : Uuid)
    (portNumber : Nat) :
    serverSide.InPlace name (connection.authenticateClient uuid portNumber) := by
  unfold authenticateClient
  split
  · exact h
  · dsimp only
    split
    · have hentered : serverSide.InPlace name { connection with
          clientsConnected := connection.clientsConnected.insert uuid [0] } := h
      exact inPlace_onMainPort hentered
    · exact h

theorem inPlace_settleCalls {τ : Type} [DecidableEq τ] [UserMessages τ] [Ciborium τ]
    (h : serverSide.InPlace name connection) (calls : List (AuthenticateCall τ)) :
    serverSide.InPlace name (calls.foldl (settleCall name) connection) := by
  refine List.foldlRecOn _ _ h fun settled hsettled call _ => ?_
  unfold settleCall
  split
  · split
    · exact hsettled
    · unfold acceptClient
      have hentered := inPlace_authenticateClient hsettled
      dsimp only
      split
      · exact inPlace_onMainPort (hentered _ _)
      · exact hentered _ _
  · exact hsettled

theorem inPlace_new {settings : PortSideSettings}
    (hnew : ServerConnection.new name settings = some connection) :
    serverSide.InPlace name connection := by
  cases settings with
  | client settings => cases hnew
  | server settings =>
    cases hnew
    exact ⟨rfl, rfl⟩

end ServerConnection

/-- **A step of a server keeps its connections in place.** -/
theorem ServerApp.inPlace_step {τ : Type} [DecidableEq τ] [UserMessages τ] [Ciborium τ]
    {app app' : ServerApp τ} {input : ServerInput τ} {output : ServerOutput τ}
    (hplace : ∀ name connection, app.connections.lookup name = some connection →
      serverSide.InPlace name connection)
    (h : app.step input = some (app', output)) :
    ∀ name connection, app'.connections.lookup name = some connection →
      serverSide.InPlace name connection := by
  intro name after hlookup
  cases step_change h hlookup with
  | created hnew => exact ServerConnection.inPlace_new hnew
  | kept hbefore => exact hplace name after hbefore
  | ran hbefore hran => exact ServerConnection.inPlace_ran (hplace name _ hbefore) hran
  | received hbefore => exact ServerConnection.inPlace_receive (hplace name _ hbefore) _ _
  | sent hbefore => exact ServerConnection.inPlace_onMainPort (hplace name _ hbefore)
  | settled hbefore => exact ServerConnection.inPlace_settleCalls (hplace name _ hbefore) _

/-! ## Runs -/

section Runs
variable {τ : Type} [DecidableEq τ] [UserMessages τ] [Ciborium τ]

/-- **A drop removes exactly the right connections**, at either end and after any run. -/
theorem drops_exactly :
    (∀ (ts : List (ClientTransition τ)) (app : ClientApp τ),
      (clientMachine τ).Run .new ts app → clientSide.DropsExactly app.connections) ∧
    ∀ (ts : List (ServerTransition τ)) (app : ServerApp τ),
      (serverMachine τ).Run .new ts app → serverSide.DropsExactly app.connections := by
  constructor
  · intro ts app h
    apply ConnectionSide.dropsExactly
    refine h.invariant (fun app => ∀ name connection,
      app.connections.lookup name = some connection → clientSide.InPlace name connection) ?_ ?_
    · intro name connection hlookup
      cases hlookup
    · intro t hplace hof
      exact ClientApp.inPlace_step hplace hof
  · intro ts app h
    apply ConnectionSide.dropsExactly
    refine h.invariant (fun app => ∀ name connection,
      app.connections.lookup name = some connection → serverSide.InPlace name connection) ?_ ?_
    · intro name connection hlookup
      cases hlookup
    · intro t hplace hof
      exact ServerApp.inPlace_step hplace hof

end Runs

namespace Sample

/-- The listeners of two servers, of which one goes; that one does not reconnect. -/
def oneDownInputs : List (ServerInput Sample) :=
  [.startConnection "main" (.server (.tcp { TcpSettingsServer.default with
      autoReconnect := false })),
    .startConnection "other" (.server (.tcp .default)), .first .startConnections,
    .task "main" .bind (.portConnected 0), .first .receiveMainPortListener,
    .first .startAcceptingConnectionsMainPort,
    .task "main" (.accept 0 0 false false) .connectionDown]

def oneDownRun : List (ServerTransition Sample) × ServerApp Sample :=
  ((serverMachine Sample).exec .new oneDownInputs).getD ([], .new)

theorem run_oneDownRun : (serverMachine Sample).Run .new oneDownRun.1 oneDownRun.2 := by
  have hexec : (serverMachine Sample).exec .new oneDownInputs = some oneDownRun := rfl
  exact .of_exec hexec

end Sample

/-- The one that went is removed and the other stays as it was; the client whose connection ended
reconnects. -/
theorem drops_oneDown :
    (checkMainPortDropped Sample.oneDownRun.2.connections).lookup "main" = none ∧
      (checkMainPortDropped Sample.oneDownRun.2.connections).lookup "other" =
        Sample.oneDownRun.2.connections.lookup "other" ∧
      clientSide.DropsExactly Sample.droppedRun.2.connections := by
  have hserver := drops_exactly.2 _ _ Sample.run_oneDownRun
  refine ⟨hserver.removed "main" _ _ rfl rfl rfl, ?_, drops_exactly.1 _ _ Sample.run_droppedRun⟩
  exact hserver.unchanged "other" _ _ rfl rfl rfl

end Inator
