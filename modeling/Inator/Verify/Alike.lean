import Inator.Lib.Reordering
import Inator.Verify.Delivery

/-! # Ports and connections in which maps have another order

Two ports, or two connections, are alike if they differ in nothing but the order of their maps and
of the tasks they have spawned. Whatever is done to both leaves them alike. -/

namespace Inator
open AssocMap

/-! ## Ports -/

namespace ServerPort

/-- The ports differ in the order of their maps. -/
inductive Alike (port : ServerPort) : ServerPort → Prop
  | mk {listening waiting : AssocMap Uuid ListeningInfos}
      (listeningClients : Same port.listeningClients listening)
      (notAuthenticatedListening : Same port.notAuthenticatedListening waiting) :
      Alike port { port with
        listeningClients := listening
        notAuthenticatedListening := waiting }

variable {port port' : ServerPort}

namespace Alike

theorem refl (port : ServerPort) : port.Alike port := .mk (.refl _) (.refl _)

theorem symm (h : port.Alike port') : port'.Alike port := by
  cases h with
  | mk listeningClients notAuthenticatedListening =>
    exact .mk listeningClients.symm notAuthenticatedListening.symm

theorem trans {port'' : ServerPort} (h : port.Alike port') (h' : port'.Alike port'') :
    port.Alike port'' := by
  cases h with
  | mk listeningClients notAuthenticatedListening =>
    cases h' with
    | mk listeningClients' notAuthenticatedListening' =>
      exact .mk (listeningClients.trans listeningClients')
        (notAuthenticatedListening.trans notAuthenticatedListening')

theorem messageReceived (h : port.Alike port') :
    port'.messageReceived = port.messageReceived := by
  cases h
  rfl

theorem clientConnected (h : port.Alike port') :
    port'.clientConnected = port.clientConnected := by
  cases h
  rfl

theorem checkPortDropped (h : port.Alike port') :
    port.checkPortDropped.1.Alike port'.checkPortDropped.1 ∧
      port'.checkPortDropped.2 = port.checkPortDropped.2 := by
  cases h with
  | mk listeningClients notAuthenticatedListening =>
    unfold ServerPort.checkPortDropped
    dsimp only
    split
    · exact ⟨.mk listeningClients notAuthenticatedListening, rfl⟩
    · exact ⟨.mk listeningClients notAuthenticatedListening, rfl⟩

/-- Readers are started for the same clients. -/
theorem reads (h : port.Alike port') (target : Uuid) (runtime : Option Runtime) :
    port'.startListeningNotAuthenticatedClient target runtime =
        port.startListeningNotAuthenticatedClient target runtime ∧
      port'.startListeningAuthenticatedClient target runtime =
        port.startListeningAuthenticatedClient target runtime := by
  cases h with
  | mk listeningClients notAuthenticatedListening =>
    simp only [startListeningNotAuthenticatedClient, startListeningAuthenticatedClient,
      ServerTcp.startListeningNotAuthenticatedClient,
      ServerWebSocket.startListeningNotAuthenticatedClient, listeningClients target,
      notAuthenticatedListening target, and_self]

theorem authenticateClient (h : port.Alike port') (uuid : Uuid) (runtime : Option Runtime) :
    (port.authenticateClient uuid runtime).1.Alike (port'.authenticateClient uuid runtime).1 ∧
      (port.authenticateClient uuid runtime).2 = (port'.authenticateClient uuid runtime).2 := by
  have hlookup : port'.notAuthenticatedListening.lookup uuid =
      port.notAuthenticatedListening.lookup uuid := by
    cases h with
    | mk _ notAuthenticatedListening => exact (notAuthenticatedListening uuid).symm
  cases hinfos : port.notAuthenticatedListening.lookup uuid with
  | none =>
    rw [authenticateClient_none hinfos, authenticateClient_none (hlookup.trans hinfos)]
    exact ⟨h, rfl⟩
  | some infos =>
    rw [authenticateClient_some hinfos, authenticateClient_some (hlookup.trans hinfos)]
    cases h with
    | mk listeningClients notAuthenticatedListening =>
      exact ⟨.mk (listeningClients.insert _ _) (notAuthenticatedListening.erase _), rfl⟩

theorem sendMessage {τ : Type} [UserMessages τ] [Ciborium τ] {t : MessageType τ}
    (h : port.Alike port') (message : t.Message) (target : Uuid) (runtime : Option Runtime) :
    port'.sendMessage message target runtime = port.sendMessage message target runtime := by
  cases h with
  | mk listeningClients _ =>
    simp only [ServerPort.sendMessage, ServerTcp.sendMessage, ServerWebSocket.sendMessage,
      listeningClients target]

theorem receive (h : port.Alike port') (event : TaskEvent) :
    (port.receive event).Alike (port'.receive event) := by
  cases h with
  | mk listeningClients notAuthenticatedListening =>
    cases event <;> exact .mk listeningClients notAuthenticatedListening

theorem returns (h : port.Alike port') (event : TaskEvent) (task : Task) :
    event.returns port' task = event.returns port task := by
  cases h
  rfl

/-- **An operation** leaves ports that are alike, and spawns the same tasks. -/
theorem run (h : port.Alike port') (op : PortOp) (runtime : Option Runtime) :
    (op.run port runtime).1.Alike (op.run port' runtime).1 ∧
      (op.run port runtime).2.Perm (op.run port' runtime).2 := by
  cases op with
  | checkPortDropped => exact ⟨h.checkPortDropped.1, .refl _⟩
  | startListeningNotAuthenticatedClient target =>
    exact ⟨h, .of_eq (h.reads target runtime).1.symm⟩
  | startListeningAuthenticatedClient target =>
    exact ⟨h, .of_eq (h.reads target runtime).2.symm⟩
  | checkNotAuthenticatedClients =>
    cases h with
    | @mk listening waiting listeningClients notAuthenticatedListening =>
      have hmarked := notAuthenticatedListening.mapVals fun _ infos =>
        { infos with listening := true }
      have halike : (port.checkNotAuthenticatedClients runtime).1.Alike
          (ServerPort.checkNotAuthenticatedClients { port with
            listeningClients := listening
            notAuthenticatedListening := waiting } runtime).1 := .mk listeningClients hmarked
      refine ⟨halike, ?_⟩
      have hkeys := notAuthenticatedListening.collect_perm
        fun key infos => if infos.listening then [] else [key]
      refine (List.Perm.of_eq ?_).trans (hkeys.flatMap_right _)
      exact List.flatMap_congr fun key _ => ((halike.reads key runtime).1).symm
  | connect =>
    cases h with
    | mk listeningClients notAuthenticatedListening =>
      simp only [PortOp.run, ServerPort.connect]
      split
      · exact ⟨.mk listeningClients notAuthenticatedListening, .refl _⟩
      · split <;> exact ⟨.mk listeningClients notAuthenticatedListening, .refl _⟩
  | checkPortConnected =>
    cases h with
    | mk listeningClients notAuthenticatedListening =>
      simp only [PortOp.run, ServerPort.checkPortConnected]
      split
      · exact ⟨.mk listeningClients notAuthenticatedListening, .refl _⟩
      · split <;> exact ⟨.mk listeningClients notAuthenticatedListening, .refl _⟩
  | startAcceptingConnections =>
    cases h with
    | mk listeningClients notAuthenticatedListening =>
      simp only [PortOp.run, ServerPort.startAcceptingConnections]
      split
      · exact ⟨.mk listeningClients notAuthenticatedListening, .refl _⟩
      · split
        · exact ⟨.mk listeningClients notAuthenticatedListening, .refl _⟩
        · split <;> exact ⟨.mk listeningClients notAuthenticatedListening, .refl _⟩
  | checkClientsDiconnected =>
    cases h with
    | mk listeningClients notAuthenticatedListening =>
      simp only [PortOp.run, ServerPort.checkClientsDiconnected]
      split
      · exact ⟨.mk listeningClients notAuthenticatedListening, .refl _⟩
      · split
        · exact ⟨.mk (listeningClients.erase _) notAuthenticatedListening, .refl _⟩
        · exact ⟨.mk listeningClients (notAuthenticatedListening.erase _), .refl _⟩
  | checkClientsConnected newUuid =>
    cases h with
    | mk listeningClients notAuthenticatedListening =>
      simp only [PortOp.run, ServerPort.checkClientsConnected]
      split
      · exact ⟨.mk listeningClients notAuthenticatedListening, .refl _⟩
      · exact ⟨.mk listeningClients (notAuthenticatedListening.insert newUuid _), .refl _⟩
  | asMainPort | checkMessagesReceived =>
    cases h with
    | mk listeningClients notAuthenticatedListening =>
      exact ⟨.mk listeningClients notAuthenticatedListening, .refl _⟩

end Alike

end ServerPort

/-! ## Connections -/

namespace ServerConnection

/-- The connections differ in the order of their maps, and of what they spawned. -/
inductive Alike (connection : ServerConnection) : ServerConnection → Prop
  | mk {port : Option ServerPort} {clients : AssocMap Uuid (List Nat)} {spawned running : List Task}
      (mainPort : Option.Rel ServerPort.Alike connection.mainPort port)
      (clientsConnected : Same connection.clientsConnected clients)
      (spawns : connection.spawned.Perm spawned) (runs : connection.running.Perm running) :
      Alike connection { connection with
        mainPort := port
        clientsConnected := clients
        spawned := spawned
        running := running }

variable {connection connection' : ServerConnection}

namespace Alike

theorem refl (connection : ServerConnection) : connection.Alike connection := by
  refine .mk ?_ (.refl _) (.refl _) (.refl _)
  cases connection.mainPort with
  | none => exact .none
  | some port => exact .some (.refl port)

theorem symm (h : connection.Alike connection') : connection'.Alike connection := by
  cases h with
  | mk mainPort clientsConnected spawns runs =>
    exact .mk (mainPort.symm fun _ _ halike => halike.symm) clientsConnected.symm spawns.symm
      runs.symm

theorem trans {connection'' : ServerConnection} (h : connection.Alike connection')
    (h' : connection'.Alike connection'') : connection.Alike connection'' := by
  cases h with
  | mk mainPort clientsConnected spawns runs =>
    cases h' with
    | mk mainPort' clientsConnected' spawns' runs' =>
      exact .mk (mainPort.trans mainPort' fun _ _ _ halike halike' => halike.trans halike')
        (clientsConnected.trans clientsConnected') (spawns.trans spawns') (runs.trans runs')

theorem connectionName (h : connection.Alike connection') :
    connection'.connectionName = connection.connectionName := by
  cases h
  rfl

theorem runtime (h : connection.Alike connection') :
    connection'.runtime = connection.runtime := by
  cases h
  rfl

theorem connected (h : connection.Alike connection') :
    connection'.connected = connection.connected := by
  cases h
  rfl

theorem clientsConnected (h : connection.Alike connection') :
    Same connection.clientsConnected connection'.clientsConnected := by
  cases h with
  | mk _ clientsConnected => exact clientsConnected

theorem running (h : connection.Alike connection') :
    connection.running.Perm connection'.running := by
  cases h with
  | mk _ _ _ runs => exact runs

theorem mainPort_none (h : connection.Alike connection') (hport : connection.mainPort = none) :
    connection'.mainPort = none := by
  cases h with
  | mk mainPort =>
    rw [hport] at mainPort
    cases mainPort
    rfl

theorem mainPort_some (h : connection.Alike connection') {port : ServerPort}
    (hport : connection.mainPort = some port) :
    ∃ port', connection'.mainPort = some port' ∧ port.Alike port' := by
  cases h with
  | mk mainPort =>
    rw [hport] at mainPort
    cases mainPort with
    | some halike => exact ⟨_, rfl, halike⟩

/-- Operations that treat ports alike treat connections alike. -/
theorem onMainPort (h : connection.Alike connection')
    {op : ServerPort → Option Runtime → ServerPort × List Task}
    (hop : ∀ {port port'} runtime, port.Alike port' →
      (op port runtime).1.Alike (op port' runtime).1 ∧
        (op port runtime).2.Perm (op port' runtime).2) :
    (connection.onMainPort op).Alike (connection'.onMainPort op) := by
  cases hport : connection.mainPort with
  | none =>
    simp only [ServerConnection.onMainPort, hport, h.mainPort_none hport]
    exact h
  | some port =>
    obtain ⟨port', hport', halike⟩ := h.mainPort_some hport
    obtain ⟨hports, htasks⟩ := hop connection.runtime halike
    simp only [ServerConnection.onMainPort, hport, hport', h.runtime]
    cases h with
    | mk _ clientsConnected spawns runs =>
      exact .mk (.some hports) clientsConnected (spawns.append htasks) 
        (runs.append (htasks.filter _))

theorem run (h : connection.Alike connection') (op : PortOp) :
    (connection.onMainPort fun port runtime => op.run port runtime).Alike
      (connection'.onMainPort fun port runtime => op.run port runtime) :=
  h.onMainPort fun runtime halike => halike.run op runtime

theorem sendMessage {τ : Type} [UserMessages τ] [Ciborium τ] {t : MessageType τ}
    (h : connection.Alike connection') (message : t.Message) (target : Uuid) :
    (connection.onMainPort fun port runtime =>
        (port, port.sendMessage message target runtime)).Alike
      (connection'.onMainPort fun port runtime =>
        (port, port.sendMessage message target runtime)) :=
  h.onMainPort fun runtime halike =>
    ⟨halike, .of_eq (halike.sendMessage message target runtime).symm⟩

theorem startConnection (h : connection.Alike connection') :
    connection.startConnection.Alike connection'.startConnection := by
  have hstarted : Alike { connection with
      connected := true
      runtime := some (connection.runtime.getD .new) } { connection' with
        connected := true
        runtime := some (connection'.runtime.getD .new) } := by
    cases h with
    | mk mainPort clientsConnected spawns runs => exact .mk mainPort clientsConnected spawns runs
  exact hstarted.run .connect

theorem checkDropped (h : connection.Alike connection') :
    connection.checkDropped.Alike connection'.checkDropped ∧
      connection'.toDisconnect = connection.toDisconnect := by
  cases hport : connection.mainPort with
  | none =>
    have hport' := h.mainPort_none hport
    simp only [ServerConnection.checkDropped, ServerConnection.toDisconnect, hport, hport']
    exact ⟨h, trivial⟩
  | some port =>
    obtain ⟨port', hport', halike⟩ := h.mainPort_some hport
    obtain ⟨hports, hreports⟩ := halike.checkPortDropped
    simp only [ServerConnection.checkDropped, ServerConnection.toDisconnect, hport, hport',
      hreports, h.connectionName, h.connected, and_true]
    cases h with
    | mk _ clientsConnected spawns runs => exact .mk (.some hports) clientsConnected spawns runs

/-- **A system** takes its turn at both alike. -/
theorem turn (h : connection.Alike connection') (system : FirstSystem) :
    (system.turn connection).Alike (system.turn connection') := by
  cases system with
  | checkMainPortDropped => exact h.checkDropped.1
  | startConnections =>
    simp only [FirstSystem.turn, h.connected]
    split
    · exact h.startConnection
    · exact h
  | receiveMainPortListener => exact h.run .checkPortConnected
  | startAcceptingConnectionsMainPort => exact h.run .startAcceptingConnections
  | checkClientDisconnectedFromPort | checkClientConnectedToPort =>
    exact h.run .checkClientsDiconnected
  | startListeningNotAuthenticated => exact h.run .checkNotAuthenticatedClients

theorem receive (h : connection.Alike connection') (task : Task) (event : TaskEvent) :
    (connection.receive task event).Alike (connection'.receive task event) := by
  cases hport : connection.mainPort with
  | none =>
    simp only [ServerConnection.receive, hport, h.mainPort_none hport]
    exact h
  | some port =>
    obtain ⟨port', hport', halike⟩ := h.mainPort_some hport
    simp only [ServerConnection.receive, hport, hport', halike.returns]
    cases h with
    | mk _ clientsConnected spawns runs =>
      refine .mk (.some (halike.receive event)) clientsConnected spawns ?_
      split
      · exact runs.erase task
      · exact runs

theorem authenticateClient (h : connection.Alike connection') (uuid : Uuid) (portNumber : Nat) :
    (connection.authenticateClient uuid portNumber).Alike
      (connection'.authenticateClient uuid portNumber) := by
  have hentered : Alike { connection with
      clientsConnected := connection.clientsConnected.insert uuid [0] } { connection' with
        clientsConnected := connection'.clientsConnected.insert uuid [0] } := by
    cases h with
    | mk mainPort clientsConnected spawns runs =>
      exact .mk mainPort (clientsConnected.insert uuid [0]) spawns runs
  unfold ServerConnection.authenticateClient
  simp only [← h.clientsConnected.mem uuid]
  split
  · exact h
  · split
    · refine hentered.onMainPort fun runtime halike => ?_
      obtain ⟨hports, htasks⟩ := halike.authenticateClient uuid runtime
      exact ⟨hports, .of_eq htasks⟩
    · exact hentered

section Messages
variable {τ : Type} [DecidableEq τ] [UserMessages τ] [Ciborium τ]

omit [DecidableEq τ] in
theorem acceptClient (h : connection.Alike connection') (uuid : Uuid) (portNumber : Nat) :
    (connection.acceptClient τ uuid portNumber).Alike
      (connection'.acceptClient τ uuid portNumber) := by
  unfold ServerConnection.acceptClient
  dsimp only
  split
  · exact (h.authenticateClient uuid portNumber).sendMessage _ uuid
  · exact h.authenticateClient uuid portNumber

theorem batch (h : connection.Alike connection') : connection'.batch = connection.batch := by
  cases hport : connection.mainPort with
  | none => simp only [ServerConnection.batch, hport, h.mainPort_none hport]
  | some port =>
    obtain ⟨port', hport', halike⟩ := h.mainPort_some hport
    simp only [ServerConnection.batch, hport, hport', ServerPort.checkMessagesReceived,
      halike.messageReceived]

theorem drained (h : connection.Alike connection') :
    connection.drained.Alike connection'.drained := by
  cases hport : connection.mainPort with
  | none =>
    simp only [ServerConnection.drained, hport, h.mainPort_none hport, Option.map_none]
    cases h with
    | mk _ clientsConnected spawns runs => exact .mk .none clientsConnected spawns runs
  | some port =>
    obtain ⟨port', hport', halike⟩ := h.mainPort_some hport
    simp only [ServerConnection.drained, hport, hport', Option.map_some]
    have hdrained := (halike.run .checkMessagesReceived none).1
    cases h with
    | mk _ clientsConnected spawns runs => exact .mk (.some hdrained) clientsConnected spawns runs

theorem admits (h : connection.Alike connection') (registry : MessagesRegistry τ)
    (messages : List Incoming) :
    connection'.admits registry messages = connection.admits registry messages := by
  simp only [ServerConnection.admits, h.clientsConnected.mem]

end Messages

end Alike

end ServerConnection

end Inator
