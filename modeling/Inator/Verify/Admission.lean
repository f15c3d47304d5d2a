import Inator.Plugins.Server

/-! # The admission of accepted clients

No system of the server's schedule takes a stream out of `client_connected`, so what waits
there at the start of a run of frames is still in front of the channel at its end. -/

namespace Inator

/-- Only `check_clients_connected` pops the channel. -/
theorem PortOp.run_clientConnected {op : PortOp}
    (hop : ∀ newUuid, op ≠ .checkClientsConnected newUuid)
    (port : ServerPort) (runtime : Option Runtime) :
    (op.run port runtime).1.clientConnected = port.clientConnected := by
  have heffect := op.run_effect port runtime
  generalize (op.run port runtime).1 = after at heffect
  cases heffect with
  | quiet _ clientConnected => exact clientConnected
  | admitted => exact absurd rfl (hop _)
  | marked | disconnected | disconnectedWaiting => rfl

/-- No system runs it. -/
theorem FirstSystem.portOp_ne (system : FirstSystem) (newUuid : Uuid) :
    system.portOp ≠ .checkClientsConnected newUuid := by
  cases system <;> exact nofun

theorem ServerPort.receive_clientConnected (port : ServerPort) (event : TaskEvent) :
    port.clientConnected <+: (port.receive event).clientConnected := by
  cases event with
  | clientConnected stream => exact List.prefix_append _ _
  | _ => exact List.prefix_refl _

namespace ServerConnections

/-- The streams are in front of the `client_connected` channel of the connection's main port,
as long as there is such a connection. -/
def InFront (name : String) (streams : List Stream) (connections : ServerConnections) : Prop :=
  ∀ connection port, connections.lookup name = some connection →
    connection.mainPort = some port → streams <+: port.clientConnected

variable {name : String} {streams : List Stream} {connections : ServerConnections}

theorem inFront_receive (h : InFront name streams connections) (event : String × TaskEvent) :
    InFront name streams (connections.receive event) := by
  intro connection port hlookup hport
  by_cases hname : name = event.1
  · subst hname
    rw [receive, AssocMap.lookup_modify] at hlookup
    obtain ⟨connection₀, hlookup₀, rfl⟩ := Option.map_eq_some_iff.mp hlookup
    unfold ServerConnection.onMainPort at hport
    split at hport
    · exact h connection₀ port hlookup₀ hport
    · rename_i port₀ hport₀
      cases hport
      exact (h connection₀ port₀ hlookup₀ hport₀).trans (port₀.receive_clientConnected event.2)
  · rw [receive, AssocMap.lookup_modify_ne _ _ hname] at hlookup
    exact h connection port hlookup hport

/-- **No system pops the channel.** -/
theorem inFront_run (h : InFront name streams connections) (system : FirstSystem) :
    InFront name streams (system.run connections) := by
  intro after port hlookup hport
  obtain ⟨before, hbefore, heq | hran⟩ := FirstSystem.run_lookup hlookup
  · subst heq
    exact h after port hbefore hport
  · obtain ⟨runtime, hmain, -⟩ := hran.mainPort
    rw [hmain] at hport
    obtain ⟨port₀, hport₀, rfl⟩ := Option.map_eq_some_iff.mp hport
    rw [PortOp.run_clientConnected system.portOp_ne]
    exact h before port₀ hbefore hport₀

theorem inFront_frame (h : InFront name streams connections)
    (events : FirstSystem → List (String × TaskEvent)) :
    InFront name streams (connections.frame events) :=
  List.foldlRecOn _ _ h fun _ hfront system _ =>
    inFront_run (List.foldlRecOn _ _ hfront fun _ hfront event _ => inFront_receive hfront event)
      system

/-- Frames, one after the other. -/
def frames (connections : ServerConnections)
    (events : List (FirstSystem → List (String × TaskEvent))) : ServerConnections :=
  events.foldl (fun connections events => connections.frame events) connections

theorem inFront_frames (h : InFront name streams connections)
    (events : List (FirstSystem → List (String × TaskEvent))) :
    InFront name streams (connections.frames events) :=
  List.foldlRecOn _ _ h fun _ hfront events _ => inFront_frame hfront events

/-- Between the two states the stream was entered under a UUID that was unknown before, and a
reader was started on it. -/
structure Admits (name : String) (before after : ServerConnections) (stream : Stream)
    (uuid : Uuid) : Prop where
  fresh : ∀ connection port, before.lookup name = some connection →
    connection.mainPort = some port →
      uuid ∉ port.notAuthenticatedListening ∧ uuid ∉ port.listeningClients
  entered : ∃ connection port, after.lookup name = some connection ∧
    connection.mainPort = some port ∧
    port.notAuthenticatedListening.lookup uuid = some ⟨stream, true⟩ ∧
    .read stream port.settings.framing uuid false ∈ connection.spawned

/-- After a frame for each of the streams, the channel is empty and each frame has admitted
one of them, in order. -/
structure AdmitsAll (name : String) (streams : List Stream) (connections : ServerConnections)
    (events : List (FirstSystem → List (String × TaskEvent))) : Prop where
  empty : ∃ connection port, (connections.frames events).lookup name = some connection ∧
    connection.mainPort = some port ∧ port.clientConnected = []
  admits : ∃ uuids : List Uuid, uuids.length = streams.length ∧ uuids.Nodup ∧
    ∀ i stream uuid, streams[i]? = some stream → uuids[i]? = some uuid →
      Admits name (connections.frames (events.take i)) (connections.frames (events.take (i + 1)))
        stream uuid

end ServerConnections

open ServerConnections

/-- **When the schedule admits the waiting streams**: exactly when there are none. -/
theorem admission_iff (name : String) (connections : ServerConnections)
    (connection : ServerConnection) (port : ServerPort)
    (hlookup : connections.lookup name = some connection) (hport : connection.mainPort = some port)
    (events : List (FirstSystem → List (String × TaskEvent)))
    (hlen : events.length = port.clientConnected.length) :
    AdmitsAll name port.clientConnected connections events ↔ port.clientConnected = [] := by
  constructor
  · intro h
    obtain ⟨connection', port', hlookup', hport', hempty⟩ := h.empty
    have hstart : InFront name port.clientConnected connections := by
      intro connection₀ port₀ hlookup₀ hport₀
      cases hlookup.symm.trans hlookup₀
      cases hport.symm.trans hport₀
      exact List.prefix_refl _
    have hend := inFront_frames hstart events connection' port' hlookup' hport'
    rw [hempty] at hend
    exact List.prefix_nil.mp hend
  · intro h
    rw [h, List.length_nil] at hlen
    obtain rfl := List.length_eq_zero_iff.mp hlen
    refine ⟨⟨connection, port, hlookup, hport, h⟩, [], by rw [h]; rfl, List.nodup_nil, ?_⟩
    intro i stream uuid hstream
    rw [h] at hstream
    cases hstream

/-- A server that accepts connections, with one accepted stream waiting. -/
def waitingServer : ServerConnection where
  runtime := some .new
  connectionName := "main"
  connected := true
  mainPort := some { ServerPort.new (.tcp .default) with
    connecting := true
    connected := true
    acceptingConnections := true
    tcpListener := some 0
    clientConnected := [⟨0, .stream⟩] }
  clientsConnected := ∅
  spawned := [.bind, .accept 0 0 false false]
  running := [.accept 0 0 false false]

theorem admission_waitingServer :
    AdmitsAll "main" [⟨0, .stream⟩] (AList.singleton "main" waitingServer) [fun _ => []] ↔
      ([⟨0, .stream⟩] : List Stream) = [] :=
  admission_iff "main" (AList.singleton "main" waitingServer) waitingServer _ rfl rfl
    [fun _ => []] rfl

/-- A frame leaves the stream where it was. -/
theorem waitingServer_starves :
    ¬AdmitsAll "main" [⟨0, .stream⟩] (AList.singleton "main" waitingServer) [fun _ => []] := by
  intro h
  obtain ⟨connection, port, hlookup, hport, hempty⟩ := h.empty
  have hsame : (frames (AList.singleton "main" waitingServer) [fun _ => []]).lookup "main" =
      some waitingServer := rfl
  cases hsame.symm.trans hlookup
  cases hport
  cases hempty

end Inator
