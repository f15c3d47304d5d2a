import Inator.Plugins.ClientApp
import Inator.Verify.Messaging

/-! # A connected client is being read

`ClientTcp` and `WasmClient` mark themselves as listening before they look for a read half, so
a connection that comes up in a later frame finds the mark set and gets no reader.
`beingRead_iff` says in which runs this does not happen. -/

namespace Inator

namespace ClientPort
variable {port : ClientPort} {runtime : Option Runtime} {stream : Stream}

/-- Whether `start_listening_to_server` marks the port whatever its read half is. -/
def marksFirst (port : ClientPort) (runtime : Option Runtime) : Bool :=
  match port.settings with
  | .tcp _ => runtime.isSome
  | .webSocket _ => false
  | .wasm _ => true

theorem startListening_of_listening (h : port.listening = true) :
    port.startListeningToServer runtime = (port, []) := by
  cases hs : port.settings <;>
    simp [startListeningToServer, ClientTcp.startListeningToServer,
      ClientWebSocket.startListeningToServer, WasmClient.startListeningToServer, hs, h]

/-- With a read half and a runtime, all three ports start a reader. -/
theorem startListening_of_readHalf (h : port.listening = false)
    (hhalf : port.readHalf = some stream) (hruntime : runtime.isSome) :
    port.startListeningToServer runtime =
      ({ port with listening := true }, [.read stream port.settings.framing]) := by
  obtain ⟨r, rfl⟩ := Option.isSome_iff_exists.mp hruntime
  cases hs : port.settings <;>
    simp [startListeningToServer, ClientTcp.startListeningToServer,
      ClientWebSocket.startListeningToServer, WasmClient.startListeningToServer, hs, h, hhalf]

/-- Without a read half, they differ in whether they set the mark. -/
theorem startListening_of_none (h : port.listening = false) (hhalf : port.readHalf = none) :
    port.startListeningToServer runtime =
      ({ port with listening := port.marksFirst runtime }, []) := by
  obtain ⟨settings, _, _, listening, _⟩ := port
  cases h
  cases hhalf
  cases settings <;> cases runtime <;> rfl

/-- `send_message` touches the send queue only, and spawns tasks that write. -/
theorem sendMessage_spec {τ : Type} [UserMessages τ] [Ciborium τ] {t : MessageType τ}
    (port : ClientPort) (message : t.Message) (runtime : Option Runtime) :
    (∃ sendingMessages messageQueue, (port.sendMessage message runtime).1 = { port with
        sendingMessages := sendingMessages
        messageQueue := messageQueue }) ∧
      ∀ task ∈ (port.sendMessage message runtime).2,
        (∃ stream framing buf, task = .write stream framing buf) ∨
          ∃ stream, task = .sendQueue stream := by
  have hnone : ∀ {port' : ClientPort} {P : ClientTask → Prop}, ∀ task ∈ (port', []).2, P task :=
    fun _ htask => absurd htask List.not_mem_nil
  unfold sendMessage
  split
  · unfold ClientTcp.sendMessage
    split
    · exact ⟨⟨_, _, rfl⟩, hnone⟩
    · split
      · exact ⟨⟨_, _, rfl⟩, hnone⟩
      · split
        · exact ⟨⟨_, _, rfl⟩, hnone⟩
        · exact ⟨⟨_, _, rfl⟩, fun task htask => .inl ⟨_, _, _, List.mem_singleton.mp htask⟩⟩
  · unfold ClientWebSocket.sendMessage
    split
    · exact ⟨⟨_, _, rfl⟩, hnone⟩
    · split
      · exact ⟨⟨_, _, rfl⟩, hnone⟩
      · split
        · exact ⟨⟨_, _, rfl⟩, hnone⟩
        · exact ⟨⟨_, _, rfl⟩, fun task htask => .inl ⟨_, _, _, List.mem_singleton.mp htask⟩⟩
  · unfold WasmClient.sendMessage
    split
    · exact ⟨⟨_, _, rfl⟩, hnone⟩
    · dsimp only
      split
      · exact ⟨⟨_, _, rfl⟩, hnone⟩
      · split
        · exact ⟨⟨_, _, rfl⟩, hnone⟩
        · exact ⟨⟨_, _, rfl⟩, fun task htask => .inr ⟨_, List.mem_singleton.mp htask⟩⟩

/-- `connect` sets the connecting mark, or clears it, and nothing else. -/
theorem connect_spec (port : ClientPort) (runtime : Option Runtime) :
    ∃ connecting, (port.connect runtime).1 = { port with connecting := connecting } := by
  rcases port.connect_cases runtime with h | ⟨-, h | ⟨tryReconnect, tls, h⟩⟩
  all_goals
    rw [h]
    exact ⟨_, rfl⟩

end ClientPort

/-! ## One connection -/

namespace ClientConnection

/-- A reader was started on the read half of the port. -/
def ReaderStarted (connection : ClientConnection) (port : ClientPort) : Prop :=
  ∃ stream, port.readHalf = some stream ∧
    .read stream port.settings.framing ∈ connection.spawned

/-- A connected port has a reader, or its end is announced; and a port is marked as listening
only if it has a reader. -/
structure BeingRead (connection : ClientConnection) : Prop where
  connected : ∀ port, connection.mainPort = some port → port.connected = true →
    connection.ReaderStarted port ∨ port.connectionDown ≠ []
  listening : ∀ port, connection.mainPort = some port → port.listening = true →
    connection.ReaderStarted port

/-- A port that would be marked whatever its read half is has one. -/
def FindsReadHalf (connection : ClientConnection) : Prop :=
  ∀ port, connection.mainPort = some port → port.listening = false →
    port.marksFirst connection.runtime = true → port.readHalf.isSome

/-- The invariant: a port has a read half while it is connected, a reader while it is marked,
and nothing connects without a runtime. -/
structure Listens (connection : ClientConnection) : Prop where
  half : ∀ port, connection.mainPort = some port → (port.connected = true ↔ port.readHalf.isSome)
  listening : ∀ port, connection.mainPort = some port → port.listening = true →
    connection.ReaderStarted port
  connects : ∀ tryReconnect tls, .connect tryReconnect tls ∈ connection.running →
    connection.runtime.isSome
  runtime : ∀ port, connection.mainPort = some port →
    port.connected = true ∨ port.connectedToServer ≠ [] → connection.runtime.isSome

variable {connection : ClientConnection} {port port' : ClientPort}

theorem ReaderStarted.mono {connection' : ClientConnection} (h : connection.ReaderStarted port)
    (hhalf : port'.readHalf = port.readHalf) (hsettings : port'.settings = port.settings)
    (hspawned : connection.spawned ⊆ connection'.spawned) : connection'.ReaderStarted port' := by
  obtain ⟨stream, hstream, hread⟩ := h
  refine ⟨stream, hhalf.trans hstream, ?_⟩
  rw [hsettings]
  exact hspawned hread

theorem mainPort_onMainPort {op : ClientPort → Option Runtime → ClientPort × List ClientTask}
    (hport : connection.mainPort = some port) :
    connection.onMainPort op = { connection with
      mainPort := some (op port connection.runtime).1
      spawned := connection.spawned ++ (op port connection.runtime).2
      running := connection.running ++ (op port connection.runtime).2 } := by
  simp only [onMainPort, hport]

theorem onMainPort_none {op : ClientPort → Option Runtime → ClientPort × List ClientTask}
    (hport : connection.mainPort = none) : connection.onMainPort op = connection := by
  simp only [onMainPort, hport]

namespace Listens

theorem created {settings : PortSideSettings}
    (hnew : ClientConnection.new name settings = some connection) : connection.Listens := by
  cases settings with
  | server settings => cases hnew
  | client settings =>
    cases hnew
    refine ⟨?_, ?_, nofun, ?_⟩
    · intro port hport
      cases hport
      exact iff_of_false Bool.false_ne_true Bool.false_ne_true
    · intro port hport hlistening
      cases hport
      cases hlistening
    · rintro port hport (hconnected | hqueue)
      · cases hport
        cases hconnected
      · cases hport
        exact absurd rfl hqueue

/-- The invariant after a change of the port that leaves the fields it speaks of. -/
theorem of_same {connection' : ClientConnection} (h : connection.Listens)
    (hport : connection.mainPort = some port) (hport' : connection'.mainPort = some port')
    (hfields : port'.settings = port.settings ∧ port'.connected = port.connected ∧
      port'.listening = port.listening ∧ port'.readHalf = port.readHalf)
    (hruntime : connection.runtime.isSome → connection'.runtime.isSome)
    (hspawned : connection.spawned ⊆ connection'.spawned)
    (hconnects : ∀ tryReconnect tls, .connect tryReconnect tls ∈ connection'.running →
      connection'.runtime.isSome)
    (hqueue : port'.connectedToServer ≠ [] → connection'.runtime.isSome) :
    connection'.Listens := by
  obtain ⟨hsettings, hconnected, hlistening, hhalf⟩ := hfields
  refine ⟨?_, ?_, hconnects, ?_⟩
  · intro port'' hport''
    cases hport'.symm.trans hport''
    rw [hconnected, hhalf]
    exact h.half port hport
  · intro port'' hport'' hlistening'
    cases hport'.symm.trans hport''
    exact (h.listening port hport (hlistening ▸ hlistening')).mono hhalf hsettings hspawned
  · rintro port'' hport'' (hconnected' | hqueue')
    · cases hport'.symm.trans hport''
      exact hruntime (h.runtime port hport (.inl (hconnected ▸ hconnected')))
    · cases hport'.symm.trans hport''
      exact hqueue hqueue'

/-- The same, where nothing but the port changes. -/
theorem of_port (h : connection.Listens) (hport : connection.mainPort = some port)
    (hfields : port'.settings = port.settings ∧ port'.connected = port.connected ∧
      port'.listening = port.listening ∧ port'.readHalf = port.readHalf)
    (hqueue : port'.connectedToServer = port.connectedToServer) :
    { connection with mainPort := some port' }.Listens := by
  have harrived : port'.connectedToServer ≠ [] → connection.runtime.isSome := by
    intro hstream
    rw [hqueue] at hstream
    exact h.runtime port hport (.inr hstream)
  exact h.of_same hport rfl hfields id (List.Subset.refl _) h.connects harrived

theorem checkDropped (h : connection.Listens) : connection.checkDropped.Listens := by
  rw [ClientConnection.checkDropped]
  split
  · exact h
  · rename_i port hport
    cases hdown : port.connectionDown with
    | nil =>
      simp only [ClientPort.checkPortDropped, hdown]
      exact h.of_port hport ⟨rfl, rfl, rfl, rfl⟩ rfl
    | cons _ rest =>
      simp only [ClientPort.checkPortDropped, hdown]
      refine ⟨?_, ?_, h.connects, ?_⟩
      · intro port' hport'
        cases hport'
        exact iff_of_false Bool.false_ne_true Bool.false_ne_true
      · intro port' hport' hlistening
        cases hport'
        cases hlistening
      · rintro port' hport' (hconnected | hqueue)
        · cases hport'
          cases hconnected
        · cases hport'
          exact h.runtime port hport (.inr hqueue)

theorem startUnlessConnected (h : connection.Listens) :
    connection.startUnlessConnected.Listens := by
  rw [ClientConnection.startUnlessConnected]
  split
  · rw [startConnection]
    cases hport : connection.mainPort with
    | none =>
      simp only [onMainPort]
      refine ⟨?_, ?_, fun _ _ _ => rfl, fun _ _ _ => rfl⟩
      · intro port hport'
        cases hport'
      · intro port hport'
        cases hport'
    | some port =>
      simp only [onMainPort]
      obtain ⟨connecting, hconnect⟩ :=
        port.connect_spec (some (connection.runtime.getD .new))
      refine h.of_same hport rfl ?_ (fun _ => rfl) (List.subset_append_left _ _)
        (fun _ _ _ => rfl) (fun _ => rfl)
      rw [hconnect]
      exact ⟨rfl, rfl, rfl, rfl⟩
  · exact h

theorem checkConnected (h : connection.Listens) : connection.checkConnected.Listens := by
  rw [ClientConnection.checkConnected]
  cases hport : connection.mainPort with
  | none => rwa [onMainPort_none hport]
  | some port =>
    rw [mainPort_onMainPort hport]
    simp only [List.append_nil]
    have hsame : ∀ {port'}, port' = port →
        { connection with mainPort := some port' }.Listens := by
      intro port' heq
      subst heq
      exact h.of_port hport ⟨rfl, rfl, rfl, rfl⟩ rfl
    rw [ClientPort.checkConnectedToServer]
    split
    · exact hsame rfl
    · rename_i hdown
      cases hqueue : port.connectedToServer with
      | nil => exact hsame rfl
      | cons stream rest =>
        have hruntime := h.runtime port hport (.inr (by rw [hqueue]; exact List.cons_ne_nil _ _))
        refine ⟨?_, ?_, h.connects, fun _ _ _ => hruntime⟩
        · intro port' hport'
          cases hport'
          exact iff_of_true rfl rfl
        · intro port' hport' hlistening
          cases hport'
          -- a port that is marked has a read half, so it would be connected
          obtain ⟨stream', hhalf, -⟩ := h.listening port hport hlistening
          exact absurd ((h.half port hport).mpr (by rw [hhalf]; rfl)) hdown

theorem receive (h : connection.Listens) {task : ClientTask} {event : ClientEvent}
    (hruns : task ∈ connection.running) (hport : connection.mainPort = some port)
    (hdoes : event.By port.settings task) : (connection.receive task event).Listens := by
  simp only [ClientConnection.receive, hport]
  refine h.of_same hport rfl ?_ id (List.Subset.refl _) ?_ ?_
  · cases event <;> exact ⟨rfl, rfl, rfl, rfl⟩
  · intro tryReconnect tls hconnect
    dsimp only at hconnect
    split at hconnect
    · exact h.connects tryReconnect tls (List.mem_of_mem_erase hconnect)
    · exact h.connects tryReconnect tls hconnect
  · cases event with
    | connectedToServer stream =>
      cases task with
      | connect tryReconnect tls => exact fun _ => h.connects tryReconnect tls hruns
      | read | write | sendQueue => cases hdoes
    | connectionDown | messageReceived bytes | returned | panicked =>
      exact fun hqueue => h.runtime port hport (.inr hqueue)

theorem sent {τ : Type} [UserMessages τ] [Ciborium τ] {t : MessageType τ} {message : t.Message}
    (h : connection.Listens) :
    (connection.onMainPort fun port runtime => port.sendMessage message runtime).Listens := by
  cases hport : connection.mainPort with
  | none => rwa [onMainPort_none hport]
  | some port =>
    rw [mainPort_onMainPort hport]
    obtain ⟨⟨sendingMessages, messageQueue, hsent⟩, hwrites⟩ :=
      port.sendMessage_spec message connection.runtime
    refine h.of_same hport rfl ?_ id (List.subset_append_left _ _) ?_ ?_
    · rw [hsent]
      exact ⟨rfl, rfl, rfl, rfl⟩
    · intro tryReconnect tls hrunning
      rcases List.mem_append.mp hrunning with hrunning | hspawned
      · exact h.connects tryReconnect tls hrunning
      · rcases hwrites _ hspawned with ⟨_, _, _, hwrite⟩ | ⟨_, hqueue⟩
        · cases hwrite
        · cases hqueue
    · rw [hsent]
      exact fun hqueue => h.runtime port hport (.inr hqueue)

theorem drained (h : connection.Listens) : connection.drained.Listens := by
  rw [ClientConnection.drained]
  cases hport : connection.mainPort with
  | none =>
    refine ⟨?_, ?_, h.connects, ?_⟩ <;>
      · intro port hport'
        cases hport'
  | some port => exact h.of_port hport ⟨rfl, rfl, rfl, rfl⟩ rfl

/-- The turn of `check_listening_to_main_port`, as `FindsReadHalf` has it. -/
theorem checkListening (h : connection.Listens) (hfinds : connection.FindsReadHalf) :
    connection.checkListening.Listens ∧ ∀ port, connection.checkListening.mainPort = some port →
      port.connected = true → connection.checkListening.ReaderStarted port := by
  rw [ClientConnection.checkListening]
  cases hport : connection.mainPort with
  | none =>
    rw [onMainPort_none hport]
    refine ⟨h, fun port hport' => ?_⟩
    cases hport.symm.trans hport'
  | some port =>
    rw [mainPort_onMainPort hport]
    cases hlistening : port.listening with
    | true =>
      rw [ClientPort.startListening_of_listening hlistening]
      simp only [List.append_nil]
      refine ⟨h.of_port hport ⟨rfl, rfl, rfl, rfl⟩ rfl, ?_⟩
      intro port' hport' _
      cases hport'
      exact (h.listening port hport hlistening).mono rfl rfl (List.Subset.refl _)
    | false =>
      cases hhalf : port.readHalf with
      | none =>
        have hmarks : port.marksFirst connection.runtime = false := by
          cases hmarks : port.marksFirst connection.runtime with
          | false => rfl
          | true =>
            have hsome := hfinds port hport hlistening hmarks
            rw [hhalf] at hsome
            cases hsome
        rw [ClientPort.startListening_of_none hlistening hhalf, hmarks, ← hlistening]
        simp only [List.append_nil]
        refine ⟨h.of_port hport ⟨rfl, rfl, rfl, rfl⟩ rfl, ?_⟩
        intro port' hport' hconnected
        cases hport'
        have hsome := (h.half port hport).mp hconnected
        rw [hhalf] at hsome
        cases hsome
      | some stream =>
        have hconnected := (h.half port hport).mpr (by rw [hhalf]; rfl)
        have hruntime := h.runtime port hport (.inl hconnected)
        rw [ClientPort.startListening_of_readHalf hlistening hhalf hruntime]
        have hreader : ∀ port', some { port with listening := true } = some port' →
            ReaderStarted { connection with
              mainPort := some { port with listening := true }
              spawned := connection.spawned ++ [.read stream port.settings.framing]
              running := connection.running ++ [.read stream port.settings.framing] } port' := by
          intro port' hport'
          cases hport'
          exact ⟨stream, hhalf, List.mem_append_right _ List.mem_cons_self⟩
        refine ⟨⟨?_, fun port' hport' _ => hreader port' hport', ?_, fun _ _ _ => hruntime⟩,
          fun port' hport' _ => hreader port' hport'⟩
        · intro port' hport'
          cases hport'
          exact h.half port hport
        · intro _ _ _
          exact hruntime

/-- **The turn of `check_listening_to_main_port`** leaves the connection read exactly when it
finds a read half wherever it would set the mark anyway. -/
theorem checkListening_iff (h : connection.Listens) :
    connection.checkListening.BeingRead ↔ connection.FindsReadHalf := by
  constructor
  · intro hread port hport hlistening hmarks
    cases hhalf : port.readHalf with
    | some stream => rfl
    | none =>
      have hafter := hread.listening
      unfold ClientConnection.checkListening at hafter
      rw [mainPort_onMainPort hport, ClientPort.startListening_of_none hlistening hhalf,
        hmarks] at hafter
      obtain ⟨stream, hstream, -⟩ := hafter _ rfl rfl
      cases hhalf.symm.trans hstream
  · intro hfinds
    obtain ⟨hlistens, hconnected⟩ := h.checkListening hfinds
    exact ⟨fun port hport hc => .inl (hconnected port hport hc), hlistens.listening⟩

theorem turn (h : connection.Listens) {system : ClientSystem}
    (hfinds : system = .checkListeningToMainPort → connection.FindsReadHalf) :
    (system.turn connection).Listens := by
  cases system with
  | checkMainPortDropped => exact h.checkDropped
  | startConnections => exact h.startUnlessConnected
  | checkConnectedToMainPort => exact h.checkConnected
  | checkListeningToMainPort => exact (h.checkListening (hfinds rfl)).1

end Listens

end ClientConnection

/-! ## The runs of a client -/

section Runs
open ClientApp
variable {τ : Type} [DecidableEq τ] [UserMessages τ] [Ciborium τ]

/-- A step of a client, with the states on both sides. -/
abbrev ClientTransition (τ : Type) [DecidableEq τ] [UserMessages τ] [Ciborium τ] :=
  Machine.Transition (ClientApp τ) (ClientInput τ) (List (WorldMessage τ))

/-- The step is the last system of a frame. -/
def EndsFrame (t : ClientTransition τ) : Prop := t.input = .first .checkListeningToMainPort

def ClientApp.Listens (app : ClientApp τ) : Prop :=
  ∀ name connection, app.connections.lookup name = some connection → connection.Listens

/-- Every connection of the client is being read. -/
def ClientApp.BeingRead (app : ClientApp τ) : Prop :=
  ∀ name connection, app.connections.lookup name = some connection → connection.BeingRead

def ClientApp.FindsReadHalf (app : ClientApp τ) : Prop :=
  ∀ name connection, app.connections.lookup name = some connection → connection.FindsReadHalf

variable {t : ClientTransition τ}

theorem listens_step (h : t.pre.Listens) (hof : t.Of (clientMachine τ))
    (hfinds : EndsFrame t → t.pre.FindsReadHalf) : t.post.Listens := by
  intro name after hlookup
  cases step_change hof hlookup with
  | created new => exact .created new
  | kept lookup => exact h name after lookup
  | turned lookup asked =>
    apply (h name _ lookup).turn
    rintro rfl
    exact hfinds asked name _ lookup
  | received lookup _ runs installed does => exact (h name _ lookup).receive runs installed does
  | sent lookup => exact (h name _ lookup).sent
  | drained lookup => exact (h name _ lookup).drained
  | @identified localUuid before lookup =>
    have hbefore := h name before lookup
    exact ⟨hbefore.half, hbefore.listening, hbefore.connects, hbefore.runtime⟩

theorem beingRead_step_iff (h : t.pre.Listens) (hof : t.Of (clientMachine τ))
    (hends : EndsFrame t) : t.post.BeingRead ↔ t.pre.FindsReadHalf := by
  have hpost : ∀ name, t.post.connections.lookup name =
      (t.pre.connections.lookup name).map ClientConnection.checkListening := by
    intro name
    have hstep : t.pre.step (.first .checkListeningToMainPort) = some (t.post, t.output) :=
      hends ▸ hof
    have hlast : ClientSystem.checkListeningToMainPort ≠ .checkMainPortDropped := nofun
    rw [step_first hstep, ClientSystem.lookup_run hlast]
    rfl
  constructor
  · intro hread name before hlookup
    have hafter := hpost name
    rw [hlookup] at hafter
    exact (h name before hlookup).checkListening_iff.mp (hread name _ hafter)
  · intro hfinds name after hlookup
    rw [hpost] at hlookup
    obtain ⟨before, hbefore, rfl⟩ := Option.map_eq_some_iff.mp hlookup
    exact (h name before hbefore).checkListening_iff.mpr (hfinds name before hbefore)

/-- **When a connected client is being read** at the end of every frame: exactly when
`start_listening_to_server`, wherever it sets the mark without looking, is called with a read
half. -/
theorem beingRead_iff (ts : List (ClientTransition τ)) (app : ClientApp τ)
    (h : (clientMachine τ).Run .new ts app) :
    (∀ t ∈ ts, EndsFrame t → t.post.BeingRead) ↔
      ∀ t ∈ ts, EndsFrame t → t.pre.FindsReadHalf := by
  have hnew : (new : ClientApp τ).Listens := by
    intro name connection hlookup
    cases hlookup
  refine h.forall_iff (fun _ app => app.Listens) hnew ?_ ?_
  · intro ts t _ hlistens hof hfinds
    exact ⟨fun hends => (beingRead_step_iff hlistens hof hends).mpr (hfinds hends),
      listens_step hlistens hof hfinds⟩
  · intro ts t _ hlistens hof hread hends
    exact (beingRead_step_iff hlistens hof hends).mp (hread hends)

end Runs

namespace Sample

/-- A client whose connection comes up in the second frame. -/
def slowInputs : List (ClientInput Sample) :=
  .startConnection "main" (.client (.tcp .default)) ::
    (ClientSystem.firstChain.map .first ++
      .task "main" (.connect true false) (.connectedToServer ⟨0, .stream⟩) ::
        ClientSystem.firstChain.map .first)

def slowRun : List (ClientTransition Sample) × ClientApp Sample :=
  ((clientMachine Sample).exec .new slowInputs).getD ([], .new)

theorem run_slowRun : (clientMachine Sample).Run .new slowRun.1 slowRun.2 := by
  have hexec : (clientMachine Sample).exec .new slowInputs = some slowRun := rfl
  exact .of_exec hexec

end Sample

theorem beingRead_slowRun :
    (∀ t ∈ Sample.slowRun.1, EndsFrame t → t.post.BeingRead) ↔
      ∀ t ∈ Sample.slowRun.1, EndsFrame t → t.pre.FindsReadHalf :=
  beingRead_iff _ _ Sample.run_slowRun

/-- After the second frame the client is connected, nothing reads, and nothing says so. -/
theorem slowRun_not_read :
    ¬∀ ts app, (clientMachine Sample).Run .new ts app →
      ∀ t ∈ ts, EndsFrame t → t.post.BeingRead := by
  intro h
  have hread := h _ _ Sample.run_slowRun (Sample.slowRun.1.getLast (by decide))
    (List.getLast_mem _) rfl "main" _ rfl
  rcases hread.connected _ rfl rfl with ⟨stream, -, hspawned⟩ | hdown
  · have hone : ClientTask.read stream (some (.u32, .littleEndian)) ∈
        [ClientTask.connect true false] := hspawned
    cases List.mem_singleton.mp hone
  · exact hdown rfl

end Inator
