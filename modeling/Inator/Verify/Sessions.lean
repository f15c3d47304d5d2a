import Inator.Ports.Sessions
import Inator.Verify.Pending

/-! # No stale teardown

A notification that `check_port_dropped` takes carries no number, and tears down whatever the port
has. In a `ClientTcp` and a `WasmClient` it can only be the current attempt's: a connect task, a
stream it has passed on, the reader of its connection and their notification are never there
together, and `connect` does nothing while one of them is. -/

namespace Inator

namespace ClientPort.Single
variable {port : ClientPort} {running running' : List ClientTask}

theorem of_perm (h : port.Single running) (hperm : running'.Perm running) :
    port.Single running' :=
  h.of_same ⟨rfl, rfl, rfl, rfl, rfl, rfl⟩ (hperm.countP_eq _).le (hperm.countP_eq _).le

/-- A connected port is connecting. -/
theorem connecting (h : port.Single running) (hup : port.connected = true) :
    port.connecting = true := by
  have hattempts := h.attempts
  rw [ClientPort.attempts, if_pos hup] at hattempts
  cases hconnecting : port.connecting with
  | true => rfl
  | false =>
    rw [hconnecting, if_neg Bool.false_ne_true] at hattempts
    omega

/-- A port that is not connecting is free of attempts. -/
theorem idle (h : port.Single running) (hconnecting : port.connecting = false) :
    port.connected = false ∧ port.connectedToServer = [] ∧ port.connectionDown = [] ∧
      ∀ task ∈ running, task.connects = false ∧ task.reads = false := by
  have hattempts := h.attempts
  have hsignals := h.signals
  rw [hconnecting, if_neg Bool.false_ne_true, ClientPort.attempts] at hattempts
  rw [hconnecting, if_neg Bool.false_ne_true, ClientPort.signals] at hsignals
  refine ⟨?_, List.eq_nil_of_length_eq_zero (by omega), List.eq_nil_of_length_eq_zero (by omega),
    fun task htask => ⟨?_, ?_⟩⟩
  · cases hup : port.connected with
    | false => rfl
    | true =>
      rw [if_pos hup] at hattempts
      omega
  · exact Bool.eq_false_iff.mpr (List.countP_eq_zero.mp (by omega) task htask)
  · exact Bool.eq_false_iff.mpr (List.countP_eq_zero.mp (by omega) task htask)

end ClientPort.Single

namespace SessionPort
variable {s : SessionPort} {task : ClientTask} {attempt : Nat} {event : ClientEvent}

/-- The connect tasks and readers that run, and the streams and notifications that are queued. -/
def tokens (s : SessionPort) : Nat :=
  s.running.countP (·.1.connects) + s.port.connectedToServer.length +
    s.running.countP (·.1.reads) + s.port.connectionDown.length

/-- Everything that is under way is the latest attempt's, and so are the halves of a connected
port. -/
structure Current (s : SessionPort) : Prop where
  single : s.port.Single (s.running.map Prod.fst)
  streams : s.streams.length = s.port.connectedToServer.length
  notifications : s.notifications.length = s.port.connectionDown.length
  running : ∀ r ∈ s.running, r.1.connects = true ∨ r.1.reads = true → r.2 = s.attempt
  arrived : ∀ n ∈ s.streams, n = s.attempt
  notified : ∀ n ∈ s.notifications, n = s.attempt
  halves : s.port.connected = true →
    s.port.writeHalf.isSome ∧ s.port.readHalf.isSome ∧ s.installed = s.attempt

namespace Current

theorem new (settings : ClientSettings) : (SessionPort.new settings).Current where
  single := .new settings
  streams := rfl
  notifications := rfl
  running _ hr := absurd hr List.not_mem_nil
  arrived _ hn := absurd hn List.not_mem_nil
  notified _ hn := absurd hn List.not_mem_nil
  halves hup := absurd hup Bool.false_ne_true

theorem connect (h : s.Current) (runtime : Option Runtime) : (s.connect runtime).Current := by
  have hsingle := h.single.connect runtime
  rcases s.port.connect_cases runtime with hnone | ⟨hconnecting, hunnamed | ⟨retry, tls, hstarts⟩⟩
  · simp only [SessionPort.connect, hnone, List.map_nil, List.append_nil, List.length_nil,
      Nat.add_zero]
    exact ⟨h.single, h.streams, h.notifications, h.running, h.arrived, h.notified, h.halves⟩
  · rw [hunnamed, List.append_nil] at hsingle
    simp only [SessionPort.connect, hunnamed, List.map_nil, List.append_nil, List.length_nil,
      Nat.add_zero]
    exact ⟨hsingle, h.streams, h.notifications, h.running, h.arrived, h.notified, h.halves⟩
  · -- nothing of the earlier attempts is left
    obtain ⟨hdown, harrived, hnotified, htasks⟩ := h.single.idle hconnecting
    have hstreams : s.streams = [] :=
      List.eq_nil_of_length_eq_zero (h.streams.trans (by simp [harrived]))
    have hnotifications : s.notifications = [] :=
      List.eq_nil_of_length_eq_zero (h.notifications.trans (by simp [hnotified]))
    rw [hstarts] at hsingle
    simp only [SessionPort.connect, hstarts, List.map_cons, List.map_nil, List.length_singleton]
    refine ⟨?_, h.streams, h.notifications, ?_, ?_, ?_, ?_⟩
    · rw [List.map_append]
      exact hsingle
    · intro r hr hkind
      rcases List.mem_append.mp hr with hr | hr
      · obtain ⟨hconnects, hreads⟩ := htasks r.1 (List.mem_map_of_mem hr)
        rw [hconnects, hreads] at hkind
        rcases hkind with hkind | hkind <;> cases hkind
      · cases List.mem_singleton.mp hr
        rfl
    · intro n hn
      rw [hstreams] at hn
      cases hn
    · intro n hn
      rw [hnotifications] at hn
      cases hn
    · intro hup
      cases hup.symm.trans hdown

theorem checkConnectedToServer (h : s.Current) : s.checkConnectedToServer.Current := by
  have hsingle := h.single.checkConnectedToServer
  rcases s.port.checkConnected_cases with ⟨-, hnone⟩ | ⟨hdown, stream, rest, harrived, hinstalls⟩
  · simp only [SessionPort.checkConnectedToServer, hnone]
    exact h
  · rw [hinstalls] at hsingle
    simp only [SessionPort.checkConnectedToServer, hinstalls]
    have hlength := h.streams
    have hcurrent := h.arrived
    rw [harrived] at hlength
    cases hstreams : s.streams with
    | nil =>
      rw [hstreams] at hlength
      cases hlength
    | cons n streams =>
      rw [hstreams] at hlength hcurrent
      exact ⟨hsingle, Nat.succ.inj hlength, h.notifications, h.running,
        fun m hm => hcurrent m (List.mem_cons_of_mem _ hm), h.notified,
        fun _ => ⟨rfl, rfl, hcurrent n List.mem_cons_self⟩⟩

theorem startListeningToServer (h : s.Current) (runtime : Option Runtime) :
    (s.startListeningToServer runtime).Current := by
  have hsingle := h.single.startListeningToServer runtime
  rcases s.port.startListening_cases runtime with
    hnone | ⟨-, ⟨-, hmarks⟩ | ⟨stream, hhalf, hreads⟩⟩
  · simp only [SessionPort.startListeningToServer, hnone, List.map_nil, List.append_nil]
    exact h
  · rw [hmarks, List.append_nil] at hsingle
    simp only [SessionPort.startListeningToServer, hmarks, List.map_nil, List.append_nil]
    exact ⟨hsingle, h.streams, h.notifications, h.running, h.arrived, h.notified, h.halves⟩
  · have hup := h.single.half (by rw [hhalf]; rfl)
    rw [hreads] at hsingle
    simp only [SessionPort.startListeningToServer, hreads, List.map_cons, List.map_nil]
    refine ⟨?_, h.streams, h.notifications, ?_, h.arrived, h.notified, h.halves⟩
    · rw [List.map_append]
      exact hsingle
    · intro r hr hkind
      rcases List.mem_append.mp hr with hr | hr
      · exact h.running r hr hkind
      · cases List.mem_singleton.mp hr
        exact (h.halves hup).2.2

theorem checkPortDropped (h : s.Current) : s.checkPortDropped.1.Current := by
  have hsingle := h.single.checkPortDropped
  rw [SessionPort.checkPortDropped]
  rw [ClientPort.checkPortDropped] at hsingle ⊢
  cases hdown : s.port.connectionDown with
  | nil => exact h
  | cons notification rest =>
    rw [hdown] at hsingle
    have hlength := h.notifications
    rw [hdown, List.length_cons] at hlength
    refine ⟨hsingle, h.streams, ?_, h.running, h.arrived, ?_, ?_⟩
    · rw [List.length_tail, hlength]
      rfl
    · exact fun n hn => h.notified n (List.mem_of_mem_tail hn)
    · exact fun hup => absurd hup Bool.false_ne_true

/-- A task that may yet send a stream or a notification is the latest attempt's. -/
theorem own (h : s.Current) (hruns : (task, attempt) ∈ s.running)
    (hdoes : event.By s.port.settings task)
    (hsends : event = .connectionDown ∨ ∃ stream, event = .connectedToServer stream) :
    attempt = s.attempt := by
  apply h.running _ hruns
  cases task with
  | connect => exact .inl rfl
  | read => exact .inr rfl
  | write | sendQueue =>
    rcases hsends with rfl | ⟨stream, rfl⟩
    · cases hdoes
    · cases hdoes

theorem single_receive (h : s.Current)
    (hsettings : ∀ settings, s.port.settings ≠ .webSocket settings)
    (hruns : (task, attempt) ∈ s.running) (hdoes : event.By s.port.settings task) :
    (s.port.receive event).Single ((s.receive task attempt event).running.map Prod.fst) := by
  have hsingle := h.single.receive hsettings (List.mem_map_of_mem hruns) hdoes
  simp only [SessionPort.receive]
  split
  · rename_i hreturns
    rw [if_pos hreturns] at hsingle
    apply hsingle.of_perm
    have hcons := (List.perm_cons_erase hruns).map Prod.fst
    exact (hcons.symm.trans (List.perm_cons_erase (List.mem_map_of_mem hruns))).cons_inv
  · rename_i hgoes
    rw [if_neg hgoes] at hsingle
    exact hsingle

/-- What a task sends is its own attempt's. -/
theorem receive (h : s.Current) (hsettings : ∀ settings, s.port.settings ≠ .webSocket settings)
    (hruns : (task, attempt) ∈ s.running) (hdoes : event.By s.port.settings task) :
    (s.receive task attempt event).Current := by
  have hsettled := h.single_receive hsettings hruns hdoes
  have hkept : ∀ r ∈ (s.receive task attempt event).running,
      r.1.connects = true ∨ r.1.reads = true → r.2 = s.attempt := by
    intro r hr
    apply h.running r
    simp only [SessionPort.receive] at hr
    split at hr
    · exact List.mem_of_mem_erase hr
    · exact hr
  cases event with
  | connectedToServer stream =>
    have hown := h.own hruns hdoes (.inr ⟨stream, rfl⟩)
    refine ⟨hsettled, ?_, h.notifications, hkept, ?_, h.notified, h.halves⟩
    · simp only [SessionPort.receive, ClientPort.receive, List.length_append, h.streams,
        List.length_singleton]
    · intro n hn
      rcases List.mem_append.mp hn with hn | hn
      · exact h.arrived n hn
      · exact (List.mem_singleton.mp hn).trans hown
  | connectionDown =>
    have hown := h.own hruns hdoes (.inl rfl)
    refine ⟨hsettled, h.streams, ?_, hkept, h.arrived, ?_, h.halves⟩
    · simp only [SessionPort.receive, ClientPort.receive, List.length_append, h.notifications,
        List.length_singleton]
    · intro n hn
      rcases List.mem_append.mp hn with hn | hn
      · exact h.notified n hn
      · exact (List.mem_singleton.mp hn).trans hown
  | messageReceived bytes =>
    exact ⟨hsettled, h.streams, h.notifications, hkept, h.arrived, h.notified, h.halves⟩
  | returned | panicked =>
    exact ⟨hsettled, h.streams, h.notifications, hkept, h.arrived, h.notified, h.halves⟩

theorem step {s' : SessionPort} {input : SessionInput} {output : Option Nat} (h : s.Current)
    (hsettings : ∀ settings, s.port.settings ≠ .webSocket settings)
    (hstep : s.Steps input s' output) : s'.Current := by
  cases hstep with
  | connect runtime => exact h.connect runtime
  | checkConnectedToServer => exact h.checkConnectedToServer
  | startListeningToServer runtime => exact h.startListeningToServer runtime
  | checkPortDropped => exact h.checkPortDropped
  | task runs does => exact h.receive hsettings runs does

/-- At most one thing is under way. -/
theorem tokens_le (h : s.Current) : s.tokens ≤ 1 := by
  have hsignals := h.single.signals
  have hone := ClientPort.Single.le_one s.port
  rw [ClientPort.signals, List.countP_map, List.countP_map] at hsignals
  change s.running.countP (·.1.connects) + s.running.countP (·.1.reads) + _ + _ + _ ≤ _ at hsignals
  rw [tokens]
  omega

/-- A notification is the latest attempt's. -/
theorem takes (h : s.Current) (hdown : s.port.connectionDown ≠ []) :
    s.checkPortDropped.2 = some s.attempt := by
  have hlength := h.notifications
  rw [SessionPort.checkPortDropped, ClientPort.checkPortDropped]
  cases hqueue : s.port.connectionDown with
  | nil => exact absurd hqueue hdown
  | cons notification rest =>
    rw [hqueue, List.length_cons] at hlength
    cases hnotifications : s.notifications with
    | nil =>
      rw [hnotifications] at hlength
      cases hlength
    | cons n notifications =>
      have hcurrent := h.notified n (by rw [hnotifications]; exact List.mem_cons_self)
      rw [hcurrent]
      rfl

end Current

section Steps
variable {s' : SessionPort} {input : SessionInput} {output : Option Nat}

/-- What a step does to the port. -/
theorem Steps.port_cases (h : s.Steps input s' output) :
    (∃ connecting listening,
      s'.port = { s.port with connecting := connecting, listening := listening }) ∨
    (∃ event, s'.port = s.port.receive event) ∨
    (∃ rest, s'.port = { s.port with
      connectionDown := rest
      connected := false
      connecting := false
      listening := false
      writeHalf := none
      readHalf := none }) ∨
    input = .checkConnectedToServer ∧ s.port.connected = false ∧
      ∃ stream rest, s.port.connectedToServer = stream :: rest ∧ s'.port = { s.port with
        connectedToServer := rest
        connected := true
        writeHalf := some stream
        readHalf := some stream } := by
  cases h with
  | connect runtime =>
    obtain ⟨connecting, hconnect⟩ := s.port.connect_spec runtime
    exact .inl ⟨connecting, s.port.listening, hconnect⟩
  | checkConnectedToServer =>
    rcases s.port.checkConnected_cases with ⟨-, hnone⟩ | ⟨hdown, stream, rest, harrived, hinstalls⟩
    · exact .inl ⟨s.port.connecting, s.port.listening,
        by simp only [SessionPort.checkConnectedToServer, hnone]⟩
    · exact .inr (.inr (.inr ⟨rfl, hdown, stream, rest, harrived,
        by simp only [SessionPort.checkConnectedToServer, hinstalls]⟩))
  | startListeningToServer runtime =>
    obtain ⟨listening, hlistening⟩ := s.port.startListening_spec runtime
    exact .inl ⟨s.port.connecting, listening, hlistening⟩
  | checkPortDropped =>
    rw [SessionPort.checkPortDropped, ClientPort.checkPortDropped]
    cases s.port.connectionDown with
    | nil => exact .inl ⟨s.port.connecting, s.port.listening, rfl⟩
    | cons notification rest => exact .inr (.inr (.inl ⟨rest, rfl⟩))
  | task => exact .inr (.inl ⟨_, rfl⟩)

theorem Steps.settings (h : s.Steps input s' output) : s'.port.settings = s.port.settings := by
  rcases h.port_cases with ⟨_, _, h⟩ | ⟨event, h⟩ | ⟨_, h⟩ | ⟨-, -, _, _, -, h⟩ <;> rw [h]
  cases event <;> rfl

end Steps

end SessionPort

/-- **No stale teardown.** A `ClientTcp` and a `WasmClient` have at most one connect task, queued
stream, reader or notification; a notification that `check_port_dropped` takes is that of the
attempt, or of the connection, which it tears down; and a connected port is connecting, with both
halves. -/
theorem no_stale_teardown (settings : ClientSettings)
    (hsettings : ∀ webSocket, settings ≠ .webSocket webSocket) (ts : List SessionTransition)
    (s : SessionPort) (h : sessionMachine.Run (.new settings) ts s) :
    s.tokens ≤ 1 ∧
      (s.port.connected = true →
        s.port.connecting = true ∧ s.port.writeHalf.isSome ∧ s.port.readHalf.isSome) ∧
      ∀ t ∈ ts, t.input = .checkPortDropped → t.pre.port.connectionDown ≠ [] →
        t.output = some t.pre.attempt ∧
          (t.pre.port.connected = true → t.pre.installed = t.pre.attempt) := by
  have hinvariant : ∀ {ts s}, sessionMachine.Run (.new settings) ts s →
      s.Current ∧ s.port.settings = settings := by
    intro ts s h
    refine h.invariant (fun s => s.Current ∧ s.port.settings = settings) ⟨.new settings, rfl⟩ ?_
    intro t ht hof
    have hstep := SessionPort.step_steps hof
    exact ⟨ht.1.step (fun webSocket hweb => hsettings webSocket (ht.2.symm.trans hweb)) hstep,
      hstep.settings.trans ht.2⟩
  have hcurrent := (hinvariant h).1
  refine ⟨hcurrent.tokens_le, fun hup => ?_, fun t ht hinput hdown => ?_⟩
  · obtain ⟨hwrite, hread, -⟩ := hcurrent.halves hup
    exact ⟨hcurrent.single.connecting hup, hwrite, hread⟩
  · obtain ⟨before, after, rfl⟩ := List.append_of_mem ht
    obtain ⟨hrun, hof⟩ := h.of_split rfl
    have hpre := (hinvariant hrun).1
    have houtput : t.output = t.pre.checkPortDropped.2 := by
      have hstep := SessionPort.step_steps hof
      rw [hinput] at hstep
      generalize t.post = post, t.output = output at hstep
      cases hstep
      rfl
    exact ⟨houtput.trans (hpre.takes hdown), fun hup => (hpre.halves hup).2.2⟩

namespace Sample

/-- A `ClientTcp` is connected, loses its connection, and connects again. -/
def reconnectInputs : List SessionInput :=
  let stream : Stream := ⟨0, .stream⟩
  [.connect (some .new), .task (.connect true false) 1 (.connectedToServer stream),
    .checkConnectedToServer, .startListeningToServer (some .new),
    .task (.read stream (some (.u32, .littleEndian))) 1 .connectionDown, .checkPortDropped,
    .connect (some .new), .checkPortDropped]

def reconnectRun : List SessionTransition × SessionPort :=
  (sessionMachine.exec (.new (.tcp .default)) reconnectInputs).getD ([], .new (.tcp .default))

theorem run_reconnectRun :
    sessionMachine.Run (.new (.tcp .default)) reconnectRun.1 reconnectRun.2 := by
  have hexec : sessionMachine.exec (.new (.tcp .default)) reconnectInputs = some reconnectRun := rfl
  exact .of_exec hexec

end Sample

theorem no_stale_teardown_reconnectRun :
    Sample.reconnectRun.2.tokens ≤ 1 ∧
      (Sample.reconnectRun.2.port.connected = true →
        Sample.reconnectRun.2.port.connecting = true ∧
          Sample.reconnectRun.2.port.writeHalf.isSome ∧
            Sample.reconnectRun.2.port.readHalf.isSome) ∧
      ∀ t ∈ Sample.reconnectRun.1, t.input = .checkPortDropped →
        t.pre.port.connectionDown ≠ [] → t.output = some t.pre.attempt ∧
          (t.pre.port.connected = true → t.pre.installed = t.pre.attempt) :=
  no_stale_teardown (.tcp .default) (fun _ h => by cases h) _ _ Sample.run_reconnectRun

end Inator
