import Inator.Verify.Lifecycle

/-! # A client that is marked has a reader

`check_not_authenticated_clients` marks a client in one function and starts its reader in another,
which looks the client up again. `ServerTcp` looks where the client is; `ServerWebSocket` looks
among the authenticated clients, where it cannot be. -/

namespace Inator
open AcceptingPort

/-- The task reads for this client, as unauthenticated. -/
def Task.readsFirst (uuid : Uuid) : Task → Bool
  | .read _ _ target isAuthenticated => !isAuthenticated && target == uuid
  | _ => false

/-- Every unauthenticated client that is marked has had one reader, on its own stream, and no
other client has had one. -/
def AcceptingPort.StartsReaders (s : AcceptingPort) : Prop :=
  ∀ uuid infos, s.port.notAuthenticatedListening.lookup uuid = some infos →
    s.spawned.filter (Task.readsFirst uuid) =
      if infos.listening then
        [.read infos.readWriteType s.port.settings.framing uuid false]
      else []

/-- The step does not ask a `ServerWebSocket` to start a reader. -/
def StartsOnTcp (t : AcceptingTransition) : Prop :=
  t.input = .portOp .checkNotAuthenticatedClients →
    (∃ settings, t.pre.port.settings = .tcp settings) ∨
      ∀ uuid infos, t.pre.port.notAuthenticatedListening.lookup uuid = some infos →
        infos.listening = true

theorem Task.readsFirst_iff {uuid : Uuid} {task : Task} :
    task.readsFirst uuid = true ↔ ∃ stream framing, task = .read stream framing uuid false := by
  cases task with
  | read stream framing target isAuthenticated =>
    simp only [readsFirst, Bool.and_eq_true, Bool.not_eq_true', beq_iff_eq, Task.read.injEq]
    constructor
    · rintro ⟨rfl, rfl⟩
      exact ⟨stream, framing, rfl, rfl, rfl, rfl⟩
    · rintro ⟨_, _, -, -, htarget, hstatus⟩
      exact ⟨hstatus, htarget⟩
  | bind | accept | write => exact iff_of_false nofun nofun

/-! ## The readers that an operation starts -/

namespace ServerPort
variable {port : ServerPort} {uuid : Uuid} {infos : ListeningInfos}

/-- A `ServerTcp` starts one for each client that is not marked. -/
theorem readsFirst_tcp {settings : TcpSettingsServer} (hsettings : port.settings = .tcp settings)
    (runtime : Runtime) (hlookup : port.notAuthenticatedListening.lookup uuid = some infos) :
    (port.checkNotAuthenticatedClients (some runtime)).2.filter (Task.readsFirst uuid) =
      if infos.listening then [] else
        [.read infos.readWriteType port.settings.framing uuid false] := by
  rw [ServerTcp.checkNotAuthenticatedClients_tasks hsettings]
  apply AssocMap.filter_collect _ hlookup
  · intro task htask
    cases hlistening : infos.listening <;> rw [hlistening] at htask
    · rw [List.mem_singleton.mp htask]
      exact beq_self_eq_true uuid
    · cases htask
  · intro key infos hkey _ task htask
    cases hlistening : infos.listening <;> rw [hlistening] at htask
    · rw [List.mem_singleton.mp htask]
      exact beq_eq_false_iff_ne.mpr hkey
    · cases htask

/-- **A `ServerWebSocket` starts none**: the clients that it marks are not authenticated. -/
theorem tasks_webSocket {settings : WebSocketSettingsServer}
    (hsettings : port.settings = .webSocket settings) (hapart : port.Apart)
    (runtime : Option Runtime) : (port.checkNotAuthenticatedClients runtime).2 = [] := by
  refine List.flatMap_eq_nil_iff.mpr fun key hkey => ?_
  obtain ⟨key', infos, hlookup, hmem⟩ := AssocMap.mem_collect.mp hkey
  have hwaiting : key ∈ port.notAuthenticatedListening := by
    split at hmem
    · cases hmem
    · rw [List.mem_singleton.mp hmem]
      exact AssocMap.mem_of_lookup hlookup
  have habsent : port.listeningClients.lookup key = none :=
    AList.lookup_eq_none.mpr fun hlistening => hapart key hlistening hwaiting
  cases runtime with
  | none => simp only [startListeningNotAuthenticatedClient, hsettings,
      ServerWebSocket.startListeningNotAuthenticatedClient]
  | some runtime => simp only [startListeningNotAuthenticatedClient, hsettings,
      ServerWebSocket.startListeningNotAuthenticatedClient, habsent]

/-- Nothing is started if every client is marked. -/
theorem tasks_marked (hmarked : ∀ uuid infos,
      port.notAuthenticatedListening.lookup uuid = some infos → infos.listening = true)
    (runtime : Option Runtime) : (port.checkNotAuthenticatedClients runtime).2 = [] := by
  refine List.flatMap_eq_nil_iff.mpr fun key hkey => ?_
  obtain ⟨key', infos, hlookup, hmem⟩ := AssocMap.mem_collect.mp hkey
  rw [if_pos (hmarked key' infos hlookup)] at hmem
  cases hmem

end ServerPort

/-! ## The runs of a port with a runtime -/

/-- A fresh port whose connection has its runtime. -/
def AcceptingPort.started (settings : ServerSettings) : AcceptingPort :=
  { new settings with runtime := some .new }

/-- There is a runtime, and no reader is for a client that was not given out. -/
structure Attending (s : AcceptingPort) : Prop where
  enrolled : s.Enrolled
  runtime : s.runtime.isSome
  known : ∀ task ∈ s.spawned, ∀ uuid, task.readsFirst uuid = true → uuid ∈ s.issued.map Prod.fst

section Runs
variable {settings : ServerSettings} {s s' : AcceptingPort} {input : AcceptingInput}
  {t : AcceptingTransition}

theorem Attending.start (settings : ServerSettings) : Attending (started settings) where
  enrolled := (Enrolled.start settings).same rfl rfl rfl
  runtime := rfl
  known _ h := absurd h List.not_mem_nil

/-- Authenticating a client starts no first reader. -/
theorem readsFirst_authenticateClient {port : ServerPort} {runtime : Option Runtime}
    {target uuid : Uuid} {task : Task} (h : task ∈ (port.authenticateClient target runtime).2) :
    task.readsFirst uuid = false := by
  cases hinfos : port.notAuthenticatedListening.lookup target with
  | none =>
    rw [ServerPort.authenticateClient_none hinfos] at h
    cases h
  | some infos =>
    rw [ServerPort.authenticateClient_some hinfos] at h
    cases runtime with
    | none => cases h
    | some runtime =>
      rw [List.mem_singleton.mp h]
      rfl

theorem Attending.step (h : Attending s) (hchange : s.Change input s') : Attending s' := by
  have henrolled := h.enrolled.step hchange
  cases hchange with
  | ran =>
    refine ⟨henrolled, h.runtime, fun task htask uuid hfirst => ?_⟩
    rcases List.mem_append.mp htask with hold | hnew
    · exact h.known task hold uuid hfirst
    · obtain ⟨stream, framing, rfl⟩ := Task.readsFirst_iff.mp hfirst
      cases PortOp.run_spawns hnew with
      | read entry => exact List.mem_map_of_mem (h.enrolled.entries _ _ entry)
  | admitted =>
    exact ⟨henrolled, h.runtime, fun task htask uuid hfirst =>
      List.mem_cons_of_mem _ (h.known task htask uuid hfirst)⟩
  | authenticated =>
    refine ⟨henrolled, h.runtime, fun task htask uuid hfirst => ?_⟩
    rcases List.mem_append.mp htask with hold | hnew
    · exact h.known task hold uuid hfirst
    · cases hfirst.symm.trans (readsFirst_authenticateClient hnew)
  | passed | received => exact ⟨henrolled, h.runtime, h.known⟩
  | quiet _ kept => exact ⟨henrolled, kept h.runtime, h.known⟩

/-- An operation that starts no first reader, and leaves the unauthenticated clients as they
were. -/
theorem AcceptingPort.StartsReaders.operated (h : s.StartsReaders) {result : ServerPort × List Task}
    (hsettings : result.1.settings = s.port.settings)
    (hwaiting : ∀ uuid infos, result.1.notAuthenticatedListening.lookup uuid = some infos →
      s.port.notAuthenticatedListening.lookup uuid = some infos)
    (hreads : ∀ uuid, result.2.filter (Task.readsFirst uuid) = []) :
    (s.operated result).StartsReaders := by
  intro uuid infos hlookup
  rw [AcceptingPort.operated, List.filter_append, hreads, List.append_nil, hsettings]
  exact h uuid infos (hwaiting uuid infos hlookup)

theorem filter_readsFirst {tasks : List Task} {uuid : Uuid}
    (h : ∀ stream framing, .read stream framing uuid false ∉ tasks) :
    tasks.filter (Task.readsFirst uuid) = [] := by
  refine List.filter_eq_nil_iff.mpr fun task htask hfirst => ?_
  obtain ⟨stream, framing, rfl⟩ := Task.readsFirst_iff.mp hfirst
  exact h stream framing htask

/-- The clients after they were marked. -/
theorem lookup_marked {port : ServerPort} {uuid : Uuid} {infos : ListeningInfos}
    (runtime : Option Runtime)
    (h : (port.checkNotAuthenticatedClients runtime).1.notAuthenticatedListening.lookup uuid =
      some infos) :
    ∃ before, port.notAuthenticatedListening.lookup uuid = some before ∧
      infos = { before with listening := true } := by
  rw [ServerPort.checkNotAuthenticatedClients, AssocMap.lookup_mapVals] at h
  obtain ⟨before, hbefore, rfl⟩ := Option.map_eq_some_iff.mp h
  exact ⟨before, hbefore, rfl⟩

/-- `check_not_authenticated_clients`, if it does not ask a `ServerWebSocket` to start a reader. -/
theorem AcceptingPort.StartsReaders.marked (h : s.StartsReaders) (hattending : Attending s)
    (hstarts : (∃ settings, s.port.settings = .tcp settings) ∨
      ∀ uuid infos, s.port.notAuthenticatedListening.lookup uuid = some infos →
        infos.listening = true) :
    (s.operated (PortOp.run s.port s.runtime .checkNotAuthenticatedClients)).StartsReaders := by
  obtain ⟨runtime, hruntime⟩ := Option.isSome_iff_exists.mp hattending.runtime
  intro uuid infos hlookup
  rw [hruntime] at hlookup ⊢
  obtain ⟨before, hbefore, rfl⟩ := lookup_marked (some runtime) hlookup
  rw [AcceptingPort.operated, List.filter_append, h uuid before hbefore, if_pos rfl]
  rcases hstarts with ⟨settings, hsettings⟩ | hmarked
  · rw [PortOp.run, ServerPort.readsFirst_tcp hsettings runtime hbefore]
    cases before.listening <;> rfl
  · rw [PortOp.run, ServerPort.tasks_marked hmarked, if_pos (hmarked uuid before hbefore)]
    rfl

theorem AcceptingPort.StartsReaders.step (h : s.StartsReaders) (hattending : Attending s)
    (hchange : s.Change input s')
    (hstarts : input = .portOp .checkNotAuthenticatedClients →
      (∃ settings, s.port.settings = .tcp settings) ∨
        ∀ uuid infos, s.port.notAuthenticatedListening.lookup uuid = some infos →
          infos.listening = true) : s'.StartsReaders := by
  cases hchange with
  | @ran op asked external admits =>
    subst asked
    by_cases hop : op = .checkNotAuthenticatedClients
    · subst hop
      exact h.marked hattending (hstarts rfl)
    have hreads : ∀ uuid, (op.run s.port s.runtime).2.filter (Task.readsFirst uuid) = [] :=
      fun uuid => filter_readsFirst fun stream framing =>
        PortOp.read_notMem_run external hop stream framing uuid false
    have hkeeps : s.port.Keeps (op.run s.port s.runtime).1 (op.run s.port s.runtime).2 :=
      PortOp.run_keeps (ServerPort.admits_eq_none.mp admits)
    exact h.operated hkeeps.settings
      (fun uuid infos => PortOp.lookup_run (ServerPort.admits_eq_none.mp admits) hop) hreads
  | @admitted newUuid stream rest asked fresh queue =>
    intro uuid infos hlookup
    rcases AssocMap.lookup_of_insert hlookup with ⟨rfl, rfl⟩ | hbefore
    · refine List.filter_eq_nil_iff.mpr fun task htask hfirst => ?_
      exact fresh (hattending.known task htask _ hfirst)
    · exact h uuid infos hbefore
  | @authenticated uuid' asked =>
    have hkeeps := s.port.authenticateClient_keeps s.runtime uuid'
    refine h.operated hkeeps.settings
      (fun uuid infos => ServerPort.lookup_authenticateClient) fun uuid => ?_
    refine List.filter_eq_nil_iff.mpr fun task htask => ?_
    rw [readsFirst_authenticateClient htask]
    exact Bool.false_ne_true
  | passed => exact h
  | @received event _ asked =>
    intro uuid infos hlookup
    rw [ServerPort.receive_notAuthenticatedListening] at hlookup
    rw [ServerPort.receive_settings]
    exact h uuid infos hlookup
  | quiet => exact h

/-- A step that keeps the readers right does not ask a `ServerWebSocket` to start one. -/
theorem startsOnTcp_of_startsReaders (hattending : Attending t.pre)
    (hbefore : t.pre.StartsReaders) (hof : t.Of portMachine) (hafter : t.post.StartsReaders) :
    StartsOnTcp t := by
  obtain ⟨pre, input, output, post⟩ := t
  rintro rfl
  cases hsettings : pre.port.settings with
  | tcp settings => exact .inl ⟨settings, rfl⟩
  | webSocket settings =>
    right
    intro uuid infos hlookup
    cases hlistening : infos.listening with
    | true => rfl
    | false =>
      have hpost : post = pre.operated
          (PortOp.run pre.port pre.runtime .checkNotAuthenticatedClients) := by
        have hchange : pre.Change (.portOp .checkNotAuthenticatedClients) post := step_change hof
        cases hchange with
        | ran asked =>
          cases asked
          rfl
        | admitted asked | authenticated asked | passed asked => cases asked
        | received asked | quiet asked => exact absurd rfl (asked _)
      have hmarked : post.port.notAuthenticatedListening.lookup uuid =
          some { infos with listening := true } := by
        rw [hpost, AcceptingPort.operated, PortOp.run, ServerPort.checkNotAuthenticatedClients,
          AssocMap.lookup_mapVals, hlookup]
        rfl
      have hspawned : post.spawned = pre.spawned := by
        rw [hpost, AcceptingPort.operated, PortOp.run,
          ServerPort.tasks_webSocket hsettings hattending.enrolled.apart, List.append_nil]
      -- the client has no reader before the step, and none after it
      have hnone := hbefore uuid infos hlookup
      have hone := hafter uuid _ hmarked
      rw [hspawned, hnone, hlistening] at hone
      cases hone

/-- **When every marked client has its reader**: exactly when `check_not_authenticated_clients`
of a `ServerWebSocket` is never called while a client waits for its reader. -/
theorem startsReaders_iff (settings : ServerSettings) (ts : List AcceptingTransition)
    (s : AcceptingPort) (h : portMachine.Run (.started settings) ts s) :
    (∀ t ∈ ts, t.post.StartsReaders) ↔ ∀ t ∈ ts, StartsOnTcp t := by
  refine h.forall_iff (fun _ s => Attending s ∧ s.StartsReaders) ⟨.start settings, ?_⟩ ?_ ?_
  · intro uuid infos hlookup
    cases hlookup
  · rintro ts t - ⟨hattending, hreaders⟩ hof hstarts
    have hchange := step_change hof
    have hafter := hreaders.step hattending hchange hstarts
    exact ⟨hafter, hattending.step hchange, hafter⟩
  · rintro ts t - ⟨hattending, hreaders⟩ hof hafter
    exact startsOnTcp_of_startsReaders hattending hreaders hof hafter

end Runs

/-- A client of a `ServerWebSocket` is given out, and is to be read. -/
def unreadInputs : List AcceptingInput :=
  [.portOp .connect, .event (.portConnected 0), .portOp .checkPortConnected,
    .portOp .startAcceptingConnections] ++ admitInputs 7 ++ [.portOp .checkNotAuthenticatedClients]

def unreadRun : List AcceptingTransition × AcceptingPort :=
  (portMachine.exec (.started (.webSocket .default)) unreadInputs).getD
    ([], .started (.webSocket .default))

theorem run_unreadRun :
    portMachine.Run (.started (.webSocket .default)) unreadRun.1 unreadRun.2 := by
  have hexec : portMachine.exec (.started (.webSocket .default)) unreadInputs = some unreadRun :=
    rfl
  exact .of_exec hexec

theorem startsReaders_unreadRun :
    (∀ t ∈ unreadRun.1, t.post.StartsReaders) ↔ ∀ t ∈ unreadRun.1, StartsOnTcp t :=
  startsReaders_iff _ _ _ run_unreadRun

/-- The client is marked, and no reader was spawned for it. -/
theorem unreadRun_unread :
    ¬∀ settings ts s, portMachine.Run (.started settings) ts s →
      ∀ t ∈ ts, t.post.StartsReaders := by
  intro h
  have hreaders := h _ _ _ run_unreadRun (unreadRun.1.getLast (by decide)) (List.getLast_mem _)
  have hreader := hreaders 7 ⟨⟨0, .stream⟩, true⟩ rfl
  cases hreader

end Inator
