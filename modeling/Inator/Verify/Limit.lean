import Inator.Verify.Lifecycle

/-! # The connection limit

An accept task drops its permit as soon as it has it, before the handshake, so its semaphore has
all its permits at every step: no connection is ever rejected, and none ever waits. The limit then
holds only as far as the connections that come in keep it. -/

namespace Inator
open AcceptingPort

/-- The clients of the two maps. -/
def AcceptingPort.held (s : AcceptingPort) : Nat :=
  s.port.notAuthenticatedListening.keys.length + s.port.listeningClients.keys.length

/-- The accepted clients that are not yet disconnected. -/
def AcceptingPort.accepted (s : AcceptingPort) : Nat := s.port.clientConnected.length + s.held

/-! ## The semaphores -/

/-- The semaphore of the task, if it has one, has all of `limit` permits. -/
def Acceptor.Full (acceptor : Acceptor) (limit : Nat) : Prop :=
  ∀ semaphore, acceptor.semaphore = some semaphore → semaphore = limit ∧ 0 < limit

namespace Acceptor
variable {acceptor acceptor' : Acceptor} {limit : Nat}

theorem release_tryAcquire {semaphore permit : Semaphore}
    (h : semaphore.tryAcquire = some permit) : permit.release = semaphore := by
  rw [Semaphore.tryAcquire] at h
  split at h
  · cases h
  · rename_i hzero
    cases h
    exact Nat.sub_add_cancel (Nat.pos_of_ne_zero hzero)

theorem tryAcquire_of_pos {semaphore : Semaphore} (h : 0 < semaphore) :
    semaphore.tryAcquire = some (semaphore - 1) := if_neg (Nat.ne_of_gt h)

theorem Full.of_semaphore (h : acceptor.Full limit) (hsame : acceptor'.semaphore =
    acceptor.semaphore) : acceptor'.Full limit := by
  intro semaphore hsemaphore
  exact h semaphore (hsame ▸ hsemaphore)

/-- A task that gets a permit gives it back at once. -/
theorem Full.permitted (h : acceptor.Full limit) {semaphore permit : Semaphore}
    (hsemaphore : acceptor.semaphore = some semaphore)
    (hpermit : semaphore.tryAcquire = some permit) : (acceptor.permitted permit).Full limit := by
  apply h.of_semaphore
  rw [hsemaphore, Acceptor.permitted, release_tryAcquire hpermit]

theorem Full.accepted (h : acceptor.Full limit) : acceptor.accepted.Full limit := by
  simp only [Acceptor.accepted]
  split
  · exact h.of_semaphore rfl
  · rename_i semaphore hsemaphore
    split
    · split
      · rename_i permit hpermit
        exact h.permitted hsemaphore hpermit
      · exact h
    · exact h.of_semaphore rfl

theorem Full.acquired (h : acceptor.Full limit) (hacquired : acceptor.acquired = some acceptor') :
    acceptor'.Full limit := by
  simp only [Acceptor.acquired] at hacquired
  split at hacquired
  · cases hacquired
  · rename_i semaphore hsemaphore
    obtain ⟨permit, hpermit, rfl⟩ := Option.map_eq_some_iff.mp hacquired
    exact h.permitted hsemaphore hpermit

/-- A port gives the task the limit of its settings. -/
theorem Full.spawn {port : ServerPort} {task : Task} (h : port.Spawns task)
    (hspawn : spawn task = some acceptor) :
    acceptor.Full port.settings.listener.maxConnections := by
  cases h with
  | accept =>
    simp only [Acceptor.spawn] at hspawn
    cases hlimit : Semaphore.ofMaxConnections port.settings.listener.maxConnections with
    | error text =>
      rw [hlimit] at hspawn
      cases hspawn
    | ok made =>
      rw [hlimit] at hspawn
      cases hspawn
      intro semaphore hsemaphore
      cases hsemaphore
      exact Semaphore.ofMaxConnections_eq hlimit
  | bind | read => cases hspawn

/-- **A task with all its permits rejects no connection.** -/
theorem Full.accepted_phase (h : acceptor.Full limit) :
    acceptor.accepted.phase = .handshaking ∨ acceptor.accepted.phase = .acquiring := by
  simp only [Acceptor.accepted]
  split
  · exact .inl rfl
  · rename_i semaphore hsemaphore
    obtain ⟨rfl, hpos⟩ := h semaphore hsemaphore
    rw [tryAcquire_of_pos hpos]
    split
    · exact .inl rfl
    · exact .inr rfl

/-- Only a task with a semaphore goes to it for a permit. -/
theorem accepted_limited (hphase : acceptor.phase = .accepting)
    (hacquiring : acceptor.accepted.phase = .acquiring) : acceptor.accepted.semaphore.isSome := by
  cases hsemaphore : acceptor.semaphore with
  | none =>
    simp only [Acceptor.accepted, hsemaphore] at hacquiring
    cases hacquiring
  | some semaphore =>
    cases hrecuse : acceptor.recuseWhenFull with
    | true =>
      cases hpermit : semaphore.tryAcquire with
      | none =>
        simp only [Acceptor.accepted, hsemaphore, hrecuse, hpermit, if_true, hphase] at hacquiring
        cases hacquiring
      | some permit =>
        simp only [Acceptor.accepted, hsemaphore, hrecuse, hpermit, if_true,
          Acceptor.permitted] at hacquiring
        cases hacquiring
    | false =>
      simp only [Acceptor.accepted, hsemaphore, hrecuse, Bool.false_eq_true, if_false,
        Option.isSome_some]

/-- **A task with all its permits need not wait for one.** -/
theorem Full.acquired_isSome (h : acceptor.Full limit) (hlimited : acceptor.semaphore.isSome) :
    acceptor.acquired.isSome := by
  obtain ⟨semaphore, hsemaphore⟩ := Option.isSome_iff_exists.mp hlimited
  obtain ⟨rfl, hpos⟩ := h semaphore hsemaphore
  simp only [Acceptor.acquired, hsemaphore, tryAcquire_of_pos hpos, Option.map_some,
    Option.isSome_some]

end Acceptor

/-- Every accept task of the port has all its permits. -/
def AcceptingPort.Unreserved (s : AcceptingPort) : Prop :=
  ∀ acceptor ∈ s.acceptors, acceptor.Full s.port.settings.listener.maxConnections

namespace AcceptingPort.Unreserved
variable {s after : AcceptingPort} {input : AcceptingInput} {output : Unit}

theorem start (settings : ServerSettings) : (new settings).Unreserved :=
  fun _ h => absurd h List.not_mem_nil

theorem same (h : s.Unreserved) (hsettings : after.port.settings = s.port.settings)
    (hacceptors : after.acceptors = s.acceptors) : after.Unreserved := by
  rw [Unreserved, hsettings, hacceptors]
  exact h

/-- A step of one task. -/
theorem set (h : s.Unreserved) (hsettings : after.port.settings = s.port.settings) {i : Nat}
    {acceptor acceptor' : Acceptor} (hlookup : s.acceptors[i]? = some acceptor)
    (hacceptors : after.acceptors = s.acceptors.set i acceptor')
    (hfull : acceptor.Full s.port.settings.listener.maxConnections →
      acceptor'.Full s.port.settings.listener.maxConnections) : after.Unreserved := by
  rw [Unreserved, hsettings, hacceptors]
  intro a ha
  rcases List.mem_or_eq_of_mem_set ha with hold | rfl
  · exact h a hold
  · exact hfull (h acceptor (List.mem_of_getElem? hlookup))

theorem acceptorStep (h : s.Unreserved) {i : Nat} {phase : AcceptPhase}
    {f : Acceptor → Option Acceptor} (hstep : s.acceptorStep i phase f = some after)
    (hf : ∀ acceptor acceptor', f acceptor = some acceptor' →
      acceptor.Full s.port.settings.listener.maxConnections →
      acceptor'.Full s.port.settings.listener.maxConnections) :
    after.Unreserved ∧ after.port = s.port := by
  simp only [AcceptingPort.acceptorStep] at hstep
  split at hstep
  · cases hstep
  · rename_i acceptor hlookup
    split at hstep
    · obtain ⟨acceptor', hacceptor', rfl⟩ := Option.map_eq_some_iff.mp hstep
      exact ⟨h.set rfl hlookup rfl (hf acceptor acceptor' hacceptor'), rfl⟩
    · cases hstep

theorem operated (h : s.Unreserved) {result : ServerPort × List Task}
    (hsettings : result.1.settings = s.port.settings)
    (hspawns : ∀ task ∈ result.2, s.port.Spawns task) : (s.operated result).Unreserved := by
  rw [Unreserved, AcceptingPort.operated, hsettings]
  intro acceptor hacceptor
  rcases List.mem_append.mp hacceptor with hold | hnew
  · exact h acceptor hold
  · obtain ⟨task, htask, hspawn⟩ := List.mem_filterMap.mp hnew
    exact .spawn (hspawns task htask) hspawn

theorem step (h : s.Unreserved) (hstep : s.step input = some (after, output)) :
    after.Unreserved := by
  cases input with
  | startRuntime =>
    cases hstep
    exact h.same rfl rfl
  | portOp op =>
    simp only [AcceptingPort.step, AcceptingPort.portOp] at hstep
    split at hstep
    · cases hstep
    · split at hstep
      · cases hstep
      · cases hstep
        have hsettings := op.run_settings s.port s.runtime
        exact (h.operated hsettings fun task => PortOp.run_spawns).same rfl rfl
  | authenticateClient uuid =>
    cases hstep
    apply h.operated (s.port.authenticateClient_keeps s.runtime uuid).settings
    intro task htask
    exact ServerPort.authenticateClient_spawns htask
  | accepted i =>
    obtain ⟨s', hs', heq⟩ := Option.map_eq_some_iff.mp hstep
    cases heq
    apply (h.acceptorStep hs' _).1
    intro acceptor acceptor' hacceptor hfull
    cases hacceptor
    exact hfull.accepted
  | acquired i =>
    obtain ⟨s', hs', heq⟩ := Option.map_eq_some_iff.mp hstep
    cases heq
    apply (h.acceptorStep hs' _).1
    intro acceptor acceptor' hacceptor hfull
    exact hfull.acquired hacceptor
  | handshake i ok =>
    obtain ⟨s', hs', heq⟩ := Option.map_eq_some_iff.mp hstep
    cases heq
    cases ok with
    | true =>
      simp only [AcceptingPort.handshake, if_true] at hs'
      split at hs'
      · cases hs'
      · rename_i acceptor hlookup
        split at hs'
        · cases hs'
          exact h.set rfl hlookup rfl fun hfull => hfull.of_semaphore rfl
        · cases hs'
    | false =>
      simp only [AcceptingPort.handshake, Bool.false_eq_true, if_false] at hs'
      split at hs'
      · apply (h.acceptorStep hs' _).1
        intro acceptor acceptor' hacceptor hfull
        cases hacceptor
        exact hfull.of_semaphore rfl
      · cases hs'
  | failed i =>
    obtain ⟨s', hs', heq⟩ := Option.map_eq_some_iff.mp hstep
    cases heq
    have hended := (h.acceptorStep hs' fun acceptor acceptor' hacceptor hfull => by
      cases hacceptor
      exact hfull.of_semaphore rfl).1
    exact hended.same (ServerPort.receive_settings _ _) rfl
  | event event =>
    simp only [AcceptingPort.step] at hstep
    split at hstep
    · cases hstep
      exact h.same (ServerPort.receive_settings _ _) rfl
    · cases hstep

end AcceptingPort.Unreserved

theorem unreserved_run {settings : ServerSettings} {ts : List AcceptingTransition}
    {s : AcceptingPort} (h : portMachine.Run (.new settings) ts s) : s.Unreserved := by
  apply h.invariant Unreserved (.start settings)
  intro t hpre hof
  exact hpre.step hof

/-- **No connection is rejected or kept waiting**, in any state of a port: an accept task that
has a connection goes on to its handshake, or to a permit that is there. -/
theorem never_full {settings : ServerSettings} {ts : List AcceptingTransition} {s : AcceptingPort}
    (h : portMachine.Run (.new settings) ts s) {acceptor : Acceptor}
    (hacceptor : acceptor ∈ s.acceptors) :
    (acceptor.accepted.phase = .handshaking ∨ acceptor.accepted.phase = .acquiring) ∧
      (acceptor.semaphore.isSome → acceptor.acquired.isSome) := by
  have hfull := unreserved_run h acceptor hacceptor
  exact ⟨hfull.accepted_phase, hfull.acquired_isSome⟩

/-! ## The number of clients -/

/-- The streams that a step passes on. -/
def passes : AcceptingInput → Nat
  | .handshake _ true => 1
  | _ => 0

section Count
variable {settings : ServerSettings} {ts : List AcceptingTransition} {t : AcceptingTransition}
  {s : AcceptingPort}

theorem passes_eq_zero {input : AcceptingInput} (h : ∀ i, input ≠ .handshake i true) :
    passes input = 0 := by
  unfold passes
  split
  · exact absurd rfl (h _)
  · rfl

/-- A stream that was passed on is queued until it is given out. -/
theorem queued_step (hof : t.Of portMachine) :
    t.post.port.clientConnected.length + t.post.issued.length =
      t.pre.port.clientConnected.length + t.pre.issued.length + passes t.input := by
  obtain ⟨pre, input, output, post⟩ := t
  have hchange : pre.Change input post := step_change hof
  cases hchange with
  | @ran op asked external admits =>
    subst asked
    have hkeeps : pre.port.Keeps (op.run pre.port pre.runtime).1 (op.run pre.port pre.runtime).2 :=
      PortOp.run_keeps (ServerPort.admits_eq_none.mp admits)
    exact congrArg (·.length + pre.issued.length) hkeeps.clientConnected
  | admitted asked fresh queue =>
    subst asked
    simp only [AcceptingPort.giveOut, queue, List.length_cons, passes]
    omega
  | @authenticated uuid asked =>
    subst asked
    have hqueue := pre.port.authenticateClient_clientConnected uuid pre.runtime
    exact congrArg (·.length + pre.issued.length) hqueue
  | passed asked =>
    subst asked
    simp only [AcceptingPort.pass, ServerPort.receive, List.length_append, List.length_singleton,
      passes]
    omega
  | @received event _ _ other hpasses =>
    have hqueue : (pre.port.receive event).clientConnected = pre.port.clientConnected := by
      cases event with
      | clientConnected stream => exact absurd rfl (other stream)
      | _ => rfl
    rw [passes_eq_zero hpasses]
    exact congrArg (·.length + pre.issued.length) hqueue
  | quiet _ _ hpasses => rw [passes_eq_zero hpasses, Nat.add_zero]

/-- **The accepted clients, over one step**: one more if a stream is passed on, one less if a
client is removed. -/
theorem accepted_step (hconserves : Conserves ts t.pre) (hof : t.Of portMachine) :
    t.post.accepted + (t.pre.removes t.input).length = t.pre.accepted + passes t.input := by
  have hbefore := hconserves.balance
  have hafter := (hconserves.step hof).balance
  have hqueued := queued_step hof
  rw [removals_snoc, List.length_append] at hafter
  rw [accepted, accepted, held, held]
  omega

/-- The streams that were passed on in a run. -/
def passedOn (ts : List AcceptingTransition) : Nat := (ts.map (passes ·.input)).sum

theorem passedOn_snoc (ts : List AcceptingTransition) (t : AcceptingTransition) :
    passedOn (ts ++ [t]) = passedOn ts + passes t.input := by
  simp only [passedOn, List.map_append, List.sum_append, List.map_singleton, List.sum_singleton]

/-- **The accepted clients, over a run.** -/
theorem accepted_run (h : portMachine.Run (.new settings) ts s) :
    s.accepted + (removals ts).length = passedOn ts := by
  refine h.history (fun ts s => s.accepted + (removals ts).length = passedOn ts) rfl ?_
  intro ts t hrun ih hof
  have hstep := accepted_step (conserves_run hrun) hof
  rw [removals_snoc, List.length_append, passedOn_snoc]
  omega

/-- At no time of the run have more connections come through their handshakes than the limit
allows beside the clients removed until then. -/
def KeepsLimit (limit : Nat) (ts : List AcceptingTransition) : Prop :=
  ∀ us, us <+: ts → passedOn us ≤ limit + (removals us).length

theorem accepted_split (h : portMachine.Run (.new settings) ts s)
    (hts : ts = before ++ t :: after) :
    t.post.accepted + (removals (before ++ [t])).length = passedOn (before ++ [t]) := by
  obtain ⟨hrun, hof⟩ := h.of_split hts
  exact accepted_run (hrun.snoc hof)

theorem accepted_le_iff (h : portMachine.Run (.new settings) ts s) (limit : Nat) :
    (∀ t ∈ ts, t.post.accepted ≤ limit) ↔ KeepsLimit limit ts := by
  constructor
  · rintro hwithin us ⟨rest, rfl⟩
    rcases List.eq_nil_or_concat' us with rfl | ⟨before, t, rfl⟩
    · exact Nat.zero_le _
    · have hcount := accepted_split h (List.append_cons before t rest).symm
      have hafter := hwithin t (List.mem_append_left _ List.mem_concat_self)
      omega
  · intro hkeeps t ht
    obtain ⟨before, after, hts⟩ := List.append_of_mem ht
    have hcount := accepted_split h hts
    have hroom := hkeeps (before ++ [t]) ⟨after, (hts.trans (List.append_cons before t after)).symm⟩
    omega

/-! ## The accept tasks do not keep it -/

/-- The port can let so many more connections in, without a client going for them. -/
def AcceptingPort.LetsIn (s : AcceptingPort) (count : Nat) : Prop :=
  ∃ ts s', portMachine.Run s ts s' ∧ removals ts = [] ∧ s'.accepted = s.accepted + count

theorem AcceptingPort.LetsIn.before {input : AcceptingInput} {s s' : AcceptingPort}
    {count more : Nat} (h : s'.LetsIn count) (hstep : s.step input = some (s', ()))
    (hremoves : s.removes input = []) (haccepted : s'.accepted = s.accepted + more) :
    s.LetsIn (more + count) := by
  obtain ⟨ts, s'', hrun, hnone, hcount⟩ := h
  have hfirst : portMachine.Run s [⟨s, input, (), s'⟩] s' := .single hstep
  refine ⟨_, s'', hfirst.append hrun, ?_, by rw [hcount, haccepted, Nat.add_assoc]⟩
  simp only [removals, List.flatMap_append, List.flatMap_singleton, hremoves, List.nil_append]
  exact hnone

/-- A task gets to another place in its loop. -/
theorem AcceptingPort.LetsIn.set {count : Nat} (input : AcceptingInput) (i : Nat)
    (acceptor' : Acceptor) (hinput : input ≠ .portOp .checkClientsDiconnected)
    (hstep : s.step input = some ({ s with acceptors := s.acceptors.set i acceptor' }, ()))
    (h : LetsIn { s with acceptors := s.acceptors.set i acceptor' } count) : s.LetsIn count := by
  rw [← Nat.zero_add count]
  exact h.before hstep (removes_eq_nil hinput) rfl

/-- Task `i` is at its listener, and all permits of the tasks are there. -/
structure AcceptingPort.Accepts (s : AcceptingPort) (i : Nat) : Prop where
  unreserved : s.Unreserved
  there : ∃ acceptor, s.acceptors[i]? = some acceptor ∧ acceptor.phase = .accepting

variable {i count : Nat} {acceptor : Acceptor}

theorem lookup_set (hlookup : s.acceptors[i]? = some acceptor) (acceptor' : Acceptor) :
    (s.acceptors.set i acceptor')[i]? = some acceptor' := by
  rw [List.getElem?_set_self (List.getElem?_eq_some_iff.mp hlookup).1]

/-- A task that has made its handshake is back at its listener. -/
theorem letsIn_handshaking (hnext : ∀ s : AcceptingPort, s.Accepts i → s.LetsIn count)
    (hunreserved : s.Unreserved) (hlookup : s.acceptors[i]? = some acceptor)
    (hphase : acceptor.phase = .handshaking) : s.LetsIn (1 + count) := by
  have hstep : s.step (.handshake i true) = some (s.pass i acceptor, ()) := by
    simp only [AcceptingPort.step, AcceptingPort.handshake, hlookup, hphase, if_true,
      Option.map_some]
  have hback : (s.pass i acceptor).Accepts i :=
    ⟨hunreserved.step hstep, _, lookup_set hlookup _, rfl⟩
  refine (hnext _ hback).before hstep (removes_eq_nil (by rintro ⟨⟩)) ?_
  simp only [accepted, AcceptingPort.pass, ServerPort.receive, List.length_append,
    List.length_singleton, held]
  omega

/-- A task that waits for a permit gets one. -/
theorem letsIn_acquiring (hnext : ∀ s : AcceptingPort, s.Accepts i → s.LetsIn count)
    (hunreserved : s.Unreserved) (hlookup : s.acceptors[i]? = some acceptor)
    (hphase : acceptor.phase = .acquiring) (hpermit : acceptor.acquired.isSome) :
    s.LetsIn (1 + count) := by
  obtain ⟨acceptor', hacquired⟩ := Option.isSome_iff_exists.mp hpermit
  have hhandshaking : acceptor'.phase = .handshaking := by
    simp only [Acceptor.acquired] at hacquired
    split at hacquired
    · cases hacquired
    · obtain ⟨permit, -, rfl⟩ := Option.map_eq_some_iff.mp hacquired
      rfl
  have hstep : s.step (.acquired i) =
      some ({ s with acceptors := s.acceptors.set i acceptor' }, ()) := by
    simp only [AcceptingPort.step, AcceptingPort.acceptorStep, hlookup, hphase, hacquired, if_true,
      Option.map_some]
  exact .set (.acquired i) i acceptor' (by rintro ⟨⟩) hstep
    (letsIn_handshaking hnext (hunreserved.step hstep) (lookup_set hlookup acceptor') hhandshaking)

/-- A task at its listener lets the next connection in, and comes back for the one after it. -/
theorem letsIn_accepting (hnext : ∀ s : AcceptingPort, s.Accepts i → s.LetsIn count)
    (h : s.Accepts i) : s.LetsIn (1 + count) := by
  obtain ⟨hunreserved, acceptor, hlookup, hphase⟩ := h
  have hfull := hunreserved acceptor (List.mem_of_getElem? hlookup)
  have hafter := lookup_set hlookup acceptor.accepted
  have hstep : s.step (.accepted i) =
      some ({ s with acceptors := s.acceptors.set i acceptor.accepted }, ()) := by
    simp only [AcceptingPort.step, AcceptingPort.acceptorStep, hlookup, hphase, if_true,
      Option.map_some]
  refine .set (.accepted i) i acceptor.accepted (by rintro ⟨⟩) hstep ?_
  rcases hfull.accepted_phase with hhandshaking | hacquiring
  · exact letsIn_handshaking hnext (hunreserved.step hstep) hafter hhandshaking
  · refine letsIn_acquiring hnext (hunreserved.step hstep) hafter hacquiring ?_
    exact hfull.accepted.acquired_isSome (Acceptor.accepted_limited hphase hacquiring)

/-- **A task at its listener lets any number of connections in**, however many clients there
are. -/
theorem AcceptingPort.Accepts.letsIn (h : s.Accepts i) (count : Nat) : s.LetsIn count := by
  induction count generalizing s with
  | zero => exact ⟨[], s, .nil, rfl, rfl⟩
  | succ count ih =>
    rw [Nat.add_comm]
    exact letsIn_accepting (fun _ h => ih h) h

/-- **When the limit holds**: exactly when the connections that come in keep it by themselves. The
port does not: a task at its listener lets any number of connections in, however many clients there
are. -/
theorem within_iff (settings : ServerSettings) (ts : List AcceptingTransition) (s : AcceptingPort)
    (h : portMachine.Run (.new settings) ts s) :
    ((∀ t ∈ ts, t.post.accepted ≤ settings.listener.maxConnections) ↔
      KeepsLimit settings.listener.maxConnections ts) ∧
    ∀ acceptor ∈ s.acceptors, acceptor.phase = .accepting → ∀ count, s.LetsIn count := by
  refine ⟨accepted_le_iff h _, fun acceptor hacceptor hphase count => ?_⟩
  obtain ⟨i, hlookup⟩ := List.getElem?_of_mem hacceptor
  have haccepts : s.Accepts i := ⟨unreserved_run h, acceptor, hlookup, hphase⟩
  exact haccepts.letsIn count

end Count

/-- At most one client, and a connection is to be rejected when it is there. -/
def crowdedSettings : ServerSettings :=
  .tcp { TcpSettingsServer.default with maxConnections := 1, recuseWhenFull := true }

/-- Two connections come in, one after the other. -/
def crowdedInputs : List AcceptingInput :=
  [.startRuntime, .portOp .connect, .event (.portConnected 0), .portOp .checkPortConnected,
    .portOp .startAcceptingConnections] ++ (admitInputs 7 ++ admitInputs 8)

def crowdedRun : List AcceptingTransition × AcceptingPort :=
  (portMachine.exec (.new crowdedSettings) crowdedInputs).getD ([], .new crowdedSettings)

theorem run_crowdedRun : portMachine.Run (.new crowdedSettings) crowdedRun.1 crowdedRun.2 := by
  have hexec : portMachine.exec (.new crowdedSettings) crowdedInputs = some crowdedRun := rfl
  exact .of_exec hexec

theorem within_crowdedRun :
    ((∀ t ∈ crowdedRun.1, t.post.accepted ≤ 1) ↔ KeepsLimit 1 crowdedRun.1) ∧
      ∀ acceptor ∈ crowdedRun.2.acceptors, acceptor.phase = .accepting →
        ∀ count, crowdedRun.2.LetsIn count :=
  within_iff _ _ _ run_crowdedRun

/-- Both clients are accepted, where the settings allow one. -/
theorem crowdedRun_beyond :
    ¬∀ settings ts s, 0 < settings.listener.maxConnections →
      portMachine.Run (.new settings) ts s →
      ∀ t ∈ ts, t.post.accepted ≤ settings.listener.maxConnections := by
  intro h
  have hlast := h _ _ _ (by decide) run_crowdedRun (crowdedRun.1.getLast (by decide))
    (List.getLast_mem _)
  have htwo : (crowdedRun.1.getLast (by decide)).post.accepted = 2 := rfl
  rw [htwo] at hlast
  exact absurd hlast (by decide)

end Inator
