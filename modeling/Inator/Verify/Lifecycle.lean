import Inator.Ports.Acceptors
import Inator.Verify.Disconnect

/-! # The life of a client of a server port

A client is unauthenticated, then authenticated, then removed, or removed at once. Nothing is
assumed of the notifications: a stale or repeated one finds no client in the map of its status,
and changes neither map. -/

namespace Inator
open AcceptingPort

/-! ## What a step does -/

namespace AcceptingPort
variable {s after : AcceptingPort} {input : AcceptingInput} {output : Unit}

/-- The port after its first waiting stream was given out. -/
def giveOut (s : AcceptingPort) (newUuid : Uuid) (stream : Stream) (rest : List Stream) :
    AcceptingPort :=
  { s with
    port := { s.port with
      clientConnected := rest
      notAuthenticatedListening :=
        s.port.notAuthenticatedListening.insert newUuid ⟨stream, false⟩ }
    issued := (newUuid, stream) :: s.issued }

/-- The steps of a port and its accept tasks, one by one. -/
inductive Change (s : AcceptingPort) (input : AcceptingInput) : AcceptingPort → Prop
  | ran {op : PortOp} (asked : input = .portOp op) (external : op.internal = false)
      (admits : s.port.admits op = none) : Change s input (s.operated (op.run s.port s.runtime))
  | admitted {newUuid : Uuid} {stream : Stream} {rest : List Stream}
      (asked : input = .portOp (.checkClientsConnected newUuid))
      (fresh : newUuid ∉ s.issued.map Prod.fst)
      (queue : s.port.clientConnected = stream :: rest) :
      Change s input (s.giveOut newUuid stream rest)
  | authenticated {uuid : Uuid} (asked : input = .authenticateClient uuid) :
      Change s input (s.operated (s.port.authenticateClient uuid s.runtime))
  | passed {i : Nat} {acceptor : Acceptor} (asked : input = .handshake i true)
      (lookup : s.acceptors[i]? = some acceptor) (phase : acceptor.phase = .handshaking) :
      Change s input (s.pass i acceptor)
  | received {event : TaskEvent} {acceptors : List Acceptor} (asked : ∀ op, input ≠ .portOp op)
      (other : ∀ stream, event ≠ .clientConnected stream)
      (passes : ∀ i, input ≠ .handshake i true) :
      Change s input { s with port := s.port.receive event, acceptors := acceptors }
  | quiet {runtime : Option Runtime} {acceptors : List Acceptor}
      (asked : ∀ op, input ≠ .portOp op) (kept : s.runtime.isSome → runtime.isSome)
      (passes : ∀ i, input ≠ .handshake i true) :
      Change s input { s with runtime := runtime, acceptors := acceptors }

theorem portOp_change {op : PortOp} (hexternal : op.internal = false)
    (h : s.portOp op = some after) : Change s (.portOp op) after := by
  simp only [portOp] at h
  split at h
  · cases h
  · rename_i hfresh
    cases h
    cases hadmits : s.port.admits op with
    | none => exact .ran rfl hexternal hadmits
    | some client =>
      obtain ⟨rfl, rest, hqueue⟩ := ServerPort.admits_eq_some.mp hadmits
      have hchange : Change s (.portOp (.checkClientsConnected client.1)) _ :=
        .admitted rfl (fun hissued => hfresh ⟨client, hadmits, hissued⟩) hqueue
      simp only [operated, PortOp.run, ServerPort.checkClientsConnected, hqueue,
        List.filterMap_nil, List.append_nil]
      exact hchange

theorem acceptorStep_eq {i : Nat} {phase : AcceptPhase} {f : Acceptor → Option Acceptor}
    (h : s.acceptorStep i phase f = some after) :
    ∃ acceptors, after = { s with acceptors := acceptors } := by
  simp only [acceptorStep] at h
  split at h
  · cases h
  · split at h
    · obtain ⟨acceptor, -, rfl⟩ := Option.map_eq_some_iff.mp h
      exact ⟨_, rfl⟩
    · cases h

/-- **What a step does.** -/
theorem step_change (h : s.step input = some (after, output)) : Change s input after := by
  cases input with
  | startRuntime =>
    cases h
    exact .quiet nofun (fun _ => rfl) nofun
  | portOp op =>
    simp only [step] at h
    split at h
    · cases h
    · rename_i hexternal
      obtain ⟨s', hop, heq⟩ := Option.map_eq_some_iff.mp h
      cases heq
      exact portOp_change (Bool.eq_false_iff.mpr hexternal) hop
  | authenticateClient uuid =>
    cases h
    exact .authenticated rfl
  | accepted i | acquired i =>
    obtain ⟨s', hstep, heq⟩ := Option.map_eq_some_iff.mp h
    cases heq
    obtain ⟨acceptors, rfl⟩ := acceptorStep_eq hstep
    exact .quiet nofun id nofun
  | handshake i ok =>
    obtain ⟨s', hstep, heq⟩ := Option.map_eq_some_iff.mp h
    cases heq
    cases ok with
    | true =>
      simp only [handshake, if_true] at hstep
      split at hstep
      · cases hstep
      · rename_i acceptor hlookup
        split at hstep
        · rename_i hphase
          cases hstep
          exact .passed rfl hlookup hphase
        · cases hstep
    | false =>
      simp only [handshake, Bool.false_eq_true, if_false] at hstep
      split at hstep
      · obtain ⟨acceptors, rfl⟩ := acceptorStep_eq hstep
        exact .quiet nofun id nofun
      · cases hstep
  | failed i =>
    obtain ⟨s', hstep, heq⟩ := Option.map_eq_some_iff.mp h
    cases heq
    obtain ⟨acceptors, rfl⟩ := acceptorStep_eq hstep
    exact .received nofun nofun nofun
  | event event =>
    simp only [step] at h
    split at h
    · rename_i hother
      cases h
      refine .received nofun ?_ nofun
      rintro stream rfl
      cases hother
    · cases h

/-! ## Who is in the maps -/

instance (port : ServerPort) (uuid : Uuid) (isAuthenticated : Bool) :
    Decidable (port.HoldsAs uuid isAuthenticated) := by
  unfold ServerPort.HoldsAs
  split <;> infer_instance

/-- The client that a step removes: the one of the notification that is taken up, if the map of
its status has it. -/
def removes (s : AcceptingPort) (input : AcceptingInput) : List Uuid :=
  match input, s.port.clientDisconnected with
  | .portOp .checkClientsDiconnected, (uuid, isAuthenticated) :: _ =>
    if s.port.HoldsAs uuid isAuthenticated then [uuid] else []
  | _, _ => []

/-- Only clients that were given out are in the maps, no client is in both, and those that were
authenticated are marked. -/
structure Enrolled (s : AcceptingPort) : Prop where
  uuids : (s.issued.map Prod.fst).Nodup
  entries : ∀ uuid infos, s.port.Entry uuid infos → (uuid, infos.readWriteType) ∈ s.issued
  apart : s.port.Apart
  marked : ∀ uuid infos, s.port.listeningClients.lookup uuid = some infos →
    infos.listening = true

namespace Enrolled

theorem start (settings : ServerSettings) : (new settings).Enrolled where
  uuids := List.nodup_nil
  entries := by
    rintro uuid infos (hwaiting | hlistening)
    · cases hwaiting
    · cases hlistening
  apart := fun uuid huuid => absurd huuid (AList.notMem_empty uuid)
  marked uuid infos h := by cases h

/-- A client that the port holds was given out. -/
theorem known (h : s.Enrolled) {uuid : Uuid} (hholds : s.port.Holds uuid) :
    uuid ∈ s.issued.map Prod.fst := by
  rcases hholds with hlistening | hwaiting
  · obtain ⟨infos, hinfos⟩ := AssocMap.lookup_of_mem hlistening
    exact List.mem_map_of_mem (h.entries uuid infos (.inr hinfos))
  · obtain ⟨infos, hinfos⟩ := AssocMap.lookup_of_mem hwaiting
    exact List.mem_map_of_mem (h.entries uuid infos (.inl hinfos))

theorem operated (h : s.Enrolled) {result : ServerPort × List Task}
    (hkeeps : s.port.Keeps result.1 result.2)
    (hmarked : ∀ uuid infos, result.1.listeningClients.lookup uuid = some infos →
      infos.listening = true) : (s.operated result).Enrolled where
  uuids := h.uuids
  entries uuid infos hentry := by
    obtain ⟨infos', hentry', hstream⟩ := hkeeps.entry uuid infos hentry
    rw [← hstream]
    exact h.entries uuid infos' hentry'
  apart := hkeeps.apart h.apart
  marked := hmarked

/-- A step that leaves the maps alone. -/
theorem same (h : s.Enrolled) (hissued : after.issued = s.issued)
    (hlistening : after.port.listeningClients = s.port.listeningClients)
    (hwaiting : after.port.notAuthenticatedListening = s.port.notAuthenticatedListening) :
    after.Enrolled where
  uuids := hissued ▸ h.uuids
  entries uuid infos hentry := by
    rw [ServerPort.Entry, hlistening, hwaiting] at hentry
    rw [hissued]
    exact h.entries uuid infos hentry
  apart := by
    rw [ServerPort.Apart, hlistening, hwaiting]
    exact h.apart
  marked := hlistening ▸ h.marked

theorem step (h : s.Enrolled) (hchange : s.Change input after) : after.Enrolled := by
  cases hchange with
  | @ran op _ _ admits =>
    refine h.operated (PortOp.run_keeps (ServerPort.admits_eq_none.mp admits)) ?_
    intro uuid infos hlookup
    have heffect := op.run_effect s.port s.runtime
    generalize (op.run s.port s.runtime).1 = port at heffect hlookup
    cases heffect with
    | quiet _ _ _ _ listening => exact h.marked uuid infos (listening ▸ hlookup)
    | marked | disconnectedWaiting | admitted => exact h.marked uuid infos hlookup
    | disconnected => exact h.marked uuid infos (AssocMap.lookup_of_erase hlookup).2
  | @admitted newUuid stream rest _ fresh queue =>
    refine ⟨List.nodup_cons.mpr ⟨fresh, h.uuids⟩, ?_, ?_, h.marked⟩
    · rintro uuid infos (hwaiting | hlistening)
      · rcases AssocMap.lookup_of_insert hwaiting with ⟨rfl, rfl⟩ | hwaiting
        · exact List.mem_cons_self
        · exact List.mem_cons_of_mem _ (h.entries uuid infos (.inl hwaiting))
      · exact List.mem_cons_of_mem _ (h.entries uuid infos (.inr hlistening))
    · intro uuid hlistening hwaiting
      rcases (AList.mem_insert _).mp hwaiting with rfl | hwaiting
      · exact fresh (h.known (.inl hlistening))
      · exact h.apart uuid hlistening hwaiting
  | @authenticated uuid' _ =>
    refine h.operated (s.port.authenticateClient_keeps _ _) ?_
    intro uuid infos hlookup
    cases hinfos : s.port.notAuthenticatedListening.lookup uuid' with
    | none =>
      rw [ServerPort.authenticateClient_none hinfos] at hlookup
      exact h.marked uuid infos hlookup
    | some infos' =>
      rw [ServerPort.authenticateClient_some hinfos] at hlookup
      rcases AssocMap.lookup_of_insert hlookup with ⟨-, rfl⟩ | hbefore
      · rfl
      · exact h.marked uuid infos hbefore
  | passed => exact h.same rfl rfl rfl
  | received =>
    exact h.same rfl (s.port.receive_listeningClients _)
      (s.port.receive_notAuthenticatedListening _)
  | quiet => exact h.same rfl rfl rfl

end Enrolled

/-- How a step changes whom the port holds: it gives out a new client, or removes one, or does
neither. -/
inductive Accounting (s : AcceptingPort) (input : AcceptingInput) (after : AcceptingPort) : Prop
  | kept (removes : s.removes input = []) (issued : after.issued = s.issued)
      (holds : ∀ k, after.port.Holds k ↔ s.port.Holds k)
  | admitted {newUuid : Uuid} {stream : Stream} (removes : s.removes input = [])
      (fresh : newUuid ∉ s.issued.map Prod.fst)
      (issued : after.issued = (newUuid, stream) :: s.issued)
      (holds : ∀ k, after.port.Holds k ↔ k = newUuid ∨ s.port.Holds k)
  | removed {uuid : Uuid} (removes : s.removes input = [uuid]) (held : s.port.Holds uuid)
      (issued : after.issued = s.issued)
      (holds : ∀ k, after.port.Holds k ↔ s.port.Holds k ∧ k ≠ uuid)

theorem removes_eq_nil (h : input ≠ .portOp .checkClientsDiconnected) : s.removes input = [] := by
  simp only [removes]
  split
  · exact absurd rfl h
  · rfl

theorem removes_queue (h : s.port.clientDisconnected = []) : s.removes input = [] := by
  simp only [removes, h]

theorem step_accounting (henrolled : s.Enrolled) (h : s.Change input after) :
    Accounting s input after := by
  cases h with
  | @ran op asked _ admits =>
    subst asked
    by_cases hop : op = .checkClientsDiconnected
    · subst hop
      cases hqueue : s.port.clientDisconnected with
      | nil =>
        have hnil := ServerPort.checkClientsDiconnected_nil hqueue
        refine .kept (removes_queue hqueue) rfl fun k => ?_
        rw [operated, PortOp.run, hnil]
      | cons notification rest =>
        obtain ⟨uuid, isAuthenticated⟩ := notification
        have hcons := fun k => (ServerPort.checkClientsDiconnected_cons (k := k) hqueue).2
        have hremoves : s.removes (.portOp .checkClientsDiconnected) =
            if s.port.HoldsAs uuid isAuthenticated then [uuid] else [] := by
          simp only [removes, hqueue]
        by_cases hholds : s.port.HoldsAs uuid isAuthenticated
        · rw [if_pos hholds] at hremoves
          refine .removed hremoves
            ((ServerPort.holds_iff_holdsAs isAuthenticated).mpr (.inl hholds)) rfl fun k => ?_
          refine (hcons k).trans (and_congr_right fun _ => forall_congr' fun _ => ?_)
          exact iff_of_false (henrolled.apart.not_holdsAs hholds) id
        · -- the map of the status does not have the client: nothing is removed
          rw [if_neg hholds] at hremoves
          refine .kept hremoves rfl fun k => ?_
          refine (hcons k).trans (and_iff_left_of_imp fun hk heq => ?_)
          subst heq
          exact ((ServerPort.holds_iff_holdsAs isAuthenticated).mp hk).resolve_left hholds
    · refine .kept (removes_eq_nil ?_) rfl fun k =>
        PortOp.holds_run (ServerPort.admits_eq_none.mp admits) hop
      exact fun heq => hop (AcceptingInput.portOp.inj heq)
  | @admitted newUuid stream rest asked fresh queue =>
    refine .admitted (removes_eq_nil fun h => by cases asked.symm.trans h) fresh rfl fun k => ?_
    simp only [ServerPort.Holds, giveOut, AList.mem_insert]
    exact or_left_comm
  | authenticated asked =>
    exact .kept (removes_eq_nil fun h => by cases asked.symm.trans h) rfl fun _ =>
      ServerPort.holds_authenticateClient
  | passed asked =>
    exact .kept (removes_eq_nil fun h => by cases asked.symm.trans h) rfl fun _ => Iff.rfl
  | @received event _ asked =>
    refine .kept (removes_eq_nil (asked _)) rfl fun k => ?_
    rw [ServerPort.Holds, ServerPort.receive_listeningClients,
      ServerPort.receive_notAuthenticatedListening]
    exact Iff.rfl
  | quiet asked => exact .kept (removes_eq_nil (asked _)) rfl fun _ => Iff.rfl

/-! ## The other clients -/

/-- The client that an operation is about. -/
def subject (s : AcceptingPort) : AcceptingInput → Option Uuid
  | .portOp (.checkClientsConnected newUuid) => some newUuid
  | .portOp .checkClientsDiconnected => s.port.clientDisconnected.head?.map Prod.fst
  | .authenticateClient uuid => some uuid
  | _ => none

theorem subject_disconnects {uuid : Uuid} {isAuthenticated : Bool} {rest : List (Uuid × Bool)}
    (h : s.port.clientDisconnected = (uuid, isAuthenticated) :: rest) :
    s.subject (.portOp .checkClientsDiconnected) = some uuid := by
  change s.port.clientDisconnected.head?.map Prod.fst = some uuid
  rw [h]
  rfl

/-- `check_not_authenticated_clients` marks every unauthenticated client. -/
def marks (input : AcceptingInput) (infos : ListeningInfos) : ListeningInfos :=
  if input = .portOp .checkNotAuthenticatedClients then { infos with listening := true } else infos

theorem map_marks (h : input ≠ .portOp .checkNotAuthenticatedClients)
    (entry : Option ListeningInfos) : entry.map (marks input) = entry := by
  have hid : marks input = id := by
    funext infos
    rw [marks, if_neg h]
    rfl
  rw [hid, Option.map_id]
  rfl

/-- The entries of a client are the same before and after, but for its mark. -/
def Untouched (s : AcceptingPort) (input : AcceptingInput) (after : AcceptingPort) (uuid : Uuid) :
    Prop :=
  after.port.listeningClients.lookup uuid = s.port.listeningClients.lookup uuid ∧
    after.port.notAuthenticatedListening.lookup uuid =
      (s.port.notAuthenticatedListening.lookup uuid).map (marks input)

theorem untouched_of_eq (h : input ≠ .portOp .checkNotAuthenticatedClients) {uuid : Uuid}
    (hlistening : after.port.listeningClients.lookup uuid = s.port.listeningClients.lookup uuid)
    (hwaiting : after.port.notAuthenticatedListening.lookup uuid =
      s.port.notAuthenticatedListening.lookup uuid) : Untouched s input after uuid :=
  ⟨hlistening, hwaiting.trans (map_marks h _).symm⟩

/-- An operation that gives out no client touches at most the one it is about. -/
theorem ran_untouched {op : PortOp} (admits : s.port.admits op = none) {uuid : Uuid}
    (hother : s.subject (.portOp op) ≠ some uuid) :
    Untouched s (.portOp op) (s.operated (op.run s.port s.runtime)) uuid := by
  by_cases hop : op = .checkNotAuthenticatedClients
  · subst hop
    refine ⟨rfl, ?_⟩
    have hmarks : marks (.portOp .checkNotAuthenticatedClients) =
        fun infos => { infos with listening := true } := by
      funext infos
      exact if_pos rfl
    rw [operated, PortOp.run, ServerPort.checkNotAuthenticatedClients, AssocMap.lookup_mapVals,
      hmarks]
  have hinput : AcceptingInput.portOp op ≠ .portOp .checkNotAuthenticatedClients :=
    fun heq => hop (AcceptingInput.portOp.inj heq)
  have heffect := op.run_effect s.port s.runtime
  rw [Untouched, operated, map_marks hinput]
  generalize (op.run s.port s.runtime).1 = port at heffect
  cases heffect with
  | quiet _ _ _ _ listening waiting => exact ⟨by rw [listening], by rw [waiting]⟩
  | marked => exact absurd rfl hop
  | @disconnected uuid' rest popped =>
    have hne : uuid ≠ uuid' := fun heq => hother (heq ▸ subject_disconnects popped)
    exact ⟨AList.lookup_erase_ne hne, rfl⟩
  | @disconnectedWaiting uuid' rest popped =>
    have hne : uuid ≠ uuid' := fun heq => hother (heq ▸ subject_disconnects popped)
    exact ⟨rfl, AList.lookup_erase_ne hne⟩
  | admitted popped =>
    rw [ServerPort.admits_eq_none.mp admits _ rfl] at popped
    cases popped

theorem authenticated_untouched {uuid uuid' : Uuid} (hne : uuid ≠ uuid') :
    Untouched s (.authenticateClient uuid')
      (s.operated (s.port.authenticateClient uuid' s.runtime)) uuid := by
  have hinput : AcceptingInput.authenticateClient uuid' ≠
      .portOp .checkNotAuthenticatedClients := by
    intro h
    cases h
  cases hinfos : s.port.notAuthenticatedListening.lookup uuid' with
  | none =>
    rw [ServerPort.authenticateClient_none hinfos]
    exact untouched_of_eq hinput rfl rfl
  | some infos =>
    rw [ServerPort.authenticateClient_some hinfos]
    exact untouched_of_eq hinput (AList.lookup_insert_ne hne) (AList.lookup_erase_ne hne)

/-- **An operation touches no other client.** -/
theorem step_untouched (h : s.Change input after) {uuid : Uuid}
    (hother : s.subject input ≠ some uuid) : Untouched s input after uuid := by
  cases h with
  | ran asked _ admits =>
    subst asked
    exact ran_untouched admits hother
  | @admitted newUuid stream rest asked fresh queue =>
    subst asked
    have hne : uuid ≠ newUuid := fun heq => hother (congrArg some heq.symm)
    refine untouched_of_eq ?_ rfl (AList.lookup_insert_ne hne)
    exact fun heq => by cases AcceptingInput.portOp.inj heq
  | authenticated asked =>
    subst asked
    exact authenticated_untouched fun heq => hother (congrArg some heq.symm)
  | passed asked => exact untouched_of_eq (fun h => by cases asked.symm.trans h) rfl rfl
  | @received event _ asked =>
    refine untouched_of_eq (asked _) ?_ ?_
    · exact congrArg (AList.lookup uuid) (s.port.receive_listeningClients event)
    · exact congrArg (AList.lookup uuid) (s.port.receive_notAuthenticatedListening event)
  | quiet asked => exact untouched_of_eq (asked _) rfl rfl

end AcceptingPort

/-! ## The runs of a port -/

abbrev AcceptingTransition := Machine.Transition AcceptingPort AcceptingInput Unit

/-- The clients that were removed in a run. -/
def removals (ts : List AcceptingTransition) : List Uuid :=
  ts.flatMap fun t => t.pre.removes t.input

theorem removals_snoc (ts : List AcceptingTransition) (t : AcceptingTransition) :
    removals (ts ++ [t]) = removals ts ++ t.pre.removes t.input := by
  simp only [removals, List.flatMap_append, List.flatMap_singleton]

inductive ClientPhase
  | unauthenticated
  | authenticated
  | removed
  deriving DecidableEq

/-- The order in which a client goes through its phases. -/
def ClientPhase.rank : ClientPhase → Nat
  | .unauthenticated => 0
  | .authenticated => 1
  | .removed => 2

/-- The client is in the phase after a run. -/
def InPhase (ts : List AcceptingTransition) (s : AcceptingPort) (uuid : Uuid) : ClientPhase → Prop
  | .unauthenticated => uuid ∈ s.port.notAuthenticatedListening
  | .authenticated => uuid ∈ s.port.listeningClients
  | .removed => uuid ∈ removals ts

/-- The port holds the clients that were given out and not removed, and removes each one once. -/
structure Conserves (ts : List AcceptingTransition) (s : AcceptingPort) : Prop where
  enrolled : s.Enrolled
  ledger : Ledger (s.issued.map Prod.fst) s.port.Holds (removals ts)
  once : (removals ts).Nodup

section Runs
variable {settings : ServerSettings} {ts us : List AcceptingTransition} {t : AcceptingTransition}
  {s s' : AcceptingPort} {uuid : Uuid}

theorem Conserves.step (h : Conserves ts t.pre) (hof : t.Of portMachine) :
    Conserves (ts ++ [t]) t.post := by
  have hchange := step_change hof
  have henrolled := h.enrolled.step hchange
  cases step_accounting h.enrolled hchange with
  | kept removes issued holds =>
    refine ⟨henrolled, ?_, ?_⟩ <;> rw [removals_snoc, removes, List.append_nil]
    · rw [issued]
      exact h.ledger.congr holds
    · exact h.once
  | admitted removes fresh issued holds =>
    refine ⟨henrolled, ?_, ?_⟩ <;> rw [removals_snoc, removes, List.append_nil]
    · rw [issued]
      exact h.ledger.issue fresh holds
    · exact h.once
  | @removed uuid removes held issued holds =>
    refine ⟨henrolled, ?_, ?_⟩ <;> rw [removals_snoc, removes]
    · rw [issued]
      exact h.ledger.remove (h.enrolled.known held) holds
    · refine List.nodup_append.mpr ⟨h.once, List.nodup_singleton uuid, ?_⟩
      rintro uuid' hbefore _ hnew rfl
      cases List.mem_singleton.mp hnew
      exact (h.ledger.gone uuid hbefore).2 held

theorem conserves_run (h : portMachine.Run (.new settings) ts s) : Conserves ts s := by
  have hstart : Conserves [] (.new settings) := ⟨.start settings, .nil _, List.nodup_nil⟩
  exact h.history Conserves hstart fun _ _ _ hconserves hof => hconserves.step hof

/-- **The balance of a port**: the clients of the two maps and those that were removed are the
clients that were given out. -/
theorem Conserves.perm (h : Conserves ts s) :
    ((s.port.notAuthenticatedListening.keys ++ s.port.listeningClients.keys) ++
      removals ts).Perm (s.issued.map Prod.fst) := by
  refine h.ledger.perm ?_ (fun uuid => h.enrolled.known) h.enrolled.uuids ?_ h.once
  · intro uuid
    rw [List.mem_append, ← AList.mem_keys, ← AList.mem_keys]
    exact or_comm
  · refine List.nodup_append.mpr ⟨AList.keys_nodup _, AList.keys_nodup _, ?_⟩
    rintro uuid hwaiting _ hlistening rfl
    exact h.enrolled.apart uuid (AList.mem_keys.mpr hlistening) (AList.mem_keys.mpr hwaiting)

theorem Conserves.balance (h : Conserves ts s) :
    s.port.notAuthenticatedListening.keys.length + s.port.listeningClients.keys.length +
      (removals ts).length = s.issued.length := by
  have hlength := h.perm.length_eq
  rwa [List.length_append, List.length_append, List.length_map] at hlength

/-- A client that was given out is unauthenticated, or held at all, only if it was so before. -/
theorem step_before (henrolled : s.Enrolled) {input : AcceptingInput} (h : s.Change input s')
    (hissued : uuid ∈ s.issued.map Prod.fst) :
    (uuid ∈ s'.port.notAuthenticatedListening → uuid ∈ s.port.notAuthenticatedListening) ∧
      (s'.port.Holds uuid → s.port.Holds uuid) := by
  constructor
  · intro hwaiting
    cases h with
    | ran _ _ admits => exact PortOp.waiting_run (ServerPort.admits_eq_none.mp admits) hwaiting
    | admitted _ fresh =>
      rcases (AList.mem_insert _).mp hwaiting with rfl | hwaiting
      · exact absurd hissued fresh
      · exact hwaiting
    | authenticated => exact ServerPort.waiting_authenticateClient hwaiting
    | received => exact s.port.receive_notAuthenticatedListening _ ▸ hwaiting
    | passed | quiet => exact hwaiting
  · intro hholds
    cases step_accounting henrolled h with
    | kept _ _ holds => exact (holds uuid).mp hholds
    | admitted _ fresh _ holds =>
      rcases (holds uuid).mp hholds with rfl | hbefore
      · exact absurd hissued fresh
      · exact hbefore
    | removed _ _ _ holds => exact ((holds uuid).mp hholds).1

theorem step_issued {input : AcceptingInput} (h : s.Change input s') : s.issued ⊆ s'.issued := by
  cases h with
  | admitted => exact List.subset_cons_self _ _
  | _ => exact List.Subset.refl _

theorem before_run (henrolled : s.Enrolled) (h : portMachine.Run s us s')
    (hissued : uuid ∈ s.issued.map Prod.fst) :
    (uuid ∈ s'.port.notAuthenticatedListening → uuid ∈ s.port.notAuthenticatedListening) ∧
      (s'.port.Holds uuid → s.port.Holds uuid) := by
  have hrun := h.invariant (fun s' => s'.Enrolled ∧ uuid ∈ s'.issued.map Prod.fst ∧
    (uuid ∈ s'.port.notAuthenticatedListening → uuid ∈ s.port.notAuthenticatedListening) ∧
      (s'.port.Holds uuid → s.port.Holds uuid)) ⟨henrolled, hissued, id, id⟩ ?_
  · exact hrun.2.2
  · rintro t ⟨henrolled, hissued, hwaiting, hholds⟩ hof
    have hchange := step_change hof
    obtain ⟨hwaiting', hholds'⟩ := step_before henrolled hchange hissued
    exact ⟨henrolled.step hchange, List.map_subset _ (step_issued hchange) hissued,
      hwaiting ∘ hwaiting', hholds ∘ hholds'⟩

/-- A client that was given out is in exactly one phase. -/
theorem Conserves.existsUnique_phase (h : Conserves ts s)
    (hissued : uuid ∈ s.issued.map Prod.fst) : ∃! phase, InPhase ts s uuid phase := by
  have hwaiting : uuid ∈ s.port.notAuthenticatedListening →
      uuid ∉ s.port.listeningClients ∧ uuid ∉ removals ts :=
    fun hwaiting => ⟨fun hlistening => h.enrolled.apart uuid hlistening hwaiting,
      fun hremoved => (h.ledger.gone uuid hremoved).2 (.inr hwaiting)⟩
  have hlistening : uuid ∈ s.port.listeningClients → uuid ∉ removals ts :=
    fun hlistening hremoved => (h.ledger.gone uuid hremoved).2 (.inl hlistening)
  rcases h.ledger.held uuid hissued with (hin | hin) | hremoved
  · refine ⟨.authenticated, hin, fun phase hphase => ?_⟩
    cases phase with
    | unauthenticated => exact absurd hin (hwaiting hphase).1
    | authenticated => rfl
    | removed => exact absurd hphase (hlistening hin)
  · refine ⟨.unauthenticated, hin, fun phase hphase => ?_⟩
    cases phase with
    | unauthenticated => rfl
    | authenticated => exact absurd hphase (hwaiting hin).1
    | removed => exact absurd hphase (hwaiting hin).2
  · refine ⟨.removed, hremoved, fun phase hphase => ?_⟩
    cases phase with
    | unauthenticated => exact absurd hremoved (hwaiting hphase).2
    | authenticated => exact absurd hremoved (hlistening hphase)
    | removed => rfl

/-- **The life of a client.** In every run of a server port, the two maps have no client in
common, the authenticated clients are marked, every client that was given out is in one phase and
never goes back, none is lost, and no operation on one client touches another. -/
theorem client_lifecycle (settings : ServerSettings) (ts : List AcceptingTransition)
    (s : AcceptingPort) (h : portMachine.Run (.new settings) ts s) :
    s.port.Apart ∧
    (∀ uuid infos, s.port.listeningClients.lookup uuid = some infos → infos.listening = true) ∧
    (∀ uuid ∈ s.issued.map Prod.fst, ∃! phase, InPhase ts s uuid phase) ∧
    (∀ us s', portMachine.Run s us s' → ∀ uuid ∈ s.issued.map Prod.fst, ∀ phase phase',
      InPhase ts s uuid phase → InPhase (ts ++ us) s' uuid phase' → phase.rank ≤ phase'.rank) ∧
    s.port.notAuthenticatedListening.keys.length + s.port.listeningClients.keys.length +
      (removals ts).length = s.issued.length ∧
    ∀ t ∈ ts, ∀ uuid, t.pre.subject t.input ≠ some uuid →
      Untouched t.pre t.input t.post uuid := by
  have hconserves := conserves_run h
  refine ⟨hconserves.enrolled.apart, hconserves.enrolled.marked,
    fun uuid => hconserves.existsUnique_phase, ?_, hconserves.balance, ?_⟩
  · intro us s' hafter uuid hissued phase phase' hphase hphase'
    obtain ⟨hwaiting, hholds⟩ := before_run hconserves.enrolled hafter hissued
    cases phase' with
    | unauthenticated =>
      -- it was unauthenticated then, and in one phase only
      have hbefore : InPhase ts s uuid .unauthenticated := hwaiting hphase'
      rw [(hconserves.existsUnique_phase hissued).unique hphase hbefore]
    | authenticated =>
      cases phase with
      | unauthenticated => exact Nat.zero_le _
      | authenticated => exact Nat.le_refl _
      | removed => exact absurd (hholds (.inl hphase')) (hconserves.ledger.gone uuid hphase).2
    | removed => cases phase <;> decide
  · intro t ht uuid hother
    obtain ⟨before, after, rfl⟩ := List.append_of_mem ht
    exact step_untouched (step_change (h.of_split rfl).2) hother

end Runs

/-- The accept task passes a stream on, and the stream is given out. -/
def admitInputs (newUuid : Uuid) : List AcceptingInput :=
  [.accepted 0, .handshake 0 true, .portOp (.checkClientsConnected newUuid)]

/-- Of three clients, one is authenticated, one is removed, and one waits. The notification of
the first one is stale. -/
def lifeInputs : List AcceptingInput :=
  [.startRuntime, .portOp .connect, .event (.portConnected 0), .portOp .checkPortConnected,
    .portOp .startAcceptingConnections] ++
  (admitInputs 7 ++ admitInputs 8 ++ admitInputs 9) ++
  [.portOp .checkNotAuthenticatedClients, .authenticateClient 7,
    .event (.clientDisconnected 7 false), .event (.clientDisconnected 8 false),
    .portOp .checkClientsDiconnected, .portOp .checkClientsDiconnected]

def lifeRun : List AcceptingTransition × AcceptingPort :=
  (portMachine.exec (.new (.tcp .default)) lifeInputs).getD ([], .new (.tcp .default))

theorem run_lifeRun : portMachine.Run (.new (.tcp .default)) lifeRun.1 lifeRun.2 := by
  have hexec : portMachine.exec (.new (.tcp .default)) lifeInputs = some lifeRun := rfl
  exact .of_exec hexec

theorem client_lifecycle_lifeRun :
    (∀ uuid ∈ lifeRun.2.issued.map Prod.fst, ∃! phase, InPhase lifeRun.1 lifeRun.2 uuid phase) ∧
      lifeRun.2.port.notAuthenticatedListening.keys.length +
        lifeRun.2.port.listeningClients.keys.length + (removals lifeRun.1).length = 3 := by
  obtain ⟨-, -, hphases, -, hbalance, -⟩ := client_lifecycle _ _ _ run_lifeRun
  exact ⟨hphases, hbalance⟩

end Inator
