import Inator.Lib.Ledger
import Inator.Verify.Readers

/-! # What `check_clients_diconnected` reports

A notification carries the status its reader had when it was started. It is reported whether or
not the map of that status has the client; `reports_iff` says when the reports are right. -/

namespace Inator
open TcpServer

/-! ## One operation -/

namespace PortOp
variable {port : ServerPort} {runtime : Option Runtime} {op : PortOp} {k : Uuid}

/-- Only `check_clients_connected` and `check_clients_diconnected` change whom the port holds. -/
theorem holds_run (hadmits : ∀ newUuid, op = .checkClientsConnected newUuid →
      port.clientConnected = [])
    (hother : op ≠ .checkClientsDiconnected) :
    (op.run port runtime).1.Holds k ↔ port.Holds k := by
  have heffect := op.run_effect port runtime
  generalize (op.run port runtime).1 = after at heffect
  cases heffect with
  | quiet _ _ _ _ listening waiting =>
    unfold ServerPort.Holds
    rw [listening, waiting]
  | marked => exact or_congr_right AssocMap.mem_mapVals
  | disconnected | disconnectedWaiting => exact absurd rfl hother
  | admitted popped =>
    rw [hadmits _ rfl] at popped
    cases popped

end PortOp

namespace ServerPort
variable {port : ServerPort} {uuid k : Uuid} {isAuthenticated : Bool}
  {rest : List (Uuid × Bool)}

/-- The map that a status names has the client. -/
def HoldsAs (port : ServerPort) (uuid : Uuid) (isAuthenticated : Bool) : Prop :=
  if isAuthenticated then uuid ∈ port.listeningClients
  else uuid ∈ port.notAuthenticatedListening

theorem holds_iff_holdsAs (isAuthenticated : Bool) :
    port.Holds uuid ↔ port.HoldsAs uuid isAuthenticated ∨ port.HoldsAs uuid (!isAuthenticated) := by
  cases isAuthenticated with
  | true => exact Iff.rfl
  | false => exact or_comm

/-- The maps are apart, so only one of them has the client. -/
theorem Apart.not_holdsAs (h : port.Apart) (hholds : port.HoldsAs uuid isAuthenticated) :
    ¬port.HoldsAs uuid (!isAuthenticated) := by
  cases isAuthenticated with
  | true => exact h uuid hholds
  | false => exact fun hlistening => h uuid hlistening hholds

/-- What a call with a notification reports, and whom the port still holds after it. -/
theorem checkClientsDiconnected_cons
    (h : port.clientDisconnected = (uuid, isAuthenticated) :: rest) :
    port.checkClientsDiconnected.2 = [uuid] ∧
      (port.checkClientsDiconnected.1.Holds k ↔ port.Holds k ∧
        (k = uuid → port.HoldsAs uuid (!isAuthenticated))) := by
  unfold checkClientsDiconnected
  rw [h]
  by_cases hk : k = uuid
  · subst hk
    cases isAuthenticated with
    | false => exact ⟨rfl, by simpa [Holds, HoldsAs] using Or.inl⟩
    | true => exact ⟨rfl, by simpa [Holds, HoldsAs] using Or.inr⟩
  · cases isAuthenticated <;> exact ⟨rfl, by simp [Holds, hk]⟩

theorem checkClientsDiconnected_nil (h : port.clientDisconnected = []) :
    port.checkClientsDiconnected = (port, []) := by
  unfold checkClientsDiconnected
  rw [h]

end ServerPort

/-! ## One step of a server -/

namespace TcpServer
variable {server after : TcpServer} {input : TcpInput} {output : TcpOutput}

theorem step_disconnects
    (h : server.step (.portOp .checkClientsDiconnected) = some (after, output)) :
    after.port = server.port.checkClientsDiconnected.1 ∧
      output.returned = server.port.checkClientsDiconnected.2 := by
  cases h
  exact ⟨rfl, rfl⟩

/-- How a step changes whom the port holds: it gives out a new client, or reports one, or does
neither. -/
inductive Accounting (server : TcpServer) (input : TcpInput) (after : TcpServer)
    (output : TcpOutput) : Prop
  | kept (returned : output.returned = []) (issued : after.issued = server.issued)
      (holds : ∀ k, after.port.Holds k ↔ server.port.Holds k)
  | admitted {newUuid : Uuid} {stream : Stream} (returned : output.returned = [])
      (fresh : newUuid ∉ server.issued.map Prod.fst)
      (issued : after.issued = (newUuid, stream) :: server.issued)
      (holds : ∀ k, after.port.Holds k ↔ k = newUuid ∨ server.port.Holds k)
  | reported {uuid : Uuid} {isAuthenticated : Bool} {rest : List (Uuid × Bool)}
      (asked : input = .portOp .checkClientsDiconnected)
      (popped : server.port.clientDisconnected = (uuid, isAuthenticated) :: rest)
      (returned : output.returned = [uuid]) (issued : after.issued = server.issued)
      (holds : ∀ k, after.port.Holds k ↔ server.port.Holds k ∧
        (k = uuid → server.port.HoldsAs uuid (!isAuthenticated)))

theorem ran_accounting {op : PortOp} (asked : input = .portOp op)
    (admits : server.admits op = none) :
    Accounting server input (server.operated (op.run server.port server.runtime))
      ⟨[], server.returns op⟩ := by
  by_cases hop : op = .checkClientsDiconnected
  · subst hop
    cases hqueue : server.port.clientDisconnected with
    | nil =>
      have hnil := ServerPort.checkClientsDiconnected_nil hqueue
      refine .kept ?_ rfl fun k => ?_
      · rw [returns, hnil]
      · rw [operated, PortOp.run, hnil]
    | cons notification rest =>
      have hcons := fun k => ServerPort.checkClientsDiconnected_cons (k := k) hqueue
      exact .reported asked hqueue (hcons 0).1 rfl fun k => (hcons k).2
  · refine .kept ?_ rfl fun k => PortOp.holds_run (admits_eq_none.mp admits) hop
    cases op with
    | checkClientsDiconnected => exact absurd rfl hop
    | _ => rfl

theorem step_accounting (h : server.Change input after output) :
    Accounting server input after output := by
  cases h with
  | startRuntime | connected | peer => exact .kept rfl rfl fun _ => Iff.rfl
  | ran asked admits => exact ran_accounting asked admits
  | authenticated => exact .kept rfl rfl fun _ => ServerPort.holds_authenticateClient
  | @admitted newUuid stream rest fresh queue =>
    refine .admitted rfl fresh rfl fun k => ?_
    simp only [ServerPort.Holds, giveOut, AList.mem_insert]
    exact or_left_comm
  | reader _ _ moves =>
    obtain ⟨hlistening, hwaiting⟩ := moves.maps
    refine .kept rfl rfl fun k => ?_
    simp only [ServerPort.Holds, stepped, hlistening, hwaiting]

end TcpServer

/-! ## The runs of a server -/

/-- The UUIDs that were reported in a run. -/
def returns (ts : List TcpTransition) : List Uuid :=
  ts.flatMap fun t => t.output.returned

theorem returns_snoc (ts : List TcpTransition) (t : TcpTransition) :
    returns (ts ++ [t]) = returns ts ++ t.output.returned := by
  simp only [returns, List.flatMap_append, List.flatMap_singleton]

/-- Whoever is reported is gone from the port, and nobody is reported twice. -/
structure Reports (ts : List TcpTransition) : Prop where
  gone : ∀ t ∈ ts, ∀ uuid ∈ t.output.returned,
    uuid ∉ t.post.port.listeningClients ∧ uuid ∉ t.post.port.notAuthenticatedListening
  once : (returns ts).Nodup

/-- The notification that a call takes up finds its client in the map its status names. -/
def FindsClient (t : TcpTransition) : Prop :=
  t.input = .portOp .checkClientsDiconnected → ∀ uuid isAuthenticated rest,
    t.pre.port.clientDisconnected = (uuid, isAuthenticated) :: rest →
      t.pre.port.HoldsAs uuid isAuthenticated

/-- Every client that was given out is held, or has been reported, and not both. -/
structure Accounts (ts : List TcpTransition) (server : TcpServer) : Prop where
  held : ∀ uuid ∈ server.issued.map Prod.fst, server.port.Holds uuid ∨ uuid ∈ returns ts
  gone : ∀ uuid ∈ returns ts, uuid ∈ server.issued.map Prod.fst ∧ ¬server.port.Holds uuid

section Runs
variable {settings : TcpSettingsServer} {ts : List TcpTransition} {t : TcpTransition}

/-- A step that reports nobody. -/
theorem Reports.snoc_nil (h : Reports ts) (hreturned : t.output.returned = []) :
    Reports (ts ++ [t]) where
  gone t' ht' uuid huuid := by
    rcases List.mem_append.mp ht' with ht' | ht'
    · exact h.gone t' ht' uuid huuid
    · cases List.mem_singleton.mp ht'
      rw [hreturned] at huuid
      cases huuid
  once := by
    rw [returns_snoc, hreturned, List.append_nil]
    exact h.once

/-- A step that reports a client for the first time, and lets it go. -/
theorem Reports.snoc_reported (h : Reports ts) {uuid : Uuid}
    (hreturned : t.output.returned = [uuid]) (hgone : ¬t.post.port.Holds uuid)
    (hfirst : uuid ∉ returns ts) : Reports (ts ++ [t]) where
  gone t' ht' uuid' huuid' := by
    rcases List.mem_append.mp ht' with ht' | ht'
    · exact h.gone t' ht' uuid' huuid'
    · cases List.mem_singleton.mp ht'
      rw [hreturned] at huuid'
      cases List.mem_singleton.mp huuid'
      exact not_or.mp hgone
  once := by
    rw [returns_snoc, hreturned]
    refine List.nodup_append.mpr ⟨h.once, List.nodup_singleton uuid, ?_⟩
    intro uuid' huuid' new hnew heq
    cases List.mem_singleton.mp hnew
    exact hfirst (heq ▸ huuid')

theorem Accounts.iff_ledger {server : TcpServer} : Accounts ts server ↔
    Ledger (server.issued.map Prod.fst) server.port.Holds (returns ts) :=
  ⟨fun h => ⟨h.held, h.gone⟩, fun h => ⟨h.held, h.gone⟩⟩

theorem Accounts.snoc_kept (h : Accounts ts t.pre) (hreturned : t.output.returned = [])
    (hissued : t.post.issued = t.pre.issued)
    (hholds : ∀ k, t.post.port.Holds k ↔ t.pre.port.Holds k) :
    Accounts (ts ++ [t]) t.post := by
  rw [Accounts.iff_ledger, returns_snoc, hreturned, List.append_nil, hissued]
  exact (Accounts.iff_ledger.mp h).congr hholds

theorem Accounts.snoc_admitted (h : Accounts ts t.pre) {newUuid : Uuid} {stream : Stream}
    (hreturned : t.output.returned = []) (hfresh : newUuid ∉ t.pre.issued.map Prod.fst)
    (hissued : t.post.issued = (newUuid, stream) :: t.pre.issued)
    (hholds : ∀ k, t.post.port.Holds k ↔ k = newUuid ∨ t.pre.port.Holds k) :
    Accounts (ts ++ [t]) t.post := by
  rw [Accounts.iff_ledger, returns_snoc, hreturned, List.append_nil, hissued]
  exact (Accounts.iff_ledger.mp h).issue hfresh hholds

theorem Accounts.snoc_reported (h : Accounts ts t.pre) {uuid : Uuid}
    (hreturned : t.output.returned = [uuid]) (hknown : uuid ∈ t.pre.issued.map Prod.fst)
    (hissued : t.post.issued = t.pre.issued)
    (hholds : ∀ k, t.post.port.Holds k ↔ t.pre.port.Holds k ∧ k ≠ uuid) :
    Accounts (ts ++ [t]) t.post := by
  rw [Accounts.iff_ledger, returns_snoc, hreturned, hissued]
  exact (Accounts.iff_ledger.mp h).remove hknown hholds

/-- A step that meets the condition keeps the reports right. -/
theorem reports_step (hregistered : t.pre.Registered settings) (haccounts : Accounts ts t.pre)
    (hof : t.Of tcpMachine) (hreports : Reports ts) (hfinds : FindsClient t) :
    Reports (ts ++ [t]) ∧ Accounts (ts ++ [t]) t.post := by
  cases step_accounting (step_change hof) with
  | kept returned issued holds =>
    exact ⟨hreports.snoc_nil returned, haccounts.snoc_kept returned issued holds⟩
  | admitted returned fresh issued holds =>
    exact ⟨hreports.snoc_nil returned, haccounts.snoc_admitted returned fresh issued holds⟩
  | @reported uuid isAuthenticated rest asked popped returned issued holds =>
    have hfound := hfinds asked uuid isAuthenticated rest popped
    have hheld := (ServerPort.holds_iff_holdsAs isAuthenticated).mpr (.inl hfound)
    -- the map that the status names lets the client go, and the other one never had it
    have hholds : ∀ k, t.post.port.Holds k ↔ t.pre.port.Holds k ∧ k ≠ uuid := by
      intro k
      rw [holds]
      refine and_congr_right fun _ => forall_congr' fun _ => iff_of_false ?_ id
      exact hregistered.apart.not_holdsAs hfound
    have hissued : uuid ∈ t.pre.issued.map Prod.fst :=
      hregistered.notified (uuid, isAuthenticated) (popped ▸ List.mem_cons_self)
    have hgone : ¬t.post.port.Holds uuid := fun hafter => ((hholds uuid).mp hafter).2 rfl
    have hfirst : uuid ∉ returns ts := fun hbefore => (haccounts.gone uuid hbefore).2 hheld
    exact ⟨hreports.snoc_reported returned hgone hfirst,
      haccounts.snoc_reported returned hissued issued hholds⟩

/-- A step that keeps the reports right meets the condition. -/
theorem findsClient_of_reports (hregistered : t.pre.Registered settings)
    (haccounts : Accounts ts t.pre) (hof : t.Of tcpMachine) (hreports : Reports (ts ++ [t])) :
    FindsClient t := by
  intro hinput uuid isAuthenticated rest hpopped
  have hstep : t.pre.step (.portOp .checkClientsDiconnected) = some (t.post, t.output) :=
    hinput ▸ hof
  obtain ⟨hport, hreturned⟩ := step_disconnects hstep
  obtain ⟨hreported, hholds⟩ := ServerPort.checkClientsDiconnected_cons (k := uuid) hpopped
  rw [hreported] at hreturned
  rw [← hport] at hholds
  have huuid : uuid ∈ t.output.returned := hreturned ▸ List.mem_singleton_self uuid
  have hissued : uuid ∈ t.pre.issued.map Prod.fst :=
    hregistered.notified (uuid, isAuthenticated) (hpopped ▸ List.mem_cons_self)
  have honce := hreports.once
  rw [returns_snoc] at honce
  have hheld : t.pre.port.Holds uuid := by
    rcases haccounts.held uuid hissued with hheld | hbefore
    · exact hheld
    · exact absurd rfl ((List.nodup_append.mp honce).2.2 uuid hbefore uuid huuid)
  have hgone : ¬t.post.port.Holds uuid := by
    have hlast := hreports.gone t (List.mem_append_right _ List.mem_cons_self) uuid huuid
    exact not_or.mpr hlast
  refine ((ServerPort.holds_iff_holdsAs isAuthenticated).mp hheld).resolve_right fun hother => ?_
  exact hgone (hholds.mpr ⟨hheld, fun _ => hother⟩)

/-- **When the reports are right**: exactly when every notification that is taken up finds its
client in the map that its status names. -/
theorem reports_iff (settings : TcpSettingsServer) (ts : List TcpTransition) (server : TcpServer)
    (h : tcpMachine.Run (.new settings) ts server) :
    Reports ts ↔ ∀ t ∈ ts, FindsClient t := by
  have hreports : Reports [] := by
    refine ⟨fun t ht => ?_, List.nodup_nil⟩
    cases ht
  have haccounts : Accounts [] (new settings) := by
    refine ⟨fun uuid huuid => ?_, fun uuid huuid => ?_⟩ <;> cases huuid
  refine h.trace_iff Accounts ?_ ⟨hreports, haccounts⟩ ?_ ?_
  · intro ts t hreports
    refine ⟨fun t' ht' => hreports.gone t' (List.mem_append_left _ ht'), ?_⟩
    have honce := hreports.once
    rw [returns_snoc] at honce
    exact (List.nodup_append.mp honce).1
  · intro ts t hrun haccounts hof hreports hfinds
    exact reports_step (registered_run hrun) haccounts hof hreports hfinds
  · intro ts t hrun haccounts hof hreports
    exact findsClient_of_reports (registered_run hrun) haccounts hof hreports

end Runs

/-- A client sends a message and hangs up. Its reader sees the end before the message is
handled, and the client is authenticated all the same. -/
def lateInputs : List TcpInput :=
  [.startRuntime, .connect .stream, .portOp (.checkClientsConnected 7),
    .portOp .checkNotAuthenticatedClients, .send 0 [1, 0, 0, 0, 42], .close 0, .reader 0,
    .reader 0, .reader 0, .reader 0, .reader 0, .reader 0, .reader 0, .reader 0, .reader 0,
    .reader 0, .reader 0, .authenticateClient 7, .portOp .checkClientsDiconnected]

def lateRun : List TcpTransition × TcpServer :=
  (tcpMachine.exec (.new .default) lateInputs).getD ([], .new .default)

theorem run_lateRun : tcpMachine.Run (.new .default) lateRun.1 lateRun.2 := by
  have hexec : tcpMachine.exec (.new .default) lateInputs = some lateRun := rfl
  exact .of_exec hexec

theorem reports_lateRun : Reports lateRun.1 ↔ ∀ t ∈ lateRun.1, FindsClient t :=
  reports_iff .default _ _ run_lateRun

/-- The client is reported, and is among the authenticated clients of the port. -/
theorem lateRun_reported :
    ¬∀ ts server, tcpMachine.Run (.new .default) ts server → Reports ts := by
  intro h
  have hgone := (h _ _ run_lateRun).gone (lateRun.1.getLast (by decide)) (List.getLast_mem _) 7
    (by decide)
  exact hgone.1 (AssocMap.mem_of_lookup rfl)

end Inator
