import Inator.Lib.Execution
import Inator.Verify.NotAuthenticated

/-! # When the WebSocket listener reads

While the channel is empty the listener spins between the lock and `try_recv()` and does not come
to its stream, where the reader of a `ServerTcp` does. So what its client sends before its
authentication is read exactly as far as the UUIDs of others, sent before its own, go, and an
error or the end is announced as it should be only if it is never read (`reads_iff_fed`).
Fairness is that the runtime polls the task again and again. -/

namespace Inator
open Machine

namespace NotAuthenticatedListener
variable {target : Uuid} {s : NotAuthenticatedListener} {ts : List ListenerTransition}
  {t : ListenerTransition}

/-! ## The listener gets on -/

/-- How far the task is in a round of its loops. -/
def place : ListenerPhase → ℕ
  | .locking => 0
  | .receiving => 1
  | .reading | .returned => 2

def rank (ts : List ListenerTransition) (s : NotAuthenticatedListener) : ℕ :=
  3 * (given ts).length + place s.phase

/-- The next poll brings the task further. -/
def Works (s : NotAuthenticatedListener) : Prop :=
  match s.phase with
  | .locking => True
  | .receiving => s.clientAuthenticated ≠ [] ∨ s.senderDropped = true
  | .reading => s.stream ≠ [] ∨ s.ended = true
  | .returned => False

/-- A task that has UUIDs of others and results to take gets on. -/
theorem Accounts.works (h : Accounts target ts s)
    (hpaid : (given ts).length < (others target (uuids ts)).length)
    (hmore : (given ts).length < (arrived ts).length) : Works s := by
  cases hphase : s.phase with
  | locking => simp [Works, hphase]
  | receiving =>
    have hsome : s.clientAuthenticated ≠ [] := by
      intro hempty
      have hreceived := h.paid
      rw [h.channel, hempty, List.append_nil] at hpaid
      simp only [hphase, reduceCtorEq, if_false] at hreceived
      omega
    simp [Works, hphase, hsome]
  | reading => simp [Works, hphase, h.stream_ne_nil hmore]
  | returned =>
    have hstopped := (h.stopped hphase).1
    omega

/-- A task that the channel stops in time gets on until it returns. -/
theorem Accounts.works_of_stop (h : Accounts target ts s) (hphase : s.phase ≠ .returned)
    (hothers : (others target (uuids ts)).length ≤ (arrived ts).length)
    (hstop : target ∈ uuids ts ∨ s.senderDropped = true) : Works s := by
  cases hplace : s.phase with
  | locking => simp [Works, hplace]
  | receiving =>
    rcases hstop with hown | hdropped
    · have hsome : s.clientAuthenticated ≠ [] := by
        intro hempty
        rw [h.channel, hempty, List.append_nil] at hown
        exact h.goesOn hphase hown
      simp [Works, hplace, hsome]
    · simp [Works, hplace, hdropped]
  | reading =>
    have hpaid := h.paid_le
    simp only [hplace, if_true] at hpaid
    have hsome := h.stream_ne_nil (by omega)
    simp [Works, hplace, hsome]
  | returned => exact absurd hplace hphase

theorem rank_of_ne_polls (hin : t.input ≠ .polls) (hof : t.Of (listenerMachine target)) :
    rank (ts ++ [t]) t.post = rank ts t.pre := by
  obtain ⟨-, hphase, -⟩ := step_of_ne_polls hin hof
  have hquiet := quiet_of_ne_polls hin hof
  simp [rank, given_snoc, hquiet.next, hphase]

theorem rank_of_polls (hin : t.input = .polls) (hof : t.Of (listenerMachine target))
    (hworks : Works t.pre) : rank ts t.pre < rank (ts ++ [t]) t.post := by
  have hpoll : t.pre.poll target = (t.post, t.output) := by
    change t.pre.step target t.input = some (t.post, t.output) at hof
    rw [hin] at hof
    exact Option.some.inj hof
  obtain ⟨-, -, hnext, -⟩ := polls_logs hin
  have hpost : (t.pre.poll target).1 = t.post := congrArg Prod.fst hpoll
  rw [rank, rank, given_snoc, hnext, ← hpost]
  cases hphase : t.pre.phase with
  | locking => simp [poll, next?, hphase, place]
  | receiving =>
    cases hchannel : t.pre.clientAuthenticated with
    | nil =>
      have hdropped : t.pre.senderDropped = true := by simpa [Works, hphase, hchannel] using hworks
      simp [poll, next?, hphase, hchannel, hdropped, place]
    | cons uuid rest =>
      by_cases hown : uuid = target <;> simp [poll, next?, hphase, hchannel, hown, place]
  | reading =>
    cases hstream : t.pre.stream with
    | nil =>
      have hended : t.pre.ended = true := by simpa [Works, hphase, hstream] using hworks
      simp [poll, next?, hphase, hstream, hended, place]
      omega
    | cons item rest =>
      simp [poll, next?, hphase, hstream, place]
      omega
  | returned => simp [Works, hphase] at hworks

/-! ## Executions -/

section Execution
variable {e : Execution (listenerMachine target) spawned} {m n k : ℕ}

theorem accounts (e : Execution (listenerMachine target) spawned) (n : ℕ) :
    Accounts target (e.before n) (e.state n) :=
  (e.run n).history (Accounts target) accounts_spawned fun _ _ _ h hof => h.step hof

theorem arrived_mono (h : m ≤ n) : arrived (e.before m) <+: arrived (e.before n) :=
  (e.before_mono h).flatMap _

theorem uuids_mono (h : m ≤ n) : uuids (e.before m) <+: uuids (e.before n) :=
  (e.before_mono h).flatMap _

theorem arrived_of_ended (hended : (e.state m).ended = true) (h : m ≤ n) :
    (e.state n).ended = true ∧ arrived (e.before n) = arrived (e.before m) := by
  induction n, h using Nat.le_induction with
  | base => exact ⟨hended, rfl⟩
  | succ n _ ih =>
    obtain ⟨hn, harrived⟩ := ih
    obtain ⟨hpost, hitem⟩ := (closed_of (e.transition_of n)).1 hn
    rw [Execution.before_succ, arrived_snoc, hitem]
    exact ⟨hpost, by simpa using harrived⟩

theorem uuids_of_senderDropped (hdropped : (e.state m).senderDropped = true) (h : m ≤ n) :
    (e.state n).senderDropped = true ∧ uuids (e.before n) = uuids (e.before m) := by
  induction n, h using Nat.le_induction with
  | base => exact ⟨hdropped, rfl⟩
  | succ n _ ih =>
    obtain ⟨hn, huuids⟩ := ih
    obtain ⟨hpost, huuid⟩ := (closed_of (e.transition_of n)).2 hn
    rw [Execution.before_succ, uuids_snoc, huuid]
    exact ⟨hpost, by simpa using huuids⟩

theorem poll_eq (e : Execution (listenerMachine target) spawned) (hin : e.input n = .polls) :
    (e.state n).poll target = (e.state (n + 1), e.output n) := by
  have hstep : (e.state n).step target (e.input n) = some (e.state (n + 1), e.output n) := e.step n
  rw [hin] at hstep
  exact Option.some.inj hstep

/-- The runtime polls the task again and again. -/
def Polled (e : Execution (listenerMachine target) spawned) : Prop := e.Fair (· = .polls)

/-- The task comes to a goal if its next poll always brings it further and it has been given few
results until then. -/
theorem Polled.eventually (hpolled : Polled e) (goal : ℕ → Prop)
    (works : ∀ m, n ≤ m → ¬goal m → Works (e.state m))
    (few : ∀ m, n ≤ m → ¬goal m → (given (e.before m)).length ≤ k) : ∃ m, n ≤ m ∧ goal m := by
  have hgrows : ∀ m, n ≤ m → ¬goal m → e.input m = .polls →
      rank (e.before m) (e.state m) < rank (e.before (m + 1)) (e.state (m + 1)) :=
    fun m hm hgoal hin => rank_of_polls (t := e.transition m) hin (e.transition_of m)
      (works m hm hgoal)
  refine Execution.progress hpolled (fun m => rank (e.before m) (e.state m))
    (3 * k + 3) (fun m hm hgoal => ?_) hgrows fun m hm hgoal => ?_
  · by_cases hin : e.input m = .polls
    · exact (hgrows m hm hgoal hin).le
    · exact (rank_of_ne_polls (t := e.transition m) hin (e.transition_of m)).ge
  · have hplace : place (e.state m).phase ≤ 2 := by cases (e.state m).phase <;> decide
    have hfew := few m hm hgoal
    simp only [rank]
    omega

/-- **While nothing has been sent on the channel, nothing is read.** -/
theorem starves (h : uuids (e.before n) = []) :
    given (e.before n) = [] ∧ NotAuthenticatedListener.notices (e.before n) = [] := by
  have haccounts := accounts e n
  have hpaid := haccounts.paid_le
  rw [h] at hpaid
  have hgiven : given (e.before n) = [] :=
    List.eq_nil_of_length_eq_zero (Nat.le_zero.mp ((Nat.le_add_right _ _).trans hpaid))
  refine ⟨hgiven, ?_⟩
  rw [haccounts.notices, hgiven]
  rfl

/-! ## What is asked of the listener, and when it does it -/

/-- What is asked of the listener. -/
structure Reads (e : Execution (listenerMachine target) spawned) : Prop where
  /-- The messages that arrive before it returns are forwarded in order, up to the first error. -/
  forwards : ∀ n, (e.state n).phase ≠ .returned → ∃ m,
    (WebSocketItem.payloads (arrived (e.before n))).map (.messageReceived · target) <+:
      NotAuthenticatedListener.notices (e.before m)
  /-- On its own UUID it returns, and sends nothing. -/
  handsOver : ∀ n, e.input n = .polls → (e.state n).tryRecv? = some target →
    (e.state (n + 1)).phase = .returned ∧ e.output n = [.popClientAuthenticated]
  /-- On an error and on the end it sends one notification and returns. -/
  notifies : ∀ n, e.input n = .polls →
    (e.state n).next? = some (some .error) ∨ (e.state n).next? = some none →
    (e.state (n + 1)).phase = .returned ∧ e.output n = [.clientDisconnected target false]
  /-- An error or the end does not leave it waiting. -/
  ends : ∀ n, .error ∈ arrived (e.before n) ∨ (e.state n).ended = true →
    ∃ m, (e.state m).phase = .returned

/-- The channel stops the task before it has received more than `k` UUIDs of other clients. -/
def StopsWithin (e : Execution (listenerMachine target) spawned) (k : ℕ) : Prop :=
  ∃ m, (others target (uuids (e.before m))).length ≤ k ∧
    (target ∈ uuids (e.before m) ∨ (e.state m).senderDropped = true)

/-- What the channel has to bring: a UUID of another client for each result up to a message of
bytes, and the task's own UUID in time before an error and before the end. -/
structure Fed (e : Execution (listenerMachine target) spawned) : Prop where
  binary : ∀ n before bytes, (e.state n).phase ≠ .returned →
    before ++ [.binary bytes] <+: arrived (e.before n) → .error ∉ before →
      ∃ m, before.length < (others target (uuids (e.before m))).length
  error : ∀ n before, (e.state n).phase ≠ .returned →
    before ++ [.error] <+: arrived (e.before n) → StopsWithin e before.length
  ended : ∀ n, (e.state n).phase ≠ .returned → (e.state n).ended = true →
    StopsWithin e (arrived (e.before n)).length

theorem StopsWithin.bound (h : StopsWithin e k) :
    ∃ m, ∀ n, m ≤ n → (others target (uuids (e.before n))).length ≤ k ∧
      (target ∈ uuids (e.before n) ∨ (e.state n).senderDropped = true) := by
  obtain ⟨m, hothers, hstop⟩ := h
  refine ⟨m, fun n hmn => ?_⟩
  rcases hstop with hown | hdropped
  · obtain ⟨rest, hrest⟩ := uuids_mono (e := e) hmn
    rw [← hrest, others_append_of_mem hown]
    exact ⟨hothers, .inl (List.mem_append_left _ hown)⟩
  · obtain ⟨hn, huuids⟩ := uuids_of_senderDropped hdropped hmn
    exact ⟨huuids ▸ hothers, .inr hn⟩

/-! ### A listener that reads has been fed -/

/-- A listener that does what is asked has been given neither an error nor the end. -/
theorem Reads.given_ne (h : Reads e) (n : ℕ) :
    some .error ∉ given (e.before n) ∧ none ∉ given (e.before n) := by
  induction n with
  | zero => exact ⟨List.not_mem_nil, List.not_mem_nil⟩
  | succ n ih =>
    rw [Execution.before_succ, given_snoc]
    cases hnext : ListenerTransition.next? (e.transition n) with
    | none => simpa using ih
    | some result =>
      obtain ⟨hin, hresult⟩ : e.input n = .polls ∧ (e.state n).next? = some result := by
        unfold ListenerTransition.next? at hnext
        split at hnext
        · exact ⟨by assumption, hnext⟩
        · cases hnext
      have hplain : ¬(result = some .error ∨ result = none) := by
        intro hbad
        -- such a result leads back to `try_recv()`
        have hreturned : (e.state (n + 1)).phase = .returned := by
          refine (h.notifies n hin ?_).1
          rw [hresult]
          simpa using hbad
        obtain ⟨-, -, -, hpoll⟩ := poll_of_next? target hresult
        rw [(Prod.mk.inj ((poll_eq e hin).symm.trans hpoll)).1] at hreturned
        cases hreturned
      rw [not_or] at hplain
      simp [ih, Ne.symm hplain.1, Ne.symm hplain.2]

theorem Reads.length_given (h : Reads e) (n : ℕ) :
    (given (e.before n)).reduceOption.length = (given (e.before n)).length := by
  refine List.reduceOption_length_eq_iff.mpr fun result hmem => ?_
  cases result with
  | none => exact absurd hmem (h.given_ne n).2
  | some item => rfl

theorem Reads.error_notMem (h : Reads e) (n : ℕ) :
    .error ∉ (given (e.before n)).reduceOption := by
  rw [List.reduceOption_mem_iff]
  exact (h.given_ne n).1

/-- Two beginnings of what arrives. -/
theorem prefix_of_length_le {xs ys : List WebSocketItem} (hxs : xs <+: arrived (e.before m))
    (hys : ys <+: arrived (e.before n)) (hlength : xs.length ≤ ys.length) : xs <+: ys := by
  have hm := hxs.trans (arrived_mono (Nat.le_max_left m n))
  have hn := hys.trans (arrived_mono (Nat.le_max_right m n))
  exact List.prefix_of_prefix_length_le hm hn hlength

theorem Reads.stopsWithin (h : Reads e) (hphase : (e.state m).phase = .returned)
    (hlength : (given (e.before m)).reduceOption.length ≤ k) : StopsWithin e k := by
  obtain ⟨hothers, hstop⟩ := (accounts e m).stopped hphase
  rw [h.length_given] at hlength
  exact ⟨m, by omega, hstop⟩

theorem Reads.fed (h : Reads e) : Fed e where
  binary := by
    intro n before bytes hphase hcome herror
    obtain ⟨m, hforwarded⟩ := h.forwards n hphase
    have haccounts := accounts e m
    rw [haccounts.notices, WebSocketItem.flatMap_sends (h.error_notMem m)] at hforwarded
    have hpayloads := hforwarded.length_le
    simp only [List.length_map] at hpayloads
    have htaken : before.length < (given (e.before m)).reduceOption.length := by
      by_contra hfew
      obtain ⟨rest, hrest⟩ := prefix_of_length_le haccounts.taken_arrived
        ((List.prefix_append _ _).trans hcome) (Nat.not_lt.mp hfew)
      obtain ⟨after, hafter⟩ := hcome
      rw [← hafter, List.append_assoc, WebSocketItem.payloads_append herror, ← hrest,
        WebSocketItem.payloads_append (h.error_notMem m)] at hpayloads
      simp only [List.length_append, List.singleton_append, WebSocketItem.payloads,
        List.length_cons] at hpayloads
      omega
    rw [h.length_given] at htaken
    have hpaid := haccounts.paid_le
    exact ⟨m, by omega⟩
  error := by
    intro n before hphase hcome
    obtain ⟨m, hreturned⟩ := h.ends n (.inl (hcome.mem (by simp)))
    refine h.stopsWithin hreturned ?_
    by_contra hmany
    have htaken : before ++ [.error] <+: (given (e.before m)).reduceOption :=
      prefix_of_length_le hcome (accounts e m).taken_arrived (by simp; omega)
    exact h.error_notMem m (htaken.mem (by simp))
  ended := by
    intro n hphase hended
    obtain ⟨m, hreturned⟩ := h.ends n (.inr hended)
    refine h.stopsWithin hreturned ((accounts e m).taken_arrived.length_le.trans ?_)
    rcases Nat.le_total m n with hmn | hnm
    · exact (arrived_mono hmn).length_le
    · rw [(arrived_of_ended hended hnm).2]

/-! ### A listener that is fed reads -/

/-- A task that the UUIDs of others let read further is given what has arrived. -/
theorem Polled.takes (hpolled : Polled e) {items : List WebSocketItem}
    (hitems : items <+: arrived (e.before n))
    (hpaid : items.length ≤ (others target (uuids (e.before m))).length) :
    ∃ m, items <+: (given (e.before m)).reduceOption := by
  obtain ⟨m', hm', hgiven⟩ := hpolled.eventually (n := max n m) (k := items.length)
    (fun m => items.length ≤ (given (e.before m)).length)
    (fun m' hm' hfew => by
      obtain ⟨rest, hrest⟩ := uuids_mono (e := e) ((Nat.le_max_right n m).trans hm')
      have hothers := others_length_le target (uuids (e.before m)) rest
      have harrived := (hitems.trans (arrived_mono ((Nat.le_max_left n m).trans hm'))).length_le
      rw [hrest] at hothers
      exact (accounts e m').works (by omega) (by omega))
    (fun m' hm' hfew => (Nat.lt_of_not_le hfew).le)
  exact ⟨m', (accounts e m').prefix_taken
    (hitems.trans (arrived_mono ((Nat.le_max_left n m).trans hm'))) hgiven⟩

/-- A task that the channel stops in time returns. -/
theorem Polled.returns (hpolled : Polled e) (hstops : StopsWithin e k)
    (hk : k ≤ (arrived (e.before n)).length) : ∃ m, (e.state m).phase = .returned := by
  obtain ⟨m, hbound⟩ := hstops.bound
  obtain ⟨m', -, hreturned⟩ := hpolled.eventually (n := max n m) (k := k)
    (fun m => (e.state m).phase = .returned)
    (fun m' hm' hphase => by
      obtain ⟨hothers, hstop⟩ := hbound m' ((Nat.le_max_right n m).trans hm')
      have harrived := (arrived_mono (e := e) ((Nat.le_max_left n m).trans hm')).length_le
      exact (accounts e m').works_of_stop hphase (by omega) hstop)
    (fun m' hm' _ => by
      have hothers := (hbound m' ((Nat.le_max_right n m).trans hm')).1
      have hpaid := (accounts e m').paid_le
      omega)
  exact ⟨m', hreturned⟩

/-- A task that waits for a result has received more UUIDs of others than it has been given
results, so the channel does not stop it within these. -/
theorem not_stopsWithin (hphase : (e.state n).phase = .reading)
    (hk : k ≤ (given (e.before n)).length) : ¬StopsWithin e k := by
  intro hstops
  obtain ⟨m, hbound⟩ := hstops.bound
  have hothers := (hbound (max n m) (Nat.le_max_right n m)).1
  obtain ⟨rest, hrest⟩ := uuids_mono (e := e) (Nat.le_max_left n m)
  have hle := others_length_le target (uuids (e.before n)) rest
  have hpaid := (accounts e n).paid_le
  rw [hrest] at hle
  simp only [hphase, if_true] at hpaid
  omega

theorem Fed.reads (h : Fed e) (hpolled : Polled e) : Reads e where
  forwards := by
    intro n hphase
    rcases WebSocketItem.payloads_split (arrived (e.before n)) with
      hnone | ⟨before, bytes, after, hsplit, herror, hpayloads⟩
    · exact ⟨n, by simp [hnone]⟩
    · have hcome : before ++ [.binary bytes] <+: arrived (e.before n) :=
        ⟨after, by simp [hsplit]⟩
      obtain ⟨m₀, hm₀⟩ := h.binary n before bytes hphase hcome herror
      have hpaid : (before ++ [WebSocketItem.binary bytes]).length ≤
          (others target (uuids (e.before m₀))).length := by
        rw [List.length_append]
        exact hm₀
      obtain ⟨m, rest, htaken⟩ := hpolled.takes hcome hpaid
      have herror' : .error ∉ before ++ [.binary bytes] := by simpa using herror
      refine ⟨m, ?_⟩
      rw [(accounts e m).notices, ← htaken, List.flatMap_append,
        WebSocketItem.flatMap_sends herror', hpayloads]
      exact List.prefix_append _ _
  handsOver := by
    intro n hin hown
    obtain ⟨-, -, hpoll⟩ := poll_of_tryRecv? target hown
    obtain ⟨hpost, hout⟩ := Prod.mk.inj ((poll_eq e hin).symm.trans hpoll)
    exact ⟨by simp [hpost], hout⟩
  notifies := by
    intro n hin hnext
    -- the channel has stopped the task before
    exfalso
    have haccounts := accounts e n
    rcases hnext with hnext | hnext
    · obtain ⟨hphase, -, hstream, -⟩ := poll_of_next? target hnext
      have harrived := haccounts.stream
      rw [hstream] at harrived
      have hstops := h.error n (given (e.before n)).reduceOption (by simp [hphase])
        ⟨(e.state n).stream.tail, by simp [harrived]⟩
      exact not_stopsWithin hphase (List.reduceOption_length_le _) hstops
    · obtain ⟨hphase, hnone, -, -⟩ := poll_of_next? target hnext
      obtain ⟨hended, hempty⟩ := hnone rfl
      have harrived := haccounts.stream
      rw [hempty, List.append_nil] at harrived
      have hstops := h.ended n (by simp [hphase]) hended
      rw [harrived] at hstops
      exact not_stopsWithin hphase (List.reduceOption_length_le _) hstops
  ends := by
    intro n hend
    by_cases hphase : (e.state n).phase = .returned
    · exact ⟨n, hphase⟩
    · rcases hend with herror | hended
      · obtain ⟨before, after, hsplit⟩ := List.append_of_mem herror
        have hstops := h.error n before hphase ⟨after, by simp [hsplit]⟩
        exact hpolled.returns hstops (n := n) (by simp [hsplit])
      · exact hpolled.returns (h.ended n hphase hended) le_rfl

/-- **When the listener reads**: when the UUIDs of others keep up with what its client sends, and
its own comes before the end. -/
theorem reads_iff_fed (hpolled : Polled e) : Reads e ↔ Fed e :=
  ⟨Reads.fed, fun h => h.reads hpolled⟩

end Execution

end NotAuthenticatedListener

/-! ## The reader of a `ServerTcp` -/

namespace ServerTcp
variable {target : Uuid}

theorem drain_of_notMem {uuids : List Uuid} (h : target ∉ uuids) :
    drain target uuids = (uuids.map fun _ => .popClientAuthenticated, false) := by
  induction uuids with
  | nil => rfl
  | cons uuid rest ih =>
    have hother : uuid ≠ target := fun hown => h (hown ▸ List.mem_cons_self)
    rw [drain, if_neg hother, ih (List.not_mem_of_not_mem_cons h)]
    rfl

/-- It empties the channel and comes to its stream, whatever UUIDs of others it finds. -/
theorem readTurn_of_notMem {memory : Allocator} {kind : StreamKind} {bytes : BytesOptions}
    {order : OrderOptions} {s rest : List UInt8} {channel : List (List Uuid)}
    {sent : List TaskEvent}
    (h : target ∉ channel.headD [])
    (hturn : ReadType.turn memory (frameIo .server kind) bytes order (.messageReceived · target)
      (.clientDisconnected target false) s = .next sent rest) :
    readTurn memory kind bytes order target false (s, channel) =
      .next ((channel.headD []).map (fun _ => .popClientAuthenticated) ++ sent)
        (rest, channel.tail) := by
  rw [readTurn, drain_of_notMem h]
  simp only [Bool.false_eq_true, if_false, hturn]

end ServerTcp

/-! ## Two clients -/

namespace NotAuthenticatedListener

section Sample

/-- The first message of a client whose channel stays empty. -/
def lonelyInputs : ℕ → ListenerInput
  | 0 => .arrives (.binary [1])
  | _ => .polls

theorem accepts_lonelyInputs : (listenerMachine 0).Accepts spawned lonelyInputs := by
  intro n
  cases n <;> rfl

def lonely : Execution (listenerMachine 0) spawned := .ofInputs lonelyInputs accepts_lonelyInputs

theorem lonely_polled : Polled lonely := fun n => ⟨n + 1, Nat.le_succ n, rfl⟩

theorem uuids_lonely (n : ℕ) : uuids (lonely.before n) = [] := by
  induction n with
  | zero => rfl
  | succ n ih =>
    have hnone : (lonely.transition n).input.uuid? = none := by cases n <;> rfl
    rw [Execution.before_succ, uuids_snoc, ih, hnone]
    rfl

/-- **Its first message is never forwarded.** -/
theorem lonely_not_reads : Polled lonely ∧ ¬Reads lonely := by
  refine ⟨lonely_polled, fun h => ?_⟩
  obtain ⟨m, hforwarded⟩ := h.forwards 1 (by decide)
  rw [(starves (uuids_lonely m)).2] at hforwarded
  have harrived : arrived (lonely.before 1) = [.binary [1]] := rfl
  rw [harrived] at hforwarded
  cases List.prefix_nil.mp hforwarded

/-- The same message, with the UUID of another client in the channel before its own. -/
def fedInputs : ℕ → ListenerInput
  | 0 => .sends 1
  | 1 => .arrives (.binary [1])
  | 2 => .sends 0
  | _ => .polls

theorem accepts_fedInputs : (listenerMachine 0).Accepts spawned fedInputs := by
  intro n
  rcases n with _ | _ | _ | n <;> rfl

def fedClient : Execution (listenerMachine 0) spawned := .ofInputs fedInputs accepts_fedInputs

theorem fedClient_polled : Polled fedClient := fun n => ⟨n + 3, by omega, rfl⟩

theorem arrived_fedClient (n : ℕ) : arrived (fedClient.before (n + 2)) = [.binary [1]] := by
  induction n with
  | zero => rfl
  | succ n ih =>
    have hnone : (fedClient.transition (n + 2)).input.item? = none := by cases n <;> rfl
    rw [Execution.before_succ, arrived_snoc, ih, hnone]
    rfl

theorem arrived_fedClient_le (n : ℕ) : arrived (fedClient.before n) <+: [.binary [1]] := by
  rw [← arrived_fedClient n]
  exact arrived_mono (Nat.le_add_right n 2)

theorem fedClient_fed : Fed fedClient where
  binary := by
    intro n before bytes hphase hcome herror
    have hlength := (hcome.trans (arrived_fedClient_le n)).length_le
    simp only [List.length_append, List.length_singleton] at hlength
    have hpaid : (others 0 (uuids (fedClient.before 1))).length = 1 := by decide
    exact ⟨1, by omega⟩
  error := by
    intro n before hphase hcome
    have hmem := (hcome.trans (arrived_fedClient_le n)).mem (a := .error) (by simp)
    simp at hmem
  ended := by
    intro n hphase hended
    rcases n with _ | _ | n
    · cases hended
    · cases hended
    · rw [arrived_fedClient]
      exact ⟨3, by decide, .inl (by decide)⟩

/-- It is forwarded, and the client handed over. -/
theorem fedClient_reads : Reads fedClient := (reads_iff_fed fedClient_polled).mpr fedClient_fed

end Sample

end NotAuthenticatedListener

end Inator
