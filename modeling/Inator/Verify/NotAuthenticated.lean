import Inator.Ports.NotAuthenticated
import Inator.Verify.Ending
import Mathlib.Data.List.Infix
import Mathlib.Data.List.ReduceOption

/-! # The accounts of the WebSocket listener before authentication

The listener reads one result of its stream for each UUID of another client that it receives from
the `client_authenticated` channel. `Accounts` says so of every run, together with where what has
arrived and what has been sent on the channel has gone; the last section ties the task to the
events of its port. -/

namespace Inator
open Machine

/-! ## Payloads and what they make a listener send -/

namespace WebSocketItem
variable {ε : Type} {received : List UInt8 → ε} {down : ε} {items rest : List WebSocketItem}

theorem payloads_append (h : .error ∉ items) :
    payloads (items ++ rest) = payloads items ++ payloads rest := by
  induction items with
  | nil => rfl
  | cons item items ih =>
    have hrest := ih (List.not_mem_of_not_mem_cons h)
    cases item with
    | binary bytes => exact congrArg (bytes :: ·) hrest
    | other => exact hrest
    | error => exact absurd List.mem_cons_self h

theorem flatMap_sends (h : .error ∉ items) :
    items.flatMap (sends received down) = (payloads items).map received := by
  induction items with
  | nil => rfl
  | cons item items ih =>
    have hrest := ih (List.not_mem_of_not_mem_cons h)
    cases item with
    | binary bytes => exact congrArg (received bytes :: ·) hrest
    | other => exact hrest
    | error => exact absurd List.mem_cons_self h

/-- The payloads end with the last message of bytes that comes before an error. -/
theorem payloads_split (items : List WebSocketItem) :
    payloads items = [] ∨ ∃ before bytes after, items = before ++ .binary bytes :: after ∧
      .error ∉ before ∧ payloads items = payloads (before ++ [.binary bytes]) := by
  induction items with
  | nil => exact .inl rfl
  | cons item items ih =>
    cases item with
    | error => exact .inl rfl
    | other =>
      rcases ih with hnone | ⟨before, bytes, after, rfl, herror, hpayloads⟩
      · exact .inl hnone
      · have herror' : .error ∉ .other :: before := by simpa using herror
        exact .inr ⟨.other :: before, bytes, after, rfl, herror', hpayloads⟩
    | binary first =>
      rcases ih with hnone | ⟨before, bytes, after, rfl, herror, hpayloads⟩
      · exact .inr ⟨[], first, items, rfl, List.not_mem_nil, congrArg (first :: ·) hnone⟩
      · have herror' : .error ∉ .binary first :: before := by simpa using herror
        exact .inr ⟨.binary first :: before, bytes, after, rfl, herror',
          congrArg (first :: ·) hpayloads⟩

end WebSocketItem

/-! ## What a run of the listener has taken and sent -/

def ListenerInput.item? : ListenerInput → Option WebSocketItem
  | .arrives item => some item
  | _ => none

def ListenerInput.uuid? : ListenerInput → Option Uuid
  | .sends uuid => some uuid
  | _ => none

namespace NotAuthenticatedListener

/-- What `guard.next()` gives the task when it is polled in it. -/
def next? (s : NotAuthenticatedListener) : Option (Option WebSocketItem) :=
  match s.phase, s.stream with
  | .reading, item :: _ => some (some item)
  | .reading, [] => if s.ended then some none else none
  | _, _ => none

/-- What `try_recv()` gives the task when it is polled at the top of the inner loop. -/
def tryRecv? (s : NotAuthenticatedListener) : Option Uuid :=
  match s.phase with
  | .receiving => s.clientAuthenticated.head?
  | _ => none

end NotAuthenticatedListener

/-- A step of a run of the listener. -/
abbrev ListenerTransition :=
  Transition NotAuthenticatedListener ListenerInput (List TaskEvent)

namespace ListenerTransition

def next? (t : ListenerTransition) : Option (Option WebSocketItem) :=
  match t.input with
  | .polls => t.pre.next?
  | _ => none

def tryRecv? (t : ListenerTransition) : Option Uuid :=
  match t.input with
  | .polls => t.pre.tryRecv?
  | _ => none

end ListenerTransition

namespace NotAuthenticatedListener

section Logs
variable (ts : List ListenerTransition)

/-- The results that have arrived on the stream. -/
def arrived : List WebSocketItem := ts.flatMap (·.input.item?.toList)

/-- The UUIDs that have been sent on the channel. -/
def uuids : List Uuid := ts.flatMap (·.input.uuid?.toList)

/-- The results that the task has been given. -/
def given : List (Option WebSocketItem) := ts.flatMap (·.next?.toList)

/-- The UUIDs that the task has received. -/
def received : List Uuid := ts.flatMap (·.tryRecv?.toList)

/-- What the task has sent. -/
def notices : List TaskEvent := ts.flatMap fun t => t.output.filter (· ≠ .popClientAuthenticated)

end Logs

/-- The UUIDs of other clients that come before the task's own. -/
def others (target : Uuid) (uuids : List Uuid) : List Uuid := uuids.takeWhile (· ≠ target)

variable {target : Uuid} {s : NotAuthenticatedListener} {ts us : List ListenerTransition}
  {t : ListenerTransition}

theorem others_append {before rest : List Uuid} (h : target ∉ before) :
    others target (before ++ rest) = before ++ others target rest := by
  refine List.takeWhile_append_of_pos fun uuid huuid => ?_
  simpa using fun heq : uuid = target => h (heq ▸ huuid)

theorem others_of_not_mem {uuids : List Uuid} (h : target ∉ uuids) :
    others target uuids = uuids := by
  have hall : others target (uuids ++ []) = uuids ++ others target [] := others_append h
  simpa [others] using hall

@[simp] theorem others_own {before rest : List Uuid} (h : target ∉ before) :
    others target (before ++ target :: rest) = before := by
  rw [others_append h]
  simp [others]

theorem others_append_of_mem {uuids rest : List Uuid} (h : target ∈ uuids) :
    others target (uuids ++ rest) = others target uuids := by
  induction uuids with
  | nil => cases h
  | cons uuid uuids ih =>
    by_cases hown : uuid = target
    · simp [others, hown]
    · have hmem : target ∈ uuids := (List.mem_cons.mp h).resolve_left (Ne.symm hown)
      simpa [others, hown] using ih hmem

theorem others_length_le (target : Uuid) (uuids rest : List Uuid) :
    (others target uuids).length ≤ (others target (uuids ++ rest)).length := by
  by_cases hmem : target ∈ uuids
  · rw [others_append_of_mem hmem]
  · rw [others_of_not_mem hmem, others_append hmem, List.length_append]
    exact Nat.le_add_right _ _

/-- What is known of a run that has come to `s`: nothing of the stream or of the channel is lost,
and each result that the task has been given, and the one it waits for, is paid by the UUID of
another client. -/
structure Accounts (target : Uuid) (ts : List ListenerTransition) (s : NotAuthenticatedListener) :
    Prop where
  stream : arrived ts = (given ts).reduceOption ++ s.stream
  channel : uuids ts = received ts ++ s.clientAuthenticated
  goesOn : s.phase ≠ .returned → target ∉ received ts
  returned : s.phase = .returned →
    (∃ before, target ∉ before ∧ received ts = before ++ [target]) ∨
      target ∉ received ts ∧ s.clientAuthenticated = [] ∧ s.senderDropped = true
  notices : notices ts = (given ts).reduceOption.flatMap
    (WebSocketItem.sends (.messageReceived · target) (.clientDisconnected target false))
  paid : (others target (received ts)).length =
    (given ts).length + if s.phase = .reading then 1 else 0
  exhausted : none ∈ given ts → s.ended = true ∧ s.stream = []

theorem accounts_spawned : Accounts target [] spawned where
  stream := rfl
  channel := rfl
  goesOn := fun _ => List.not_mem_nil
  returned := fun h => by cases h
  notices := rfl
  paid := rfl
  exhausted := fun h => by cases h

/-! ## What a step does -/

/-- A step in which the task is given and receives nothing. -/
structure Quiet (t : ListenerTransition) : Prop where
  next : t.next? = none
  tryRecv : t.tryRecv? = none
  output : t.output = []
  reading : t.post.phase = .reading ↔ t.pre.phase = .reading
  stays : t.pre.phase = .returned → t.post.phase = .returned
  returns : t.post.phase = .returned →
    t.pre.phase = .returned ∨ t.pre.clientAuthenticated = [] ∧ t.pre.senderDropped = true
  stream : t.post.stream = t.pre.stream ++ t.input.item?.toList
  channel : t.post.clientAuthenticated = t.pre.clientAuthenticated ++ t.input.uuid?.toList
  ended : t.pre.ended = true → t.post.ended = true ∧ t.input.item? = none
  dropped : t.pre.senderDropped = true → t.post.senderDropped = true ∧ t.input.uuid? = none

/-- An input that is no poll adds to the two sources only. -/
theorem step_of_ne_polls {input : ListenerInput} {s' : NotAuthenticatedListener}
    {output : List TaskEvent} (hin : input ≠ .polls) (h : s.step target input = some (s', output)) :
    output = [] ∧ s'.phase = s.phase ∧ s'.stream = s.stream ++ input.item?.toList ∧
      s'.clientAuthenticated = s.clientAuthenticated ++ input.uuid?.toList ∧
      (s.ended = true → s'.ended = true ∧ input.item? = none) ∧
      (s.senderDropped = true → s'.senderDropped = true ∧ input.uuid? = none) := by
  cases input with
  | polls => exact absurd rfl hin
  | arrives item =>
    simp only [step, Option.ite_none_left_eq_some] at h
    obtain ⟨hopen, h⟩ := h
    cases h
    simp [ListenerInput.item?, ListenerInput.uuid?, hopen]
  | sends uuid =>
    simp only [step, Option.ite_none_left_eq_some] at h
    obtain ⟨hopen, h⟩ := h
    cases h
    simp [ListenerInput.item?, ListenerInput.uuid?, hopen]
  | ends =>
    cases h
    simp [ListenerInput.item?, ListenerInput.uuid?]
  | dropsSender =>
    cases h
    simp [ListenerInput.item?, ListenerInput.uuid?]

theorem quiet_of_ne_polls (hin : t.input ≠ .polls) (hof : t.Of (listenerMachine target)) :
    Quiet t := by
  obtain ⟨hout, hphase, hstream, hchannel, hended, hdropped⟩ := step_of_ne_polls hin hof
  have hlogs : t.next? = none ∧ t.tryRecv? = none := by
    unfold ListenerTransition.next? ListenerTransition.tryRecv?
    split <;> simp_all
  exact {
    next := hlogs.1
    tryRecv := hlogs.2
    output := hout
    reading := by rw [hphase]
    stays := fun h => hphase.trans h
    returns := fun h => .inl (hphase.symm.trans h)
    stream := hstream
    channel := hchannel
    ended := hended
    dropped := hdropped }

theorem poll_of_next? (target : Uuid) {result : Option WebSocketItem} (h : s.next? = some result) :
    s.phase = .reading ∧ (result = none → s.ended = true ∧ s.stream = []) ∧
      s.stream = result.toList ++ s.stream.tail ∧
      s.poll target = ({ s with phase := .receiving, stream := s.stream.tail },
        result.elim [] (WebSocketItem.sends (.messageReceived · target)
          (.clientDisconnected target false))) := by
  have hphase : s.phase = .reading := by
    unfold next? at h
    split at h
    · assumption
    · assumption
    · cases h
  cases hstream : s.stream with
  | nil =>
    obtain ⟨hended, rfl⟩ : s.ended = true ∧ none = result := by
      simpa [next?, hphase, hstream] using h
    simp [poll, hphase, hstream, hended]
  | cons item rest =>
    have hresult : some item = result := by simpa [next?, hphase, hstream] using h
    subst hresult
    cases item <;> simp [poll, hphase, hstream, WebSocketItem.sends]

theorem poll_of_tryRecv? (target : Uuid) {uuid : Uuid} (h : s.tryRecv? = some uuid) :
    s.phase = .receiving ∧ s.clientAuthenticated = uuid :: s.clientAuthenticated.tail ∧
      s.poll target = ({ s with
          phase := if uuid = target then .returned else .reading
          clientAuthenticated := s.clientAuthenticated.tail },
        [.popClientAuthenticated]) := by
  have hphase : s.phase = .receiving := by
    unfold tryRecv? at h
    split at h
    · assumption
    · cases h
  cases hchannel : s.clientAuthenticated with
  | nil => simp [tryRecv?, hphase, hchannel] at h
  | cons head rest =>
    have hhead : head = uuid := by simpa [tryRecv?, hphase, hchannel] using h
    subst hhead
    simp [poll, hphase, hchannel]

theorem polls_logs (hin : t.input = .polls) :
    t.input.item? = none ∧ t.input.uuid? = none ∧ t.next? = t.pre.next? ∧
      t.tryRecv? = t.pre.tryRecv? := by
  simp [ListenerInput.item?, ListenerInput.uuid?, ListenerTransition.next?,
    ListenerTransition.tryRecv?, hin]

/-- A poll that gives the task nothing changes where it waits at most. -/
theorem poll_idle (target : Uuid) (hnext : s.next? = none) (hrecv : s.tryRecv? = none) :
    ∃ phase, s.poll target = ({ s with phase := phase }, []) ∧
      (phase = .reading ↔ s.phase = .reading) ∧ (s.phase = .returned → phase = .returned) ∧
      (phase = .returned →
        s.phase = .returned ∨ s.clientAuthenticated = [] ∧ s.senderDropped = true) := by
  cases hphase : s.phase with
  | locking => exact ⟨.receiving, by simp [poll, hphase]⟩
  | receiving =>
    have hempty : s.clientAuthenticated = [] := by simpa [tryRecv?, hphase] using hrecv
    cases hdropped : s.senderDropped with
    | false => exact ⟨.locking, by simp [poll, hphase, hempty, hdropped]⟩
    | true => exact ⟨.returned, by simp [poll, hphase, hempty, hdropped]⟩
  | reading =>
    have hwaits : s.stream = [] ∧ s.ended = false := by
      cases hstream : s.stream with
      | nil => simpa [next?, hphase, hstream] using hnext
      | cons item rest => simp [next?, hphase, hstream] at hnext
    exact ⟨.reading, by simp [poll, hphase, hwaits]⟩
  | returned =>
    have hsame : { s with phase := .returned } = s := by rw [← hphase]
    exact ⟨.returned, by simp [poll, hphase, hsame]⟩

theorem quiet_of_polls (hin : t.input = .polls) (hnext : t.pre.next? = none)
    (hrecv : t.pre.tryRecv? = none) (hof : t.pre.poll target = (t.post, t.output)) : Quiet t := by
  obtain ⟨hitem, huuid, hnext', hrecv'⟩ := polls_logs hin
  obtain ⟨phase, hpoll, hreading, hstays, hreturns⟩ := poll_idle target hnext hrecv
  obtain ⟨hpost, hout⟩ := Prod.mk.inj (hof.symm.trans hpoll)
  exact {
    next := hnext'.trans hnext
    tryRecv := hrecv'.trans hrecv
    output := hout
    reading := by simpa [hpost] using hreading
    stays := by simpa [hpost] using hstays
    returns := by simpa [hpost] using hreturns
    stream := by simp [hpost, hitem]
    channel := by simp [hpost, huuid]
    ended := by simp [hpost, hitem]
    dropped := by simp [hpost, huuid] }

/-- **What a step can do.** -/
theorem step_cases (hof : t.Of (listenerMachine target)) :
    Quiet t ∨ t.input = .polls ∧ t.pre.poll target = (t.post, t.output) ∧
      ((∃ uuid, t.pre.tryRecv? = some uuid) ∨ ∃ result, t.pre.next? = some result) := by
  by_cases hin : t.input = .polls
  · have hpoll : t.pre.poll target = (t.post, t.output) := by
      change t.pre.step target t.input = some (t.post, t.output) at hof
      rw [hin] at hof
      exact Option.some.inj hof
    cases hnext : t.pre.next? with
    | some result => exact .inr ⟨hin, hpoll, .inr ⟨result, rfl⟩⟩
    | none =>
      cases hrecv : t.pre.tryRecv? with
      | some uuid => exact .inr ⟨hin, hpoll, .inl ⟨uuid, rfl⟩⟩
      | none => exact .inl (quiet_of_polls hin hnext hrecv hpoll)
  · exact .inl (quiet_of_ne_polls hin hof)

/-! ## The accounts are kept -/

section Snoc

theorem arrived_snoc : arrived (ts ++ [t]) = arrived ts ++ t.input.item?.toList := by
  simp [arrived]

theorem uuids_snoc : uuids (ts ++ [t]) = uuids ts ++ t.input.uuid?.toList := by
  simp [uuids]

theorem given_snoc : given (ts ++ [t]) = given ts ++ t.next?.toList := by
  simp [given]

theorem received_snoc : received (ts ++ [t]) = received ts ++ t.tryRecv?.toList := by
  simp [received]

theorem notices_snoc :
    NotAuthenticatedListener.notices (ts ++ [t]) = NotAuthenticatedListener.notices ts ++
      t.output.filter (· ≠ .popClientAuthenticated) := by
  simp [NotAuthenticatedListener.notices]

end Snoc

theorem Accounts.quiet (h : Accounts target ts t.pre) (hquiet : Quiet t) :
    Accounts target (ts ++ [t]) t.post where
  stream := by simp [arrived_snoc, given_snoc, hquiet.next, hquiet.stream, h.stream]
  channel := by simp [uuids_snoc, received_snoc, hquiet.tryRecv, hquiet.channel, h.channel]
  goesOn := by
    intro hpost
    simpa [received_snoc, hquiet.tryRecv] using h.goesOn fun hpre => hpost (hquiet.stays hpre)
  returned := by
    intro hpost
    have hway : (∃ before, target ∉ before ∧ received ts = before ++ [target]) ∨
        target ∉ received ts ∧ t.pre.clientAuthenticated = [] ∧ t.pre.senderDropped = true := by
      by_cases hpre : t.pre.phase = .returned
      · exact h.returned hpre
      · exact .inr ⟨h.goesOn hpre, (hquiet.returns hpost).resolve_left hpre⟩
    rcases hway with hown | ⟨hnone, hempty, hdrop⟩
    · left
      simpa [received_snoc, hquiet.tryRecv] using hown
    · right
      obtain ⟨hpost, huuid⟩ := hquiet.dropped hdrop
      simp [received_snoc, hquiet.tryRecv, hnone, hquiet.channel, hempty, huuid, hpost]
  notices := by simp [notices_snoc, given_snoc, hquiet.next, hquiet.output, h.notices]
  paid := by
    simpa [received_snoc, given_snoc, hquiet.next, hquiet.tryRecv, hquiet.reading] using h.paid
  exhausted := by
    intro hmem
    obtain ⟨hend, hempty⟩ := h.exhausted (by simpa [given_snoc, hquiet.next] using hmem)
    obtain ⟨hpost, hitem⟩ := hquiet.ended hend
    simp [hpost, hquiet.stream, hempty, hitem]

theorem Accounts.receives {uuid : Uuid} (h : Accounts target ts t.pre) (hin : t.input = .polls)
    (huuid : t.pre.tryRecv? = some uuid) (hof : t.pre.poll target = (t.post, t.output)) :
    Accounts target (ts ++ [t]) t.post := by
  obtain ⟨hphase, hchannel, hpoll⟩ := poll_of_tryRecv? target huuid
  obtain ⟨hpost, hout⟩ := Prod.mk.inj (hof.symm.trans hpoll)
  obtain ⟨hitem, hsent, hnext, hrecv⟩ := polls_logs hin
  rw [huuid] at hrecv
  replace hnext : t.next? = none := by simp [hnext, next?, hphase]
  have hnone : target ∉ received ts := h.goesOn (by simp [hphase])
  have hpaid : (received ts).length = (given ts).length := by
    simpa [others_of_not_mem hnone, hphase] using h.paid
  constructor
  case stream => simp [arrived_snoc, given_snoc, hitem, hnext, hpost, h.stream]
  case channel =>
    rw [uuids_snoc, received_snoc, hsent, hrecv, h.channel, hchannel, hpost]
    simp
  case goesOn =>
    intro hgoes
    have hother : uuid ≠ target := fun hown => hgoes (by simp [hpost, hown])
    simp [received_snoc, hrecv, hnone, hother.symm]
  case returned =>
    intro hret
    have hown : uuid = target := by
      by_contra hother
      simp [hpost, hother] at hret
    exact .inl ⟨received ts, hnone, by simp [received_snoc, hrecv, hown]⟩
  case notices => simp [notices_snoc, given_snoc, hnext, hout, h.notices]
  case paid =>
    by_cases hown : uuid = target
    · simp [received_snoc, given_snoc, hrecv, hnext, hpost, hown, others_own hnone, hpaid]
    · have hnone' : target ∉ received ts ++ [uuid] := by simp [hnone, Ne.symm hown]
      simp [received_snoc, given_snoc, hrecv, hnext, hpost, hown, others_of_not_mem hnone', hpaid]
  case exhausted => simpa [given_snoc, hnext, hpost] using h.exhausted

theorem Accounts.gives {result : Option WebSocketItem} (h : Accounts target ts t.pre)
    (hin : t.input = .polls) (hresult : t.pre.next? = some result)
    (hof : t.pre.poll target = (t.post, t.output)) : Accounts target (ts ++ [t]) t.post := by
  obtain ⟨hphase, hnone, hstream, hpoll⟩ := poll_of_next? target hresult
  obtain ⟨hpost, hout⟩ := Prod.mk.inj (hof.symm.trans hpoll)
  obtain ⟨hitem, huuid, hnext, hrecv⟩ := polls_logs hin
  rw [hresult] at hnext
  replace hrecv : t.tryRecv? = none := by simp [hrecv, tryRecv?, hphase]
  have hgoes : target ∉ received ts := h.goesOn (by simp [hphase])
  have hpaid : (received ts).length = (given ts).length + 1 := by
    simpa [others_of_not_mem hgoes, hphase] using h.paid
  constructor
  case stream =>
    rw [arrived_snoc, given_snoc, hitem, hnext, hpost, h.stream, List.reduceOption_append]
    simpa [List.reduceOption_singleton] using hstream
  case channel => simp [uuids_snoc, received_snoc, huuid, hrecv, hpost, h.channel]
  case goesOn => simp [received_snoc, hrecv, hgoes]
  case returned => simp [hpost]
  case notices =>
    rw [notices_snoc, given_snoc, h.notices, hnext, hout, List.reduceOption_append]
    cases result with
    | none => simp
    | some item => cases item <;> simp [WebSocketItem.sends]
  case paid => simp [received_snoc, given_snoc, hrecv, hnext, hpost, others_of_not_mem hgoes, hpaid]
  case exhausted =>
    intro hmem
    rw [given_snoc, hnext, List.mem_append] at hmem
    have hend : t.pre.ended = true ∧ t.pre.stream = [] := by
      rcases hmem with hmem | hmem
      · exact h.exhausted hmem
      · exact hnone (by simpa [eq_comm] using hmem)
    simp [hpost, hend]

/-- **The accounts are kept** by each step. -/
theorem Accounts.step (h : Accounts target ts t.pre) (hof : t.Of (listenerMachine target)) :
    Accounts target (ts ++ [t]) t.post := by
  rcases step_cases hof with hquiet | ⟨hin, hpoll, ⟨uuid, huuid⟩ | ⟨result, hresult⟩⟩
  · exact h.quiet hquiet
  · exact h.receives hin huuid hpoll
  · exact h.gives hin hresult hpoll

/-- A stream that has ended, and a channel without a sender, get nothing more. -/
theorem closed_of (hof : t.Of (listenerMachine target)) :
    (t.pre.ended = true → t.post.ended = true ∧ t.input.item? = none) ∧
      (t.pre.senderDropped = true → t.post.senderDropped = true ∧ t.input.uuid? = none) := by
  rcases step_cases hof with hquiet | ⟨hin, hpoll, ⟨uuid, huuid⟩ | ⟨result, hresult⟩⟩
  · exact ⟨hquiet.ended, hquiet.dropped⟩
  · obtain ⟨-, -, hpoll'⟩ := poll_of_tryRecv? target huuid
    obtain ⟨hpost, -⟩ := Prod.mk.inj (hpoll.symm.trans hpoll')
    obtain ⟨hitem, hsent, -, -⟩ := polls_logs hin
    simp [hpost, hitem, hsent]
  · obtain ⟨-, -, -, hpoll'⟩ := poll_of_next? target hresult
    obtain ⟨hpost, -⟩ := Prod.mk.inj (hpoll.symm.trans hpoll')
    obtain ⟨hitem, hsent, -, -⟩ := polls_logs hin
    simp [hpost, hitem, hsent]

namespace Accounts

theorem paid_le (h : Accounts target ts s) :
    (given ts).length + (if s.phase = .reading then 1 else 0) ≤
      (others target (uuids ts)).length := by
  rw [← h.paid, h.channel]
  exact others_length_le _ _ _

/-- What the task has been given of the stream. -/
theorem taken_arrived (h : Accounts target ts s) : (given ts).reduceOption <+: arrived ts :=
  ⟨s.stream, h.stream.symm⟩

/-- What has arrived first has been given to a task that has been given so much. -/
theorem prefix_taken (h : Accounts target ts s) {items : List WebSocketItem}
    (hitems : items <+: arrived ts) (hlength : items.length ≤ (given ts).length) :
    items <+: (given ts).reduceOption := by
  by_cases hnone : none ∈ given ts
  · have hall := h.stream
    rw [(h.exhausted hnone).2, List.append_nil] at hall
    exact hall ▸ hitems
  · have hsome : ∀ result ∈ given ts, result.isSome := by
      intro result hmem
      cases result with
      | none => exact absurd hmem hnone
      | some item => rfl
    rw [← List.reduceOption_length_eq_iff.mpr hsome] at hlength
    exact List.prefix_of_prefix_length_le hitems h.taken_arrived hlength

/-- Where a task that has returned has stopped. -/
theorem stopped (h : Accounts target ts s) (hphase : s.phase = .returned) :
    (others target (uuids ts)).length = (given ts).length ∧
      (target ∈ uuids ts ∨ s.senderDropped = true) := by
  have hpaid : (others target (received ts)).length = (given ts).length := by
    simpa [hphase] using h.paid
  rcases h.returned hphase with ⟨before, hnone, hreceived⟩ | ⟨-, hempty, hdropped⟩
  · have hmem : target ∈ received ts := by simp [hreceived]
    rw [h.channel, others_append_of_mem hmem]
    exact ⟨hpaid, .inl (List.mem_append_left _ hmem)⟩
  · rw [h.channel, hempty, List.append_nil]
    exact ⟨hpaid, .inr hdropped⟩

theorem stream_ne_nil (h : Accounts target ts s)
    (hmore : (given ts).length < (arrived ts).length) : s.stream ≠ [] := by
  intro hempty
  have hall := congrArg List.length h.stream
  rw [hempty, List.append_nil] at hall
  have hle := List.reduceOption_length_le (given ts)
  omega

end Accounts

/-! ## The events of the port -/

/-- What the task sends is what the task of the port may send, and it has returned after that
exactly when it has received its own UUID. -/
theorem poll_follows {port : ServerPort} {settings : WebSocketSettingsServer} {stream : Stream}
    {framing : StreamFraming} (hsettings : port.settings = .webSocket settings)
    (hchannel : port.clientAuthenticated = s.clientAuthenticated) :
    ∀ event ∈ (s.poll target).2, event.By (.read stream framing target false) ∧
      (event.returns port (.read stream framing target false) = true ↔
        (s.poll target).1.phase = .returned) := by
  intro event hevent
  cases hrecv : s.tryRecv? with
  | some uuid =>
    obtain ⟨-, hhead, hpoll⟩ := poll_of_tryRecv? target hrecv
    rw [hpoll] at hevent ⊢
    cases List.mem_singleton.mp hevent
    refine ⟨rfl, ?_⟩
    rw [TaskEvent.returns, hchannel, hhead]
    by_cases hown : uuid = target <;> simp [hown]
  | none =>
    cases hnext : s.next? with
    | some result =>
      obtain ⟨-, -, -, hpoll⟩ := poll_of_next? target hnext
      rw [hpoll] at hevent ⊢
      cases result with
      | none => cases hevent
      | some item =>
        cases item with
        | binary bytes =>
          cases List.mem_singleton.mp hevent
          exact ⟨rfl, by simp [TaskEvent.returns]⟩
        | error =>
          cases List.mem_singleton.mp hevent
          exact ⟨⟨rfl, rfl⟩, by simp [TaskEvent.returns, hsettings]⟩
        | other => cases hevent
    | none =>
      obtain ⟨phase, hpoll, -⟩ := poll_idle target hnext hrecv
      rw [hpoll] at hevent
      cases hevent

end NotAuthenticatedListener

end Inator
