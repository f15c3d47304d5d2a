import Inator.Ports.SendQueue
import Inator.Verify.Messaging
import Inator.Verify.Sessions

/-! # One send task at a time

Whatever the methods of a `WasmClient`, the session's tasks and the results of `sink.send` do, the
flag says whether there is a send task, there is never a second one, and the buffers go through
the queue in order. The flag and the queue outlive a connection: a new sink finds a queue that
nobody empties, a failed send leaves one (`noneStranded_iff`), and a task that is still there when
its connection has been replaced takes the buffers of the next (`allLive_iff`). -/

namespace Inator

variable {τ : Type} [UserMessages τ] [Ciborium τ]

/-! ## The session's steps -/

namespace SessionPort.Steps
variable {s s' : SessionPort} {input : SessionInput} {output : Option Nat}

/-- The session leaves the flag and the queue alone. -/
theorem queue (h : s.Steps input s' output) :
    s'.port.sendingMessages = s.port.sendingMessages ∧
      s'.port.messageQueue = s.port.messageQueue := by
  rcases h.port_cases with ⟨_, _, h⟩ | ⟨event, h⟩ | ⟨_, h⟩ | ⟨-, -, _, _, -, h⟩
  · exact ⟨by rw [h], by rw [h]⟩
  · rw [h]
    cases event <;> exact ⟨rfl, rfl⟩
  · exact ⟨by rw [h], by rw [h]⟩
  · exact ⟨by rw [h], by rw [h]⟩

/-- Only `check_connected_to_server` installs a sink. -/
theorem sink (h : s.Steps input s' output) :
    s'.port.writeHalf = s.port.writeHalf ∨ s'.port.writeHalf = none ∨
      input = .checkConnectedToServer ∧ s.port.connected = false ∧
        s.port.connectedToServer ≠ [] := by
  rcases h.port_cases with ⟨_, _, h⟩ | ⟨event, h⟩ | ⟨_, h⟩ | ⟨rfl, hdown, _, _, harrived, -⟩
  · exact .inl (by rw [h])
  · rw [h]
    cases event <;> exact .inl rfl
  · exact .inr (.inl (by rw [h]))
  · exact .inr (.inr ⟨rfl, hdown, by rw [harrived]; exact List.cons_ne_nil _ _⟩)

end SessionPort.Steps

/-- It does so unless the port is connected, or has no stream. -/
theorem SessionPort.sink_installed {s : SessionPort} (hdown : s.port.connected = false)
    (harrived : s.port.connectedToServer ≠ []) :
    s.checkConnectedToServer.port.writeHalf.isSome := by
  rcases s.port.checkConnected_cases with ⟨hup | hnone, -⟩ | ⟨-, stream, rest, -, hinstalls⟩
  · exact absurd (hdown.symm.trans hup) Bool.false_ne_true
  · exact absurd hnone harrived
  · simp only [SessionPort.checkConnectedToServer, hinstalls, Option.isSome_some]

namespace QueuePort
variable {s s' : QueuePort} {input : QueueInput τ} {output : Panicking Unit}

/-! ## One send task -/

/-- There is a send task exactly when the flag is set; it alone holds a borrow, of its sink while
it is suspended; and what was accepted has been handed over or is queued, in this order. -/
structure Drains (s : QueuePort) : Prop where
  tasks : s.sendTasks.length = if s.port.sendingMessages then 1 else 0
  borrowed : s.borrowed = (s.sendTasks.filter (·.sending)).map fun task => .sink task.sink
  under : s.acceptedUnder.length = s.port.messageQueue.length
  order : s.handedOver.map (·.buf) ++ s.port.messageQueue = s.accepted

/-- A buffer in the queue, with the connection under whose sink it was accepted. -/
def queued (s : QueuePort) (buf : List UInt8) : QueuePort :=
  { s.setPort { s.port with messageQueue := s.port.messageQueue ++ [buf] } with
    acceptedUnder := s.acceptedUnder ++ [if s.port.writeHalf.isSome then s.connections else 0]
    accepted := s.accepted ++ [buf] }

/-- The send task of `sink` takes the first buffer of the queue. -/
def taken (s : QueuePort) (sink : Nat) (buf : List UInt8) (rest : List (List UInt8)) :
    QueuePort :=
  { s.setPort { s.port with messageQueue := rest } with
    sendTasks := [⟨sink, true⟩]
    borrowed := [.sink sink]
    acceptedUnder := s.acceptedUnder.tail
    handedOver := s.handedOver ++ [⟨buf, s.acceptedUnder.headD 0, sink⟩] }

/-- The send task has returned. -/
def finished (s : QueuePort) : QueuePort :=
  { s.setPort { s.port with sendingMessages := false } with sendTasks := [], borrowed := [] }

/-- The steps of a port with one send task at most, one by one. -/
inductive Moves (s : QueuePort) : QueueInput τ → QueuePort → Prop
  | session {input : SessionInput} {session : SessionPort} {answer : Option Nat}
    {connections : Nat} (grows : s.connections ≤ connections)
    (steps : s.session.Steps input session answer) :
    Moves s (.session input) { s with session := session, connections := connections }
  | refused {t : MessageType τ} {message : t.Message} {text : String}
    (fails : Ciborium.intoWriter message = .error text) : Moves s (.sendMessage t message) s
  | queued {t : MessageType τ} {message : t.Message} {buf : List UInt8}
    (encodes : Ciborium.intoWriter message = .ok buf)
    (waits : s.port.writeHalf = none ∨ s.port.sendingMessages = true) :
    Moves s (.sendMessage t message) (s.queued buf)
  | spawned {t : MessageType τ} {message : t.Message} {buf : List UInt8}
    (encodes : Ciborium.intoWriter message = .ok buf)
    (idle : s.port.sendingMessages = false) :
    Moves s (.sendMessage t message)
      { (s.queued buf).setPort { (s.queued buf).port with sendingMessages := true } with
        sendTasks := [⟨s.connections, false⟩] }
  | took {i : Nat} {ok : Bool} {task : SendTask} {buf : List UInt8} {rest : List (List UInt8)}
    (one : s.sendTasks[i]? = some task) (flag : s.port.sendingMessages = true)
    (goes : task.sending = true → ok = true)
    (queue : s.port.messageQueue = buf :: rest) :
    Moves s (.sendTask i ok) (s.taken task.sink buf rest)
  | emptied {i : Nat} {ok : Bool} {task : SendTask} (one : s.sendTasks[i]? = some task)
    (goes : task.sending = true → ok = true) (queue : s.port.messageQueue = []) :
    Moves s (.sendTask i ok) s.finished
  | failed {i : Nat} {task : SendTask} (one : s.sendTasks[i]? = some task)
    (sending : task.sending = true) : Moves s (.sendTask i false) s.finished

namespace Drains

/-- The one send task. -/
theorem one (h : s.Drains) {i : Nat} {task : SendTask} (hi : s.sendTasks[i]? = some task) :
    i = 0 ∧ s.sendTasks = [task] ∧ s.port.sendingMessages = true := by
  have htasks := h.tasks
  obtain ⟨hlt, hget⟩ := List.getElem?_eq_some_iff.mp hi
  split at htasks
  · rename_i hflag
    obtain ⟨only, honly⟩ := List.length_eq_one_iff.mp htasks
    rw [honly] at hi hlt
    have hzero : i = 0 := Nat.lt_one_iff.mp hlt
    subst hzero
    cases hi
    exact ⟨rfl, honly, hflag⟩
  · omega

/-- Between two steps the flag is not borrowed. -/
theorem flag_free (h : s.Drains) : .sendingMessages ∉ s.borrowed := by
  rw [h.borrowed]
  intro hmem
  obtain ⟨task, -, heq⟩ := List.mem_map.mp hmem
  cases heq

theorem sendMessage_moves (h : s.Drains) {t : MessageType τ} (message : t.Message) :
    ∃ s', s.sendMessage message = .ok s' ∧ s.Moves (.sendMessage t message) s' := by
  have hfree := h.flag_free
  cases hencodes : Ciborium.intoWriter message with
  | error text => exact ⟨s, by rw [sendMessage, hencodes], .refused hencodes⟩
  | ok buf =>
    cases hsink : s.port.writeHalf with
    | none =>
      refine ⟨s.queued buf, ?_, .queued hencodes (.inl hsink)⟩
      simp only [port] at hsink
      simp only [sendMessage, hencodes, port, setPort, hsink, queued]
    | some stream =>
      cases hflag : s.port.sendingMessages with
      | true =>
        refine ⟨s.queued buf, ?_, .queued hencodes (.inr hflag)⟩
        simp only [port] at hsink hflag
        simp only [sendMessage, hencodes, port, setPort, hsink, hflag, queued, borrow, hfree,
          if_false, if_true]
        rfl
      | false =>
        have htasks := h.tasks
        rw [hflag, if_neg Bool.false_ne_true] at htasks
        refine ⟨_, ?_, .spawned hencodes hflag⟩
        simp only [port] at hsink hflag
        simp only [sendMessage, hencodes, port, setPort, hsink, hflag, queued, borrow, hfree,
          if_false, Bool.false_eq_true, List.eq_nil_of_length_eq_zero htasks, List.nil_append]
        rfl

end Drains

section Turn
variable {sink : Nat} {task : SendTask} {buf : List UInt8} {rest : List (List UInt8)}

theorem borrow_free (hfree : s.borrowed = []) (cell : SharedCell) : s.borrow cell = .ok () := by
  rw [borrow, hfree]
  exact if_neg List.not_mem_nil

theorem finish_free (hfree : s.borrowed = []) (hone : s.sendTasks = [task]) :
    s.finish 0 = .ok s.finished := by
  rw [finish, borrow_free hfree]
  obtain ⟨session, connections, sendTasks, borrowed, acceptedUnder, accepted, handedOver⟩ := s
  obtain rfl : borrowed = [] := hfree
  obtain rfl : sendTasks = [task] := hone
  rfl

theorem turn_free_nil (hfree : s.borrowed = []) (hone : s.sendTasks = [task])
    (hqueue : s.port.messageQueue = []) : s.turn 0 sink = .ok s.finished := by
  simp only [turn, borrow_free hfree, hqueue, finish_free hfree hone]
  rfl

theorem turn_free_cons (hfree : s.borrowed = []) (hone : s.sendTasks = [task])
    (hqueue : s.port.messageQueue = buf :: rest) :
    s.turn 0 sink = .ok (s.taken sink buf rest) := by
  simp only [turn, borrow_free hfree, hqueue, taken, hone, hfree]
  rfl

end Turn

namespace Drains

/-- What a send task does once it holds no borrow. -/
theorem turn_moves (h : s.Drains) {i : Nat} {task : SendTask} {ok : Bool}
    (hi : s.sendTasks[i]? = some task) (hgoes : task.sending = true → ok = true) :
    ∃ s', ({ s with borrowed := [] } : QueuePort).turn i task.sink = .ok s' ∧
      s.Moves (.sendTask i ok : QueueInput τ) s' := by
  obtain ⟨rfl, hone, hflag⟩ := h.one hi
  cases hqueue : s.port.messageQueue with
  | nil =>
    refine ⟨s.finished, ?_, .emptied hi hgoes hqueue⟩
    exact turn_free_nil (s := { s with borrowed := [] }) rfl hone hqueue
  | cons buf rest =>
    refine ⟨s.taken task.sink buf rest, ?_, .took hi hflag hgoes hqueue⟩
    exact turn_free_cons (s := { s with borrowed := [] }) rfl hone hqueue

theorem resume_moves (h : s.Drains) {i : Nat} {task : SendTask} (ok : Bool)
    (hi : s.sendTasks[i]? = some task) :
    ∃ s', s.resume i task ok = .ok s' ∧ s.Moves (.sendTask i ok : QueueInput τ) s' := by
  obtain ⟨hzero, hone, -⟩ := h.one hi
  have hborrowed := h.borrowed
  rw [hone] at hborrowed
  rw [resume]
  cases hsending : task.sending with
  | false =>
    have hfree : s.borrowed = [] := by
      rw [hborrowed, List.filter_cons_of_neg (by rw [hsending]; exact Bool.false_ne_true)]
      rfl
    have hmoves : ∃ s', _ ∧ s.Moves (.sendTask i ok : QueueInput τ) s' := h.turn_moves hi
      fun hsuspended => absurd (hsending.symm.trans hsuspended) Bool.false_ne_true
    rw [← hfree] at hmoves
    rw [if_neg Bool.false_ne_true]
    exact hmoves
  | true =>
    have hreleased : s.borrowed.erase (.sink task.sink) = [] := by
      simp only [hborrowed, List.filter_cons_of_pos hsending, List.filter_nil, List.map_cons,
        List.map_nil, List.erase_cons_head]
    simp only [if_true, hreleased]
    cases ok with
    | true => exact h.turn_moves hi fun _ => rfl
    | false =>
      subst hzero
      refine ⟨s.finished, ?_, .failed hi hsending⟩
      exact finish_free (s := { s with borrowed := [] }) rfl hone

end Drains

/-- **No step panics**, and each is one of the moves. -/
theorem step_moves (h : s.Drains) (hstep : s.step input = some (s', output)) :
    output = .ok () ∧ s.Moves input s' := by
  cases input with
  | session input =>
    obtain ⟨after, hsession, heq⟩ := Option.map_eq_some_iff.mp hstep
    obtain ⟨⟨session, answer⟩, hsteps, rfl⟩ := Option.map_eq_some_iff.mp hsession
    cases heq
    refine ⟨rfl, .session ?_ (SessionPort.step_steps hsteps)⟩
    split
    · split
      · exact Nat.le_succ _
      · exact Nat.le_refl _
    · exact Nat.le_refl _
  | sendMessage t message =>
    obtain ⟨after, hsend, hmoves⟩ := h.sendMessage_moves message
    rw [step, hsend] at hstep
    cases hstep
    exact ⟨rfl, hmoves⟩
  | sendTask i ok =>
    rw [step] at hstep
    split at hstep
    · cases hstep
    · rename_i task hi
      obtain ⟨after, hresume, hmoves⟩ : ∃ after, s.resume i task ok = .ok after ∧
          s.Moves (.sendTask i ok : QueueInput τ) after := h.resume_moves ok hi
      rw [hresume] at hstep
      cases hstep
      exact ⟨rfl, hmoves⟩

/-! ## Every move keeps the order -/

theorem Drains.new (settings : WasmSettingsClient) : (QueuePort.new settings).Drains where
  tasks := rfl
  borrowed := rfl
  under := rfl
  order := rfl

theorem Drains.queued (h : s.Drains) (buf : List UInt8) : (s.queued buf).Drains where
  tasks := h.tasks
  borrowed := h.borrowed
  under := by
    change (s.acceptedUnder ++ [_]).length = (s.port.messageQueue ++ [buf]).length
    rw [List.length_append, List.length_append, h.under]
    rfl
  order := by
    change _ ++ (s.port.messageQueue ++ [buf]) = s.accepted ++ [buf]
    rw [← List.append_assoc]
    exact congrArg (· ++ [buf]) h.order

theorem Drains.taken (h : s.Drains) {sink : Nat} {buf : List UInt8} {rest : List (List UInt8)}
    (hflag : s.port.sendingMessages = true) (hqueue : s.port.messageQueue = buf :: rest) :
    (s.taken sink buf rest).Drains where
  tasks := (if_pos hflag).symm
  borrowed := rfl
  under := by
    have hunder := h.under
    rw [hqueue, List.length_cons] at hunder
    change s.acceptedUnder.tail.length = rest.length
    rw [List.length_tail, hunder]
    rfl
  order := by
    have horder := h.order
    rw [hqueue] at horder
    change List.map HandedOver.buf (s.handedOver ++ [_]) ++ rest = s.accepted
    rw [List.map_append, List.append_assoc]
    exact horder

theorem Drains.finished (h : s.Drains) : s.finished.Drains where
  tasks := rfl
  borrowed := rfl
  under := h.under
  order := h.order

theorem Drains.step (h : s.Drains) (hmoves : s.Moves input s') : s'.Drains := by
  cases hmoves with
  | session _ steps =>
    obtain ⟨hflag, hqueue⟩ := steps.queue
    refine ⟨?_, h.borrowed, ?_, ?_⟩
    · rw [port, hflag]
      exact h.tasks
    · rw [port, hqueue]
      exact h.under
    · rw [port, hqueue]
      exact h.order
  | refused => exact h
  | @queued _ _ buf => exact h.queued buf
  | @spawned _ _ buf _ idle =>
    have hqueued := h.queued buf
    have htasks := h.tasks
    have hborrowed := h.borrowed
    rw [idle, if_neg Bool.false_ne_true] at htasks
    rw [List.eq_nil_of_length_eq_zero htasks] at hborrowed
    exact ⟨rfl, hborrowed, hqueued.under, hqueued.order⟩
  | took _ flag _ queue => exact h.taken flag queue
  | emptied => exact h.finished
  | failed => exact h.finished

theorem drains_run {settings : WasmSettingsClient} {ts : List (QueueTransition τ)}
    (h : (queueMachine τ).Run (.new settings) ts s) : s.Drains := by
  refine h.invariant Drains (.new settings) fun t ht hof => ?_
  have hstep : t.pre.step t.input = some (t.post, t.output) := hof
  exact ht.step (step_moves ht hstep).2

/-! ## A queue without a task -/

/-- With a sink and no send task, nothing is queued. -/
def NoneStranded (s : QueuePort) : Prop :=
  s.port.writeHalf.isSome → s.port.sendingMessages = false → s.port.messageQueue = []

/-- The condition on a step: a sink is installed, or a send fails while there is one, only if the
queue is empty or, when it is installed, there is a send task. -/
structure KeepsUnstranded (t : QueueTransition τ) : Prop where
  installed : t.input = .session .checkConnectedToServer → t.pre.port.connected = false →
    t.pre.port.connectedToServer ≠ [] →
      t.pre.port.messageQueue = [] ∨ t.pre.port.sendingMessages = true
  failed : ∀ i task, t.input = .sendTask i false → t.pre.sendTasks[i]? = some task →
    task.sending = true → t.pre.port.messageQueue = [] ∨ t.pre.port.writeHalf = none

theorem NoneStranded.step (hstranded : s.NoneStranded) (hmoves : s.Moves input s')
    (hkeeps : KeepsUnstranded ⟨s, input, output, s'⟩) : s'.NoneStranded := by
  intro hsink hflag
  cases hmoves with
  | @session input session _ connections _ steps =>
    change session.port.writeHalf.isSome at hsink
    change session.port.sendingMessages = false at hflag
    change session.port.messageQueue = []
    obtain ⟨hsame, hqueue⟩ := steps.queue
    rw [hsame] at hflag
    rw [hqueue]
    rcases steps.sink with hkept | hnone | ⟨rfl, hdown, harrived⟩
    · rw [hkept] at hsink
      exact hstranded hsink hflag
    · rw [hnone] at hsink
      cases hsink
    · exact (hkeeps.installed rfl hdown harrived).resolve_right
        fun hsends => Bool.false_ne_true (hflag.symm.trans hsends)
  | refused => exact hstranded hsink hflag
  | queued encodes waits =>
    rcases waits with hnone | hsends
    · change s.port.writeHalf.isSome at hsink
      rw [hnone] at hsink
      cases hsink
    · exact absurd (hflag.symm.trans hsends) Bool.false_ne_true
  | spawned => cases hflag
  | took one flag => exact absurd (hflag.symm.trans flag) Bool.false_ne_true
  | emptied one goes queue => exact queue
  | failed one sending =>
    refine (hkeeps.failed _ _ rfl one sending).resolve_right fun hnone => ?_
    change s.port.writeHalf.isSome at hsink
    rw [hnone] at hsink
    cases hsink

/-- A step that breaks the condition strands what is queued. -/
theorem NoneStranded.keeps (hmoves : s.Moves input s') (hpost : s'.NoneStranded) :
    KeepsUnstranded ⟨s, input, output, s'⟩ := by
  constructor
  · intro hinput hdown harrived
    change input = _ at hinput
    subst hinput
    cases hmoves with
    | session _ steps =>
      cases steps
      cases hflag : s.port.sendingMessages with
      | true => exact .inr rfl
      | false =>
        have hqueue := (SessionPort.Steps.checkConnectedToServer (s := s.session)).queue
        refine .inl (hqueue.2 ▸ hpost (SessionPort.sink_installed hdown harrived) ?_)
        exact hqueue.1.trans hflag
  · intro i task hinput hi hsending
    change input = _ at hinput
    subst hinput
    cases hmoves with
    | took one flag goes =>
      cases one.symm.trans hi
      cases goes hsending
    | emptied one goes queue => exact .inl queue
    | failed one sending =>
      cases hsink : s.port.writeHalf with
      | none => exact .inr rfl
      | some sink =>
        refine .inl (hpost ?_ rfl)
        change s.port.writeHalf.isSome
        rw [hsink]
        rfl

/-! ## A task that outlives its connection -/

/-- No buffer has been handed to the sink of a connection before the one under whose sink it was
accepted. -/
def AllLive (s : QueuePort) : Prop := ∀ call ∈ s.handedOver, call.accepted ≤ call.sink

/-- The condition on a step: `send_message` queues nothing while there is a sink and the send task
has captured that of an earlier connection. -/
def KeepsLive (t : QueueTransition τ) : Prop :=
  ∀ (m : MessageType τ) (message : m.Message) (buf : List UInt8),
    t.input = .sendMessage m message → Ciborium.intoWriter message = .ok buf →
      t.pre.port.writeHalf.isSome → ∀ task ∈ t.pre.sendTasks, t.pre.connections ≤ task.sink

/-- No buffer in the queue was accepted under a later sink than the last one, or than the one that
a send task has captured. -/
structure Behind (s : QueuePort) : Prop where
  connections : ∀ connection ∈ s.acceptedUnder, connection ≤ s.connections
  tasks : ∀ task ∈ s.sendTasks, ∀ connection ∈ s.acceptedUnder, connection ≤ task.sink

theorem Behind.new (settings : WasmSettingsClient) : (QueuePort.new settings).Behind where
  connections _ h := absurd h List.not_mem_nil
  tasks _ h := absurd h List.not_mem_nil

/-- What is known of the queue is known of what is left of it. -/
theorem Behind.tail (h : s.Behind) {task : SendTask} (hone : s.sendTasks = [task]) :
    ∀ connection ∈ s.acceptedUnder.tail, connection ≤ s.connections ∧ connection ≤ task.sink := by
  intro connection hconnection
  have hmem := List.mem_of_mem_tail hconnection
  exact ⟨h.connections connection hmem,
    h.tasks task (hone ▸ List.mem_singleton_self task) connection hmem⟩

theorem Behind.step (h : s.Behind) (hdrains : s.Drains) (hmoves : s.Moves input s')
    (hkeeps : KeepsLive ⟨s, input, output, s'⟩) : s'.Behind := by
  have hunder : ∀ {bound : Nat}, (∀ connection ∈ s.acceptedUnder, connection ≤ bound) →
      (s.port.writeHalf.isSome → s.connections ≤ bound) →
        ∀ connection ∈ s.acceptedUnder ++ [if s.port.writeHalf.isSome then s.connections else 0],
          connection ≤ bound := by
    intro bound hold hnew connection hconnection
    rcases List.mem_append.mp hconnection with hconnection | hconnection
    · exact hold connection hconnection
    · rw [List.mem_singleton.mp hconnection]
      split
      · rename_i hsink
        exact hnew hsink
      · exact Nat.zero_le _
  cases hmoves with
  | session grows =>
    exact ⟨fun connection hconnection => (h.connections connection hconnection).trans grows,
      h.tasks⟩
  | refused => exact h
  | @queued m message buf encodes waits =>
    refine ⟨hunder h.connections fun _ => Nat.le_refl _, fun task htask => ?_⟩
    exact hunder (h.tasks task htask) fun hsink => hkeeps m message buf rfl encodes hsink task htask
  | spawned =>
    have hconnections := hunder h.connections fun _ => Nat.le_refl _
    refine ⟨hconnections, fun task htask => ?_⟩
    cases List.mem_singleton.mp htask
    exact hconnections
  | took one =>
    have hleft := h.tail (hdrains.one one).2.1
    refine ⟨fun connection hconnection => (hleft connection hconnection).1, fun task' htask' => ?_⟩
    cases List.mem_singleton.mp htask'
    exact fun connection hconnection => (hleft connection hconnection).2
  | emptied | failed => exact ⟨h.connections, fun task htask => absurd htask List.not_mem_nil⟩

/-- A task that takes a buffer has captured a sink that is no earlier than that of the buffer. -/
theorem AllLive.step (hlive : s.AllLive) (hdrains : s.Drains) (hbehind : s.Behind)
    (hmoves : s.Moves input s') : s'.AllLive := by
  cases hmoves with
  | session | refused | queued | spawned | emptied | failed => exact hlive
  | @took i ok task buf rest one flag goes queue =>
    intro call hcall
    rcases List.mem_append.mp hcall with hcall | hcall
    · exact hlive call hcall
    · cases List.mem_singleton.mp hcall
      have hunder := hdrains.under
      rw [queue] at hunder
      cases hhead : s.acceptedUnder with
      | nil =>
        rw [hhead] at hunder
        cases hunder
      | cons connection under =>
        apply hbehind.tasks task (List.mem_of_getElem? one)
        rw [hhead]
        exact List.mem_cons_self

/-- **A send task whose sends succeed hands over all that is queued**, and all of it to the sink it
has captured. -/
theorem Drains.handsOver (h : s.Drains) {task : SendTask} (hone : s.sendTasks = [task])
    {connection : Nat} (hqueued : connection ∈ s.acceptedUnder) :
    ∃ ts s', (queueMachine τ).Run s ts s' ∧ (∀ t ∈ ts, t.input = .sendTask 0 true) ∧
      ∃ call ∈ s'.handedOver, call.accepted = connection ∧ call.sink = task.sink := by
  generalize hunder : s.acceptedUnder = under at hqueued
  induction under generalizing s task with
  | nil => cases hqueued
  | cons first under ih =>
    have hi : s.sendTasks[0]? = some task := by
      rw [hone]
      rfl
    obtain ⟨s', hresume, hmoves⟩ : ∃ s', s.resume 0 task true = .ok s' ∧
        s.Moves (.sendTask 0 true : QueueInput τ) s' := h.resume_moves true hi
    have hstep : s.step (.sendTask 0 true : QueueInput τ) = some (s', .ok ()) := by
      simp only [QueuePort.step, hi, hresume]
    have hfirst : (queueMachine τ).Run s [⟨s, .sendTask 0 true, .ok (), s'⟩] s' := .single hstep
    cases hmoves with
    | @took _ _ task' buf rest one flag _ queue =>
      cases hi.symm.trans one
      by_cases hconnection : connection = first
      · refine ⟨_, _, hfirst, List.forall_mem_singleton.mpr rfl, ?_⟩
        refine ⟨_, List.mem_append_right _ List.mem_cons_self, ?_, rfl⟩
        rw [hunder, hconnection]
        rfl
      · have hrest := (List.mem_cons.mp hqueued).resolve_left hconnection
        have htail : (s.taken task.sink buf rest).acceptedUnder = under :=
          congrArg List.tail hunder
        obtain ⟨ts, s'', hrun, hinputs, hcall⟩ := ih (h.taken flag queue) rfl htail hrest
        refine ⟨_, s'', hfirst.append hrun, ?_, hcall⟩
        exact List.forall_mem_append.mpr ⟨List.forall_mem_singleton.mpr rfl, hinputs⟩
    | emptied one goes queue =>
      have hlength := h.under
      rw [queue, hunder] at hlength
      cases hlength

end QueuePort

/-! ## Runs -/

variable {settings : WasmSettingsClient} {ts : List (QueueTransition τ)} {s : QueuePort}

/-- **One send task, and one order.** Whatever the order of the steps, none panics on a borrow,
there is one send task or none as the flag says, and the buffers handed to `sink.send`, over all
sinks, followed by those in the queue are the buffers that were accepted. -/
theorem one_send_task (settings : WasmSettingsClient) (ts : List (QueueTransition τ))
    (s : QueuePort) (h : (queueMachine τ).Run (.new settings) ts s) :
    (∀ t ∈ ts, t.output = .ok ()) ∧
      s.sendTasks.length = (if s.port.sendingMessages then 1 else 0) ∧
      s.handedOver.map (·.buf) ++ s.port.messageQueue = s.accepted := by
  have hdrains := QueuePort.drains_run h
  refine ⟨fun t ht => ?_, hdrains.tasks, hdrains.order⟩
  obtain ⟨before, after, rfl⟩ := List.append_of_mem ht
  obtain ⟨hrun, hof⟩ := h.of_split rfl
  have hstep : t.pre.step t.input = some (t.post, t.output) := hof
  exact (QueuePort.step_moves (QueuePort.drains_run hrun) hstep).1

/-- **When no message is stranded**: exactly when no sink is installed over a queue that has no
task, and no send fails and leaves messages behind while there is a sink. -/
theorem noneStranded_iff (settings : WasmSettingsClient) (ts : List (QueueTransition τ))
    (s : QueuePort) (h : (queueMachine τ).Run (.new settings) ts s) :
    (∀ t ∈ ts, t.post.NoneStranded) ↔ ∀ t ∈ ts, QueuePort.KeepsUnstranded t := by
  refine h.forall_iff (fun _ s => s.NoneStranded) (fun _ _ => rfl) ?_ ?_
  · intro ts t hrun hstranded hof hkeeps
    have hstep : t.pre.step t.input = some (t.post, t.output) := hof
    have hmoves := (QueuePort.step_moves (QueuePort.drains_run hrun) hstep).2
    have hpost := hstranded.step hmoves hkeeps
    exact ⟨hpost, hpost⟩
  · intro ts t hrun _ hof hpost
    have hstep : t.pre.step t.input = some (t.post, t.output) := hof
    exact hpost.keeps (QueuePort.step_moves (QueuePort.drains_run hrun) hstep).2

/-- A run in which `send_message` keeps to the condition. -/
theorem allLive_run (h : (queueMachine τ).Run (.new settings) ts s)
    (hkeeps : ∀ t ∈ ts, QueuePort.KeepsLive t) : s.AllLive ∧ s.Behind := by
  refine h.history (fun ts s => (∀ t ∈ ts, QueuePort.KeepsLive t) → s.AllLive ∧ s.Behind) ?_ ?_
    hkeeps
  · exact fun _ => ⟨fun call hcall => absurd hcall List.not_mem_nil, .new settings⟩
  · intro ts t hrun ih hof hkeeps
    obtain ⟨hbefore, hlast⟩ := List.forall_mem_append.mp hkeeps
    obtain ⟨hlive, hbehind⟩ := ih hbefore
    have hdrains := QueuePort.drains_run hrun
    have hstep : t.pre.step t.input = some (t.post, t.output) := hof
    have hmoves := (QueuePort.step_moves hdrains hstep).2
    exact ⟨hlive.step hdrains hbehind hmoves,
      hbehind.step hdrains hmoves (hlast t (List.mem_singleton_self t))⟩

/-- After a step against the condition, the sends of its task need only succeed. -/
theorem keepsLive_of_allLive {t : QueueTransition τ}
    (h : (queueMachine τ).Run (.new settings) ts t.pre) (hof : t.Of (queueMachine τ))
    (hlive : ∀ us s, (queueMachine τ).Run t.post us s →
      (∀ u ∈ us, u.input = .sendTask 0 true) → s.AllLive) : QueuePort.KeepsLive t := by
  intro m message buf hinput hencodes hsink task htask
  have hdrains := QueuePort.drains_run h
  have hstep : t.pre.step t.input = some (t.post, t.output) := hof
  have hmoves := (QueuePort.step_moves hdrains hstep).2
  have hafter := hdrains.step hmoves
  obtain ⟨i, hi⟩ := List.getElem?_of_mem htask
  obtain ⟨-, hone, hflag⟩ := hdrains.one hi
  rw [hinput] at hmoves
  generalize t.post = after at hmoves hafter hlive
  cases hmoves with
  | refused fails => cases hencodes.symm.trans fails
  | spawned encodes idle => cases idle.symm.trans hflag
  | @queued _ _ buf' =>
    have hqueued : t.pre.connections ∈ (t.pre.queued buf').acceptedUnder := by
      apply List.mem_append_right
      rw [if_pos hsink]
      exact List.mem_singleton_self _
    obtain ⟨us, s, hrun, hinputs, call, hcall, haccepted, hcaptured⟩ :=
      hafter.handsOver (τ := τ) hone hqueued
    rw [← haccepted, ← hcaptured]
    exact hlive us s hrun hinputs call hcall

/-- **When messages go to the live connection**, in a run and in whatever its send tasks do next if
their sends succeed: exactly when `send_message` never queues a message under the sink of one
connection while a send task has captured that of an earlier one. -/
theorem allLive_iff (settings : WasmSettingsClient) (ts : List (QueueTransition τ))
    (s : QueuePort) (h : (queueMachine τ).Run (.new settings) ts s) :
    (∀ t ∈ ts, t.post.AllLive ∧ ∀ us s', (queueMachine τ).Run t.post us s' →
      (∀ u ∈ us, u.input = .sendTask 0 true) → s'.AllLive) ↔
      ∀ t ∈ ts, QueuePort.KeepsLive t := by
  constructor
  · intro hlive t ht
    obtain ⟨before, after, hts⟩ := List.append_of_mem ht
    obtain ⟨hrun, hof⟩ := h.of_split hts
    exact keepsLive_of_allLive hrun hof (hlive t ht).2
  · intro hkeeps t ht
    obtain ⟨before, after, rfl⟩ := List.append_of_mem ht
    obtain ⟨hrun, hof⟩ := h.of_split rfl
    have hbefore : ∀ t' ∈ before ++ [t], QueuePort.KeepsLive t' := by
      rw [List.append_cons] at hkeeps
      exact (List.forall_mem_append.mp hkeeps).1
    refine ⟨(allLive_run (hrun.snoc hof) hbefore).1, fun us s' hrest hinputs => ?_⟩
    have hall := List.forall_mem_append.mpr ⟨hbefore, fun u hu m message buf hinput => by
      cases (hinputs u hu).symm.trans hinput⟩
    exact (allLive_run ((hrun.snoc hof).append hrest) hall).1

namespace Sample

/-- A connection is made on this stream. -/
def openInputs (stream : Stream) (attempt : Nat) : List (QueueInput Sample) :=
  [.session (.connect none),
    .session (.task (.connect true false) attempt (.connectedToServer stream)),
    .session .checkConnectedToServer]

/-- A message is sent before there is a connection. -/
def earlyInputs : List (QueueInput Sample) :=
  .sendMessage (.user .ticket) (5 : UInt8) :: openInputs ⟨0, .stream⟩ 1

/-- A send is suspended while its connection ends, the next one is made and a message is sent;
then it succeeds. -/
def lateSendInputs : List (QueueInput Sample) :=
  openInputs ⟨0, .stream⟩ 1 ++
    [.session (.startListeningToServer none), .sendMessage (.user .ticket) (5 : UInt8),
      .sendTask 0 true, .session (.task (.read ⟨0, .stream⟩ none) 1 .connectionDown),
      .session .checkPortDropped] ++
    openInputs ⟨1, .stream⟩ 2 ++
    [.sendMessage (.user .ticket) (6 : UInt8), .sendTask 0 true]

def queueRun (inputs : List (QueueInput Sample)) : List (QueueTransition Sample) × QueuePort :=
  ((queueMachine Sample).exec (.new .default) inputs).getD ([], .new .default)

theorem run_earlyInputs :
    (queueMachine Sample).Run (.new .default) (queueRun earlyInputs).1
      (queueRun earlyInputs).2 := by
  have hexec : (queueMachine Sample).exec (.new .default) earlyInputs =
      some (queueRun earlyInputs) := rfl
  exact .of_exec hexec

theorem run_lateSendInputs :
    (queueMachine Sample).Run (.new .default) (queueRun lateSendInputs).1
      (queueRun lateSendInputs).2 := by
  have hexec : (queueMachine Sample).exec (.new .default) lateSendInputs =
      some (queueRun lateSendInputs) := rfl
  exact .of_exec hexec

end Sample

open Sample

theorem one_send_task_lateSend :
    (∀ t ∈ (queueRun lateSendInputs).1, t.output = .ok ()) ∧
      (queueRun lateSendInputs).2.sendTasks.length =
        (if (queueRun lateSendInputs).2.port.sendingMessages then 1 else 0) ∧
      (queueRun lateSendInputs).2.handedOver.map (·.buf) ++
        (queueRun lateSendInputs).2.port.messageQueue = (queueRun lateSendInputs).2.accepted :=
  one_send_task .default _ _ run_lateSendInputs

theorem noneStranded_early :
    (∀ t ∈ (queueRun earlyInputs).1, t.post.NoneStranded) ↔
      ∀ t ∈ (queueRun earlyInputs).1, QueuePort.KeepsUnstranded t :=
  noneStranded_iff .default _ _ run_earlyInputs

/-- The message that was sent early stays in the queue, with a sink and no send task. -/
theorem early_stranded :
    ¬∀ ts s, (queueMachine Sample).Run (.new .default) ts s → s.NoneStranded := by
  intro h
  have hqueue := h _ _ run_earlyInputs rfl rfl
  cases hqueue

theorem allLive_lateSend :
    (∀ t ∈ (queueRun lateSendInputs).1, t.post.AllLive ∧
      ∀ us s', (queueMachine Sample).Run t.post us s' →
        (∀ u ∈ us, u.input = .sendTask 0 true) → s'.AllLive) ↔
      ∀ t ∈ (queueRun lateSendInputs).1, QueuePort.KeepsLive t :=
  allLive_iff .default _ _ run_lateSendInputs

/-- The second message, accepted under the second connection's sink, goes to the first's. -/
theorem lateSend_stale :
    ¬∀ ts s, (queueMachine Sample).Run (.new .default) ts s → s.AllLive := by
  intro h
  have hcall := h _ _ run_lateSendInputs ⟨[6], 2, 1⟩ (by decide)
  exact absurd hcall (by decide)

end Inator
