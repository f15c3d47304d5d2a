import Inator.Lib.LeadsTo
import Inator.Verify.SendQueue

/-! # What is queued comes to be sent

The send task of a `WasmClient` ends when a send fails, and leaves what is queued; so does a
connection that is made over a queue that has no task. Neither strands a message for ever, as long
as messages go on to be sent while there is a sink: the next one spawns a task, which begins with
the oldest buffer (`all_handed_over`). -/

namespace Inator
open Machine Temporal Filter

variable {τ : Type} [UserMessages τ] [Ciborium τ]

namespace QueuePort
variable {s s' : QueuePort} {input : QueueInput τ} {k : Nat}

/-- A message that encodes is sent, and there is a sink. -/
def Sends (s : QueuePort) (input : QueueInput τ) : Prop :=
  ∃ (t : MessageType τ) (message : t.Message) (buf : List UInt8),
    input = .sendMessage t message ∧ Ciborium.intoWriter message = .ok buf ∧
      s.port.writeHalf.isSome

/-- How far the port is from taking the next buffer: a send that is under way may fail, and then a
task has to be spawned. -/
def turnsLeft (s : QueuePort) : Nat :=
  match s.sendTasks with
  | [] => 1
  | task :: _ => if task.sending then 2 else 0

/-- How far the port is from having handed over `k` buffers. -/
def left (k : Nat) (s : QueuePort) : Nat := 3 * (k - s.handedOver.length) + s.turnsLeft

theorem turnsLeft_le (s : QueuePort) : s.turnsLeft ≤ 2 := by
  unfold turnsLeft
  split
  · omega
  · split <;> omega

theorem turnsLeft_eq_one : s.turnsLeft = 1 ↔ s.sendTasks = [] := by
  unfold turnsLeft
  split
  · rename_i hnone
    exact iff_of_true rfl hnone
  · rename_i task rest hsome
    rw [hsome]
    split <;> exact iff_of_false (by omega) (List.cons_ne_nil _ _)

/-- What was accepted stays accepted. -/
theorem Moves.accepted (h : s.Moves input s') : s.accepted <+: s'.accepted := by
  cases h with
  | queued | spawned => exact List.prefix_append _ _
  | session | refused | took | emptied | failed => exact List.prefix_rfl

namespace Drains

/-- A port that has not handed over all that it has accepted has some of it in the queue. -/
theorem queue_ne_nil (h : s.Drains) (hleft : s.handedOver.length < k)
    (hk : k ≤ s.accepted.length) : s.port.messageQueue ≠ [] := by
  intro hempty
  have horder := congrArg List.length h.order
  rw [hempty, List.append_nil, List.length_map] at horder
  omega

/-- **No step takes the port further away.** Each turn of a send task brings it nearer, and so
does a message that is sent when there is none. -/
theorem left_step (h : s.Drains) (hmoves : s.Moves input s') (hleft : s.handedOver.length < k)
    (hk : k ≤ s.accepted.length) :
    s'.left k ≤ s.left k ∧
      ((∃ i ok, input = .sendTask i ok) ∨ s.sendTasks = [] ∧ s.Sends input →
        s'.left k < s.left k) := by
  have hkept : s'.left k = s.left k → (∀ i ok, input ≠ .sendTask i ok) →
      (s.sendTasks = [] → ¬s.Sends input) → s'.left k ≤ s.left k ∧
        ((∃ i ok, input = .sendTask i ok) ∨ s.sendTasks = [] ∧ s.Sends input →
          s'.left k < s.left k) := by
    intro hsame htask hsends
    refine ⟨hsame.le, ?_⟩
    rintro (⟨i, ok, heq⟩ | ⟨hnone, hsend⟩)
    · exact absurd heq (htask i ok)
    · exact absurd hsend (hsends hnone)
  have hless : s'.left k < s.left k → s'.left k ≤ s.left k ∧
      ((∃ i ok, input = .sendTask i ok) ∨ s.sendTasks = [] ∧ s.Sends input →
        s'.left k < s.left k) := fun hlt => ⟨hlt.le, fun _ => hlt⟩
  cases hmoves with
  | session =>
    refine hkept rfl (by rintro i ok ⟨⟩) ?_
    rintro - ⟨t, message, buf, heq, -⟩
    cases heq
  | refused fails =>
    refine hkept rfl (by rintro i ok ⟨⟩) ?_
    rintro - ⟨t, message, buf, heq, hencodes, -⟩
    cases heq
    cases fails.symm.trans hencodes
  | queued encodes waits =>
    refine hkept rfl (by rintro i ok ⟨⟩) fun hnone hsends => ?_
    obtain ⟨t, message, buf, -, -, hsink⟩ := hsends
    rcases waits with hunsunk | hflag
    · rw [hunsunk] at hsink
      cases hsink
    · have htasks := h.tasks
      rw [hnone, if_pos hflag] at htasks
      cases htasks
  | spawned encodes idle =>
    have htasks := h.tasks
    rw [idle, if_neg Bool.false_ne_true] at htasks
    have hturns := turnsLeft_eq_one.mpr (List.eq_nil_of_length_eq_zero htasks)
    refine hless ?_
    change 3 * (k - s.handedOver.length) + 0 < 3 * (k - s.handedOver.length) + s.turnsLeft
    omega
  | took one flag goes queue =>
    refine hless ?_
    change 3 * (k - (s.handedOver ++ [_]).length) + 2 < _
    rw [List.length_append, List.length_singleton, left]
    omega
  | emptied one goes queue => exact absurd queue (h.queue_ne_nil hleft hk)
  | failed one sending =>
    obtain ⟨-, hone, -⟩ := h.one one
    have hturns : s.turnsLeft = 2 := by
      unfold turnsLeft
      rw [hone]
      exact if_pos sending
    refine hless ?_
    change 3 * (k - s.handedOver.length) + 1 < 3 * (k - s.handedOver.length) + s.turnsLeft
    omega

end Drains

end QueuePort

section Course
open QueuePort
variable {settings : WasmSettingsClient} {e : Execution (queueMachine τ) (.new settings)}
  {n m k : Nat}

/-- The send task goes on, and as long as messages are queued without one, messages are sent while
there is a sink. -/
structure KeepsSending (e : Execution (queueMachine τ) (.new settings)) : Prop where
  task : WeaklyFair (fun n => (e.state n).sendTasks ≠ [])
    fun n => ∃ ok, e.input n = .sendTask 0 ok
  sends : WeaklyFair
    (fun n => (e.state n).sendTasks = [] ∧ (e.state n).port.messageQueue ≠ [])
    fun n => (e.state n).Sends (e.input n)

namespace KeepsSending

theorem drains (e : Execution (queueMachine τ) (.new settings)) (n : Nat) : (e.state n).Drains :=
  drains_run (e.run n)

theorem moves (e : Execution (queueMachine τ) (.new settings)) (n : Nat) :
    (e.state n).Moves (e.input n) (e.state (n + 1)) :=
  (step_moves (drains e n) (e.step n)).2

theorem accepted_mono (h : n ≤ m) : (e.state n).accepted <+: (e.state m).accepted := by
  induction m, h using Nat.le_induction with
  | base => exact List.prefix_rfl
  | succ m _ ih => exact ih.trans (moves e m).accepted

theorem queue_ne_nil (hk : k ≤ (e.state n).accepted.length)
    (hleft : ¬k ≤ (e.state n).handedOver.length) : (e.state n).port.messageQueue ≠ [] :=
  (drains e n).queue_ne_nil (Nat.lt_of_not_le hleft) hk

/-- A step brings the port nearer, or leaves it as far away and with a task or without. -/
theorem left_next (hk : k ≤ (e.state n).accepted.length)
    (hleft : ¬k ≤ (e.state n).handedOver.length) :
    (e.state (n + 1)).left k < (e.state n).left k ∨ (e.state (n + 1)).left k = (e.state n).left k ∧
      ((e.state (n + 1)).sendTasks = [] ↔ (e.state n).sendTasks = []) := by
  have hstep := (drains e n).left_step (moves e n) (Nat.lt_of_not_le hleft) hk
  refine hstep.1.lt_or_eq.imp_right fun heq => ⟨heq, ?_⟩
  have hbefore := (e.state n).turnsLeft_le
  have hafter := (e.state (n + 1)).turnsLeft_le
  rw [← turnsLeft_eq_one, ← turnsLeft_eq_one]
  unfold left at heq
  omega

/-- What helps, a turn of the task or a message that is sent when there is none, brings it
nearer. -/
theorem left_helped (hk : k ≤ (e.state n).accepted.length)
    (hleft : ¬k ≤ (e.state n).handedOver.length)
    (hhelps : (∃ i ok, e.input n = .sendTask i ok) ∨
      (e.state n).sendTasks = [] ∧ (e.state n).Sends (e.input n)) :
    (e.state (n + 1)).left k < (e.state n).left k :=
  ((drains e n).left_step (moves e n) (Nat.lt_of_not_le hleft) hk).2 hhelps

/-- **As many buffers as were accepted come to be handed over.** -/
theorem hands_over (h : KeepsSending e) (k : Nat) :
    LeadsTo (fun n => k ≤ (e.state n).accepted.length)
      fun n => k ≤ (e.state n).handedOver.length := by
  have haccepted : ∀ n, k ≤ (e.state n).accepted.length → k ≤ (e.state (n + 1)).accepted.length :=
    fun n hk => hk.trans (accepted_mono (Nat.le_succ n)).length_le
  -- The rank is `left`: who has to lower it depends on whether there is a send task.
  refine .ranked (fun n => (e.state n).left k) fun r => ?_
  have hbusy : LeadsTo
      (fun n => (k ≤ (e.state n).accepted.length ∧ (e.state n).left k = r) ∧
        (e.state n).sendTasks ≠ [])
      fun n => k ≤ (e.state n).handedOver.length ∨
        k ≤ (e.state n).accepted.length ∧ (e.state n).left k < r := by
    refine .ensures h.task (fun n hn _ => hn.2) ?_ ?_
    · rintro n ⟨⟨hk, rfl⟩, htask⟩ hgoal
      rcases left_next hk fun hle => hgoal (.inl hle) with hlt | ⟨heq, hsame⟩
      · exact .inl (.inr ⟨haccepted n hk, hlt⟩)
      · exact .inr ⟨⟨haccepted n hk, heq⟩, fun hnone => htask (hsame.mp hnone)⟩
    · rintro n ⟨⟨hk, rfl⟩, -⟩ hgoal ⟨ok, hinput⟩
      exact .inr ⟨haccepted n hk, left_helped hk (fun hle => hgoal (.inl hle))
        (.inl ⟨0, ok, hinput⟩)⟩
  have hidle : LeadsTo
      (fun n => (k ≤ (e.state n).accepted.length ∧ (e.state n).left k = r) ∧
        (e.state n).sendTasks = [])
      fun n => k ≤ (e.state n).handedOver.length ∨
        k ≤ (e.state n).accepted.length ∧ (e.state n).left k < r := by
    refine .ensures h.sends ?_ ?_ ?_
    · rintro n ⟨⟨hk, -⟩, hnone⟩ hgoal
      exact ⟨hnone, queue_ne_nil hk fun hle => hgoal (.inl hle)⟩
    · rintro n ⟨⟨hk, rfl⟩, hnone⟩ hgoal
      rcases left_next hk fun hle => hgoal (.inl hle) with hlt | ⟨heq, hsame⟩
      · exact .inl (.inr ⟨haccepted n hk, hlt⟩)
      · exact .inr ⟨⟨haccepted n hk, heq⟩, hsame.mpr hnone⟩
    · rintro n ⟨⟨hk, rfl⟩, hnone⟩ hgoal hsends
      exact .inr ⟨haccepted n hk, left_helped hk (fun hle => hgoal (.inl hle))
        (.inr ⟨hnone, hsends⟩)⟩
  refine .trans (.of_imp fun n hn => ?_) (hidle.or hbusy)
  exact (em ((e.state n).sendTasks = [])).imp (fun hnone => ⟨hn, hnone⟩) fun htask => ⟨hn, htask⟩

end KeepsSending

/-- **No message waits for ever.** Whatever sends fail and whatever connections are lost and made,
all messages that were accepted by now come to be handed to a sink, in the order in which they
were accepted. -/
theorem all_handed_over (settings : WasmSettingsClient)
    (e : Execution (queueMachine τ) (.new settings)) (h : KeepsSending e) (n : Nat) :
    ∃ m, n ≤ m ∧ (e.state n).accepted <+: (e.state m).handedOver.map (·.buf) := by
  obtain ⟨m, hm, hlength⟩ := h.hands_over (e.state n).accepted.length n le_rfl
  have hhanded : (e.state m).handedOver.map (·.buf) <+: (e.state m).accepted := by
    rw [← (KeepsSending.drains e m).order]
    exact List.prefix_append _ _
  refine ⟨m, hm, List.prefix_of_prefix_length_le (KeepsSending.accepted_mono hm) hhanded ?_⟩
  rw [List.length_map]
  exact hlength

end Course

namespace Sample

/-- A message is sent before there is a connection; the next one spawns a task for both. The first
send fails, and a third message has the second one sent. -/
def lateTaskInputs : List (QueueInput Sample) :=
  earlyInputs ++ [.sendMessage (.user .ticket) (6 : UInt8), .sendTask 0 true, .sendTask 0 false,
    .sendMessage (.user .ticket) (7 : UInt8), .sendTask 0 true, .sendTask 0 true, .sendTask 0 true]

theorem exec_lateTask : (queueMachine Sample).exec (.new .default) lateTaskInputs =
    some ((queueRun lateTaskInputs).1, (queueRun lateTaskInputs).2) := rfl

theorem rest_lateTask (k : ℕ) : ∃ o, (queueMachine Sample).step (queueRun lateTaskInputs).2
    ((fun _ => .session .checkConnectedToServer) k) = some ((queueRun lateTaskInputs).2, o) :=
  ⟨.ok (), rfl⟩

def lateTask : Execution (queueMachine Sample) (.new .default) :=
  .resting exec_lateTask rest_lateTask

theorem lateTask_keepsSending : KeepsSending lateTask := by
  have hend : ∀ᶠ n in atTop, lateTask.state n = (queueRun lateTaskInputs).2 :=
    eventually_atTop.mpr ⟨_, fun n hn => Execution.resting_state exec_lateTask rest_lateTask hn⟩
  refine ⟨(StronglyFair.of_never ?_).weakly, (StronglyFair.of_never ?_).weakly⟩
  · refine hend.mono fun n hn => ?_
    rw [hn]
    exact fun htask => htask rfl
  · refine hend.mono fun n hn => ?_
    rw [hn]
    exact fun hqueue => hqueue.2 rfl

end Sample

/-- The message that was sent before there was a connection is among them. -/
theorem all_handed_over_lateTask : ∃ m, 1 ≤ m ∧
    (Sample.lateTask.state 1).accepted <+: (Sample.lateTask.state m).handedOver.map (·.buf) :=
  all_handed_over .default Sample.lateTask Sample.lateTask_keepsSending 1

end Inator
