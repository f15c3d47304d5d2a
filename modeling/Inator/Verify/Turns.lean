import Inator.Lib.LeadsTo
import Inator.Verify.Wire

/-! # Each call gets its turn

The tasks of a stream wait for its mutex. As long as no write fails, the task that has it comes to
the end of its frame, and so, if the runtime and the mutex are fair to it, each task that waits
takes the mutex, writes its frame and returns (`TcpWriters.all_return`). -/

namespace Inator
open Machine Temporal Filter

namespace TcpWriters
variable {s s' : TcpWriters} {i : Nat} {writer : Writer}

/-- The steps that a task that has the lock still takes. -/
def left (writer : Writer) : Nat :=
  match writer.phase with
  | .locking | .returned => 0
  | .header rest => rest.length + writer.buf.length + 2
  | .payload rest => rest.length + 1

theorem lookup_moved {phase : WriterPhase} (hwriter : s.writers[i]? = some writer)
    (hwriters : s'.writers = s.move i writer phase) :
    s'.writers[i]? = some { writer with phase := phase } := by
  rw [hwriters, move, List.getElem?_set_self (List.getElem?_eq_some_iff.mp hwriter).1]

/-- **What a step of a task does.** It takes the lock, goes on with it, or gives it up at the end
of its frame. -/
theorem writerStep_spec (h : s.writerStep i = some s') :
    ∃ writer phase, s.writers[i]? = some writer ∧ s'.writers = s.move i writer phase ∧
      phase ≠ .locking ∧
      (writer.phase = .locking ∧ s.holder = none ∧ s'.holder = some i ∨
        writer.phase ≠ .locking ∧ left { writer with phase := phase } < left writer ∧
          (s'.holder = s.holder ∨ s'.holder = none)) := by
  simp only [writerStep] at h
  split at h
  · cases h
  · rename_i writer hwriter
    split at h
    · rename_i hphase
      split at h
      · cases h
      · rename_i hfree
        cases h
        exact ⟨writer, _, hwriter, rfl, by rintro ⟨⟩, .inl ⟨hphase, hfree, rfl⟩⟩
    · rename_i hphase
      cases h
      refine ⟨writer, _, hwriter, rfl, by rintro ⟨⟩, .inr ⟨?_, ?_, .inl rfl⟩⟩
      · rw [hphase]
        rintro ⟨⟩
      · simp only [left, hphase, List.length_nil]
        omega
    · rename_i hphase
      cases h
      refine ⟨writer, _, hwriter, rfl, by rintro ⟨⟩, .inr ⟨?_, ?_, .inl rfl⟩⟩
      · rw [hphase]
        rintro ⟨⟩
      · simp only [left, hphase, List.length_cons]
        omega
    · rename_i hphase
      cases h
      refine ⟨writer, _, hwriter, rfl, by rintro ⟨⟩, .inr ⟨?_, ?_, .inr rfl⟩⟩
      · rw [hphase]
        rintro ⟨⟩
      · simp only [left, hphase, List.length_nil]
        omega
    · rename_i hphase
      cases h
      refine ⟨writer, _, hwriter, rfl, by rintro ⟨⟩, .inr ⟨?_, ?_, .inl rfl⟩⟩
      · rw [hphase]
        rintro ⟨⟩
      · simp only [left, hphase, List.length_cons]
        omega
    · cases h

/-- A task can take its step unless it waits for a lock that another one has, or has returned. -/
theorem isSome_writerStep (hwriter : s.writers[i]? = some writer) :
    (s.writerStep i).isSome ↔
      (writer.phase = .locking → s.holder = none) ∧ writer.phase ≠ .returned := by
  simp only [writerStep, hwriter]
  cases hphase : writer.phase with
  | locking =>
    cases hholder : s.holder with
    | none => exact iff_of_true rfl ⟨fun _ => rfl, by rintro ⟨⟩⟩
    | some j =>
      refine iff_of_false (by rintro ⟨⟩) fun h => ?_
      cases h.1 rfl
  | header rest | payload rest =>
    cases rest <;> exact iff_of_true rfl ⟨by rintro ⟨⟩, by rintro ⟨⟩⟩
  | returned => exact iff_of_false (by rintro ⟨⟩) fun h => h.2 rfl

variable {τ : Type} [UserMessages τ] [Ciborium τ] {sender : TcpSender} {runtime : Option Runtime}
  {input : WriterInput τ} {output : Unit}

/-- What the main thread does leaves the tasks and the lock alone. -/
theorem step_cases (h : step sender runtime s input = some (s', output))
    (hfail : ∀ j, input ≠ .fail j) :
    (∃ writers, s'.writers = s.writers ++ writers ∧ s'.holder = s.holder ∧
        ∀ j, input ≠ .writer j) ∨
      ∃ j, input = .writer j ∧ s.writerStep j = some s' := by
  cases input with
  | sendMessage t message =>
    cases h
    exact .inl ⟨_, rfl, rfl, by rintro j ⟨⟩⟩
  | write buf =>
    cases h
    exact .inl ⟨_, rfl, rfl, by rintro j ⟨⟩⟩
  | writer j =>
    obtain ⟨after, hstep, heq⟩ := Option.map_eq_some_iff.mp h
    cases heq
    exact .inr ⟨j, rfl, hstep⟩
  | fail j => exact absurd rfl (hfail j)

/-- **A task is moved by its own steps only.** -/
theorem lookup_other (h : step sender runtime s input = some (s', output))
    (hfail : ∀ j, input ≠ .fail j) (hother : input ≠ .writer i)
    (hwriter : s.writers[i]? = some writer) : s'.writers[i]? = some writer := by
  rcases step_cases h hfail with ⟨writers, hwriters, -, -⟩ | ⟨j, rfl, hstep⟩
  · rw [hwriters, List.getElem?_append_left (List.getElem?_eq_some_iff.mp hwriter).1]
    exact hwriter
  · obtain ⟨_, phase, -, hwriters, -⟩ := writerStep_spec hstep
    have hne : j ≠ i := fun heq => hother (heq ▸ rfl)
    rw [hwriters, move, List.getElem?_set_ne hne]
    exact hwriter

/-- The lock stays with the task that has it until it gives it up. -/
theorem holder_step (h : step sender runtime s input = some (s', output))
    (hfail : ∀ j, input ≠ .fail j) (hholder : s.holder = some i) :
    s'.holder = some i ∨ s'.holder = none := by
  rcases step_cases h hfail with ⟨writers, -, hsame, -⟩ | ⟨j, rfl, hstep⟩
  · exact .inl (hsame.trans hholder)
  · obtain ⟨_, phase, -, -, -, ⟨-, hfree, -⟩ | ⟨-, -, hsame | hnone⟩⟩ := writerStep_spec hstep
    · cases hfree.symm.trans hholder
    · exact .inl (hsame.trans hholder)
    · exact .inr hnone

/-- The task that has the lock is on its way. -/
theorem exists_of_holder (h : Appenders.Guarded s.appenders) (hholder : s.holder = some i) :
    ∃ writer, s.writers[i]? = some writer ∧ writer.phase ≠ .locking ∧
      writer.phase ≠ .returned := by
  obtain ⟨task, rest, htask, hphase⟩ := h.held i hholder
  rw [appenders, List.getElem?_map] at htask
  obtain ⟨writer, hwriter, rfl⟩ := Option.map_eq_some_iff.mp htask
  refine ⟨writer, hwriter, fun hlocking => ?_, fun hreturned => ?_⟩
  · rw [Writer.task, hlocking] at hphase
    cases hphase
  · rw [Writer.task_done.mpr hreturned] at hphase
    cases hphase

/-- A task that is on its way has the lock. -/
theorem holder_of_phase (h : Appenders.Guarded s.appenders) (hwriter : s.writers[i]? = some writer)
    (hlocking : writer.phase ≠ .locking) (hreturned : writer.phase ≠ .returned) :
    s.holder = some i := by
  have htask := appenders_lookup hwriter
  cases hphase : writer.phase with
  | locking => exact absurd hphase hlocking
  | returned => exact absurd hphase hreturned
  | header rest =>
    refine h.exclusive i _ (rest ++ writer.buf) htask ?_
    rw [Writer.task, hphase]
  | payload rest =>
    refine h.exclusive i _ rest htask ?_
    rw [Writer.task, hphase]

end TcpWriters

/-! ## The course of the writers -/

section Course
variable {τ : Type} [UserMessages τ] [Ciborium τ] {sender : TcpSender} {runtime : Option Runtime}

/-- No write fails, and each task that can again and again take its step does so. -/
structure TakeTurns (c : Course (writerMachine τ sender runtime) .new) : Prop where
  fails : ∀ n i, c.input n ≠ some (.fail i)
  fair : ∀ i, StronglyFair (fun n => ((c.state n).writerStep i).isSome)
    fun n => c.input n = some (.writer i)

namespace TakeTurns
open TcpWriters
variable {c : Course (writerMachine τ sender runtime) .new} {n m i : Nat} {writer : Writer}

theorem guarded (c : Course (writerMachine τ sender runtime) .new) (n : Nat) :
    Appenders.Guarded (c.state n).appenders :=
  guarded_run (c.run n)

/-- The steps of the writers, and that they do nothing in the others. -/
theorem step (h : TakeTurns c) (n : Nat) :
    c.input n = none ∧ c.state (n + 1) = c.state n ∨
      ∃ input output, c.input n = some input ∧ (∀ j, input ≠ .fail j) ∧
        TcpWriters.step sender runtime (c.state n) input = some (c.state (n + 1), output) := by
  rcases c.step n with hidle | ⟨input, output, hinput, hstep⟩
  · exact .inl hidle
  · exact .inr ⟨input, output, hinput, fun j heq => h.fails n j (heq ▸ hinput), hstep⟩

/-- A task stays where it is until it takes its step. -/
theorem stays (h : TakeTurns c) (hother : c.input n ≠ some (.writer i))
    (hwriter : (c.state n).writers[i]? = some writer) :
    (c.state (n + 1)).writers[i]? = some writer := by
  rcases h.step n with ⟨-, hsame⟩ | ⟨input, output, hinput, hfail, hstep⟩
  · rw [hsame]
    exact hwriter
  · exact lookup_other hstep hfail (fun heq => hother (heq ▸ hinput)) hwriter

/-- The step of a task. -/
theorem takes (h : TakeTurns c) (hinput : c.input n = some (.writer i)) :
    (c.state n).writerStep i = some (c.state (n + 1)) := by
  rcases h.step n with ⟨hidle, -⟩ | ⟨input, output, hinput', -, hstep⟩
  · cases hinput.symm.trans hidle
  · cases hinput.symm.trans hinput'
    obtain ⟨after, hafter, heq⟩ := Option.map_eq_some_iff.mp hstep
    cases heq
    exact hafter

/-- A task that has taken the lock does not wait for it again. -/
theorem locked_stays (h : TakeTurns c) :
    Monotone fun n =>
      ∃ writer, (c.state n).writers[i]? = some writer ∧ writer.phase ≠ .locking := by
  refine monotone_nat_of_le_succ fun n => ?_
  rintro ⟨writer, hwriter, hphase⟩
  by_cases hinput : c.input n = some (.writer i)
  · obtain ⟨writer', phase, hwriter', hwriters, hlocking, -⟩ := writerStep_spec (h.takes hinput)
    exact ⟨_, lookup_moved hwriter' hwriters, hlocking⟩
  · exact ⟨writer, h.stays hinput hwriter, hphase⟩

/-- A task that has returned does nothing more. -/
theorem returned_stays (h : TakeTurns c) :
    Monotone fun n => ∃ writer, (c.state n).writers[i]? = some writer ∧
      writer.phase = .returned := by
  refine monotone_nat_of_le_succ fun n => ?_
  rintro ⟨writer, hwriter, hphase⟩
  refine ⟨writer, h.stays (fun hinput => ?_) hwriter, hphase⟩
  have hsome : ((c.state n).writerStep i).isSome := by
    rw [h.takes hinput]
    rfl
  exact ((isSome_writerStep hwriter).mp hsome).2 hphase

/-- The steps that are left of task `i`. -/
def leftOf (c : Course (writerMachine τ sender runtime) .new) (i n : Nat) : Nat :=
  (((c.state n).writers[i]?).map left).getD 0

theorem leftOf_eq (hwriter : (c.state n).writers[i]? = some writer) :
    leftOf c i n = left writer := by
  rw [leftOf, hwriter]
  rfl

/-- The task that has the lock gets on with its steps. -/
theorem holder_next (h : TakeTurns c) (hholder : (c.state n).holder = some i) :
    (c.state (n + 1)).holder = none ∨
      (c.state (n + 1)).holder = some i ∧ leftOf c i (n + 1) ≤ leftOf c i n ∧
        (c.input n = some (.writer i) → leftOf c i (n + 1) < leftOf c i n) := by
  obtain ⟨writer, hwriter, hphase, -⟩ := exists_of_holder (guarded c n) hholder
  by_cases hinput : c.input n = some (.writer i)
  · obtain ⟨writer', phase, hwriter', hwriters, -, hmoved⟩ := writerStep_spec (h.takes hinput)
    cases hwriter.symm.trans hwriter'
    have hself := lookup_moved hwriter hwriters
    rcases hmoved with ⟨hlocking, -⟩ | ⟨-, hleft, hkept | hnone⟩
    · exact absurd hlocking hphase
    · rw [← leftOf_eq hself, ← leftOf_eq hwriter] at hleft
      exact .inr ⟨hkept.trans hholder, hleft.le, fun _ => hleft⟩
    · exact .inl hnone
  · have hsame : leftOf c i (n + 1) = leftOf c i n := by
      rw [leftOf_eq hwriter, leftOf_eq (h.stays hinput hwriter)]
    have hkept : (c.state (n + 1)).holder = some i ∨ (c.state (n + 1)).holder = none := by
      rcases h.step n with ⟨-, hidle⟩ | ⟨input, output, -, hfail, hstep⟩
      · rw [hidle]
        exact .inl hholder
      · exact holder_step hstep hfail hholder
    rcases hkept with hkept | hnone
    · exact .inr ⟨hkept, hsame.le, fun heq => absurd heq hinput⟩
    · exact .inl hnone

/-- **The lock is given up.** -/
theorem releases (h : TakeTurns c) (i : Nat) :
    LeadsTo (fun n => (c.state n).holder = some i) fun n => (c.state n).holder = none := by
  refine .descends (leftOf c i) (h.fair i).weakly (fun n hholder _ => ?_)
    (fun n hholder _ => ?_) fun n hholder _ hinput => ?_
  · obtain ⟨writer, hwriter, hlocking, hreturned⟩ := exists_of_holder (guarded c n) hholder
    exact (isSome_writerStep hwriter).mpr ⟨fun hphase => absurd hphase hlocking, hreturned⟩
  · exact (h.holder_next hholder).imp_right fun hnext => ⟨hnext.1, hnext.2.1⟩
  · exact (h.holder_next hholder).imp_right fun hnext => ⟨hnext.1, hnext.2.2 hinput⟩

/-- The lock is free again and again. -/
theorem frees (h : TakeTurns c) (n : Nat) : ∃ m, n ≤ m ∧ (c.state m).holder = none := by
  cases hholder : (c.state n).holder with
  | none => exact ⟨n, le_rfl, hholder⟩
  | some j => exact h.releases j n hholder

theorem lookup_mono (h : TakeTurns c) (hwriter : (c.state n).writers[i]? = some writer)
    (hle : n ≤ m) : ∃ phase, (c.state m).writers[i]? = some { writer with phase := phase } := by
  induction m, hle using Nat.le_induction with
  | base => exact ⟨writer.phase, hwriter⟩
  | succ m hle ih =>
    obtain ⟨phase, hbefore⟩ := ih
    rcases h.step m with ⟨-, hsame⟩ | ⟨input, output, -, -, hstep⟩
    · exact ⟨phase, by rw [hsame, hbefore]⟩
    · obtain ⟨phase', hafter⟩ := lookup_step hstep hbefore
      exact ⟨phase', hafter⟩

/-- **A task that waits takes the lock.** -/
theorem locks (h : TakeTurns c) (i : Nat) :
    LeadsTo (fun n => ∃ writer, (c.state n).writers[i]? = some writer ∧ writer.phase = .locking)
      fun n => ∃ writer, (c.state n).writers[i]? = some writer ∧ writer.phase ≠ .locking := by
  refine .ensures_strongly (h.fair i) ?_ ?_ ?_
  · rintro n ⟨writer, hwriter, -⟩
    obtain ⟨m, hm, hfree⟩ := h.frees n
    obtain ⟨phase, hwriter'⟩ := h.lookup_mono hwriter hm
    refine ⟨m, hm, ?_⟩
    by_cases hphase : phase = .locking
    · refine .inr ((isSome_writerStep hwriter').mpr ⟨fun _ => hfree, ?_⟩)
      rw [hphase]
      rintro ⟨⟩
    · exact .inl ⟨_, hwriter', hphase⟩
  · rintro n ⟨writer, hwriter, hphase⟩ -
    by_cases hinput : c.input n = some (.writer i)
    · obtain ⟨writer', phase, hwriter', hwriters, hlocking, -⟩ := writerStep_spec (h.takes hinput)
      exact .inl ⟨_, lookup_moved hwriter' hwriters, hlocking⟩
    · exact .inr ⟨writer, h.stays hinput hwriter, hphase⟩
  · rintro n ⟨writer, hwriter, hphase⟩ - hinput
    obtain ⟨writer', phase, hwriter', hwriters, hlocking, -⟩ := writerStep_spec (h.takes hinput)
    exact ⟨_, lookup_moved hwriter' hwriters, hlocking⟩

/-- A task that has taken the lock returns. -/
theorem returns (h : TakeTurns c) (i : Nat) :
    LeadsTo (fun n => ∃ writer, (c.state n).writers[i]? = some writer ∧ writer.phase ≠ .locking)
      fun n => ∃ writer, (c.state n).writers[i]? = some writer ∧ writer.phase = .returned := by
  intro n hlocked
  obtain ⟨m, hm, hfree⟩ := h.frees n
  obtain ⟨writer, hwriter, hlocking⟩ := h.locked_stays hm hlocked
  refine ⟨m, hm, writer, hwriter, ?_⟩
  by_contra hreturned
  cases (holder_of_phase (guarded c m) hwriter hlocking hreturned).symm.trans hfree

/-- **Each call is written.** Sooner or later the tasks of all calls that were made by now have
returned. -/
theorem all_return (h : TakeTurns c) (n : Nat) :
    ∃ m, n ≤ m ∧ ∀ i < (c.state n).writers.length,
      ∃ writer, (c.state m).writers[i]? = some writer ∧ writer.phase = .returned := by
  refine all_come (fun i => h.returned_stays) (fun i hi => ?_) n
  have hwriter := List.getElem?_eq_getElem hi
  have hcomes : ∃ k, n ≤ k ∧ ∃ writer, (c.state k).writers[i]? = some writer ∧
      writer.phase ≠ .locking := by
    by_cases hphase : (c.state n).writers[i].phase = .locking
    · exact h.locks i n ⟨_, hwriter, hphase⟩
    · exact ⟨n, le_rfl, _, hwriter, hphase⟩
  obtain ⟨k, -, hlocked⟩ := hcomes
  obtain ⟨m, -, hreturned⟩ := h.returns i k hlocked
  exact ⟨m, hreturned⟩

end TakeTurns

end Course

end Inator
