import Inator.Lib.Appenders
import Inator.Ports.Tcp.Writers
import Inator.Verify.Messaging

/-! # What the writers of a stream put on the wire

The writers of a TCP stream are tasks that append their frames under a mutex. So the wire is
made of whole frames; but nothing makes the tasks take the mutex in the order of the calls. -/

namespace Inator

/-! ## The writers append under a mutex -/

/-- The appending task that a writer is. Header and payload are one frame. -/
def Writer.task (writer : Writer) : Appenders.Task UInt8 where
  frame := writer.frame
  phase := match writer.phase with
    | .locking => .waiting
    | .header rest => .writing (rest ++ writer.buf)
    | .payload rest => .writing rest
    | .returned => .done

theorem Writer.task_done {writer : Writer} :
    writer.task.phase = .done ↔ writer.phase = .returned := by
  rw [task]
  cases writer.phase with
  | returned => exact iff_of_true rfl rfl
  | locking | header | payload => exact iff_of_false nofun nofun

namespace TcpWriters
variable {s s' : TcpWriters} {i : Nat}

def appenders (s : TcpWriters) : Appenders.State UInt8 where
  tasks := s.writers.map Writer.task
  holder := s.holder
  log := s.wire

theorem appenders_lookup {writer : Writer} (h : s.writers[i]? = some writer) :
    s.appenders.tasks[i]? = some writer.task := by
  rw [appenders, List.getElem?_map, h]
  rfl

theorem appenders_moved (s : TcpWriters) (i : Nat) (writer : Writer) (phase : WriterPhase)
    (holder : Option Nat) (wire : List (Nat × UInt8)) :
    appenders ⟨s.move i writer phase, holder, wire⟩ =
      ⟨s.appenders.move i writer.task (Writer.task { writer with phase := phase }).phase, holder,
        wire⟩ := by
  rw [appenders, move, List.map_set]
  rfl

/-- Task `i` is at a byte of its frame. -/
def Writes (s : TcpWriters) (i : Nat) : Prop :=
  ∃ writer b rest, s.writers[i]? = some writer ∧
    (writer.phase = .header (b :: rest) ∨ writer.phase = .payload (b :: rest))

/-- **A step of a writer is a step of a task that appends**, but for the step from its header to
its payload, of which the log shows nothing. -/
theorem writerStep_appenders (h : s.writerStep i = some s') :
    (∃ label, Appenders.Step s.appenders label s'.appenders ∧
      ∀ j, label = some j ↔ j = i ∧ s.Writes i) ∨
    s'.appenders = s.appenders ∧ ¬s.Writes i := by
  simp only [writerStep] at h
  split at h
  · cases h
  · rename_i writer hwriter
    have hlookup := appenders_lookup hwriter
    have hquiet : ∀ {phase}, writer.phase = phase → (∀ b rest, phase ≠ .header (b :: rest)) →
        (∀ b rest, phase ≠ .payload (b :: rest)) → ¬s.Writes i := by
      rintro phase rfl hheader hpayload ⟨writer', b, rest, hwriter', hphase⟩
      cases hwriter.symm.trans hwriter'
      exact hphase.elim (hheader b rest) (hpayload b rest)
    have hwrote : ∀ {j}, s.Writes i → (some i = some j ↔ j = i ∧ s.Writes i) := by
      intro j hwrites
      rw [and_iff_left hwrites, Option.some.injEq]
      exact eq_comm
    split at h
    · rename_i hphase
      split at h
      · cases h
      · rename_i hfree
        cases h
        left
        have htask : writer.task.phase = .waiting := by rw [Writer.task, hphase]
        refine ⟨none, ?_, ?_⟩
        · rw [appenders_moved]
          exact Appenders.Step.locked hlookup htask hfree
        · exact fun j => iff_of_false nofun fun hw => hquiet hphase nofun nofun hw.2
    · rename_i hphase
      cases h
      right
      refine ⟨?_, hquiet hphase nofun nofun⟩
      rw [appenders_moved]
      have htask : (Writer.task { writer with phase := .payload writer.buf }).phase =
          writer.task.phase := by
        simp only [Writer.task, hphase, List.nil_append]
      rw [htask, Appenders.State.move_self hlookup]
      rfl
    · rename_i b rest hphase
      cases h
      left
      have htask : writer.task.phase = .writing (b :: (rest ++ writer.buf)) := by
        rw [Writer.task, hphase]
        rfl
      refine ⟨some i, ?_, ?_⟩
      · rw [appenders_moved]
        exact Appenders.Step.wrote hlookup htask
      · exact fun j => hwrote ⟨writer, b, rest, hwriter, .inl hphase⟩
    · rename_i hphase
      cases h
      left
      have htask : writer.task.phase = .writing [] := by rw [Writer.task, hphase]
      refine ⟨none, ?_, ?_⟩
      · rw [appenders_moved]
        exact Appenders.Step.released hlookup htask
      · exact fun j => iff_of_false nofun fun hw => hquiet hphase nofun nofun hw.2
    · rename_i b rest hphase
      cases h
      left
      have htask : writer.task.phase = .writing (b :: rest) := by rw [Writer.task, hphase]
      refine ⟨some i, ?_, ?_⟩
      · rw [appenders_moved]
        exact Appenders.Step.wrote hlookup htask
      · exact fun j => hwrote ⟨writer, b, rest, hwriter, .inr hphase⟩
    · cases h

theorem failStep_appenders (h : s.failStep i = some s') :
    Appenders.Failure s.appenders s'.appenders := by
  simp only [failStep] at h
  split at h
  · cases h
  · rename_i writer hwriter
    have hlookup := appenders_lookup hwriter
    split at h
    · rename_i rest hphase
      cases h
      have htask : writer.task.phase = .writing (rest ++ writer.buf) := by
        rw [Writer.task, hphase]
      rw [appenders_moved]
      exact .failed hlookup htask
    · rename_i rest hphase
      cases h
      have htask : writer.task.phase = .writing rest := by rw [Writer.task, hphase]
      rw [appenders_moved]
      exact .failed hlookup htask
    · cases h
    · cases h

/-- A call spawns tasks that wait for the lock. -/
theorem spawn_appenders {writers : List Writer} (h : ∀ writer ∈ writers, writer.phase = .locking) :
    Appenders.Step s.appenders none { s with writers := s.writers ++ writers }.appenders := by
  have hspawned := Appenders.Step.spawned (s := s.appenders) (writers.map Writer.frame)
  have htasks : (writers.map Writer.frame).map (⟨·, .waiting⟩) = writers.map Writer.task := by
    rw [List.map_map]
    refine List.map_congr_left fun writer hwriter => ?_
    rw [Function.comp_apply, Writer.task, h writer hwriter]
  have happenders : appenders { s with writers := s.writers ++ writers } =
      { s.appenders with tasks := s.appenders.tasks ++ writers.map Writer.task } := by
    rw [appenders, List.map_append]
    rfl
  rw [htasks] at hspawned
  rw [happenders]
  exact hspawned

variable {τ : Type} [UserMessages τ] [Ciborium τ] {sender : TcpSender} {runtime : Option Runtime}
  {input : WriterInput τ} {output : Unit}

/-- A step of the writers, or of the main thread, as the tasks that append see it. -/
inductive Appends (s : TcpWriters) (input : WriterInput τ) (s' : TcpWriters) : Prop
  | step {label : Option Nat} (step : Appenders.Step s.appenders label s'.appenders)
      (writes : ∀ i, label = some i ↔ input = .writer i ∧ s.Writes i)
  | stutter (same : s'.appenders = s.appenders) (quiet : ∀ i, ¬(input = .writer i ∧ s.Writes i))
  | failed {i : Nat} (asked : input = .fail i)
      (failure : Appenders.Failure s.appenders s'.appenders)

theorem write_locking (sender : TcpSender) (buf : List UInt8) :
    ∀ writer ∈ sender.write buf, writer.phase = .locking := by
  intro writer hwriter
  simp only [TcpSender.write] at hwriter
  split at hwriter
  · rw [List.mem_singleton.mp hwriter]
  · rw [List.mem_singleton.mp hwriter]
  · cases hwriter

theorem step_appends (h : step sender runtime s input = some (s', output)) :
    s.Appends input s' := by
  cases input with
  | write buf =>
    cases h
    exact .step (spawn_appenders (write_locking sender buf)) fun i => iff_of_false nofun nofun
  | sendMessage t message =>
    cases h
    refine .step (spawn_appenders ?_) fun i => iff_of_false nofun nofun
    rw [TcpSender.sendMessage_eq]
    split
    · exact write_locking sender _
    · exact nofun
  | writer i =>
    obtain ⟨after, hstep, heq⟩ := Option.map_eq_some_iff.mp h
    cases heq
    rcases writerStep_appenders hstep with ⟨label, hstep, hwrites⟩ | ⟨hsame, hquiet⟩
    · refine .step hstep fun j => (hwrites j).trans ⟨?_, ?_⟩
      · rintro ⟨rfl, hw⟩
        exact ⟨rfl, hw⟩
      · rintro ⟨hinput, hw⟩
        cases hinput
        exact ⟨rfl, hw⟩
    · refine .stutter hsame ?_
      rintro j ⟨hinput, hw⟩
      cases hinput
      exact hquiet hw
  | fail i =>
    obtain ⟨after, hstep, heq⟩ := Option.map_eq_some_iff.mp h
    cases heq
    exact .failed rfl (failStep_appenders hstep)

/-- The bytes of an earlier call stand on the wire before those of a later one. -/
def InOrder (s : TcpWriters) : Prop := (s.wire.map Prod.fst).Pairwise (· ≤ ·)

/-- What call `i` is to put on the wire. -/
def frameOf (s : TcpWriters) (i : Nat) : List UInt8 := ((s.writers[i]?).map Writer.frame).getD []

/-- The frame of an appending task, without its labels. -/
theorem labelled_appenders (s : TcpWriters) (i : Nat) :
    (s.appenders.labelled i).map Prod.snd = s.frameOf i := by
  have hframe : (s.appenders.tasks[i]?).map Appenders.Task.frame =
      (s.writers[i]?).map Writer.frame := by
    rw [appenders, List.getElem?_map, Option.map_map]
    rfl
  rw [Appenders.State.labelled, hframe, List.map_map, frameOf]
  exact List.map_id _

end TcpWriters

/-! ## The runs of the writers -/

abbrev WriterTransition (τ : Type) [UserMessages τ] :=
  Machine.Transition TcpWriters (WriterInput τ) Unit

namespace WriterTransition
variable {τ : Type} [UserMessages τ]

/-- Task `i` takes the lock. -/
def Locks (t : WriterTransition τ) (i : Nat) : Prop := t.pre.holder = none ∧ t.post.holder = some i

/-- Task `i` puts a byte on the wire. -/
def Puts (t : WriterTransition τ) (i : Nat) : Prop := t.input = .writer i ∧ t.pre.Writes i

end WriterTransition

/-- No task takes the lock after one of a later call has had it, unless one of the two puts nothing
on the wire: its first write fails, or is still to come. -/
def LocksInTurn {τ : Type} [UserMessages τ] (ts : List (WriterTransition τ)) : Prop :=
  ∀ before t after i j, ts = before ++ t :: after → t.Locks i → i < j →
    (∃ u ∈ before, u.Locks j) → (∀ u ∈ before, ¬u.Puts j) ∨ ∀ u ∈ after, ¬u.Puts i

/-- A task that puts its first byte on the wire finds none of a later call there. -/
def BeginsInTurn {τ : Type} [UserMessages τ] (t : WriterTransition τ) : Prop :=
  ∀ i, t.input = .writer i → t.pre.Writes i → i ∉ t.pre.wire.map Prod.fst →
    ∀ j ∈ t.pre.wire.map Prod.fst, j < i

section Runs
variable {τ : Type} [UserMessages τ] [Ciborium τ] {sender : TcpSender} {runtime : Option Runtime}
  {ts : List (WriterTransition τ)} {t : WriterTransition τ} {s : TcpWriters}

theorem guarded_step (h : Appenders.Guarded t.pre.appenders)
    (hof : t.Of (writerMachine τ sender runtime)) : Appenders.Guarded t.post.appenders := by
  cases TcpWriters.step_appends hof with
  | step step => exact h.step step
  | stutter same => exact same ▸ h
  | failed _ failure => exact h.failure failure

theorem guarded_run (h : (writerMachine τ sender runtime).Run .new ts s) :
    Appenders.Guarded s.appenders :=
  h.invariant (fun s => Appenders.Guarded s.appenders) .start fun _ => guarded_step

theorem atomic_run (h : (writerMachine τ sender runtime).Run .new ts s)
    (hfails : ∀ t ∈ ts, ∀ i, t.input ≠ .fail i) :
    ∃ done part, Appenders.Atomic s.appenders done part := by
  refine h.history (fun ts s => (∀ t ∈ ts, ∀ i, t.input ≠ .fail i) →
    ∃ done part, Appenders.Atomic s.appenders done part) (fun _ => ⟨[], [], .start⟩) ?_ hfails
  intro ts t hrun hatomic hof hfails
  obtain ⟨hbefore, hlast⟩ := List.forall_mem_append.mp hfails
  obtain ⟨done, part, hatomic⟩ := hatomic hbefore
  cases TcpWriters.step_appends hof with
  | step step => exact hatomic.step (guarded_run hrun) step
  | stutter same => exact ⟨done, part, same ▸ hatomic⟩
  | failed asked => exact absurd asked (List.forall_mem_singleton.mp hlast _)

/-- **Frames are whole.** In every run of the writers of a stream in which no write fails, the
wire holds the frames of the tasks that have returned, each once, and a beginning of the frame of
the task that has the lock, if one has it. -/
theorem frames_whole (sender : TcpSender) (runtime : Option Runtime)
    (ts : List (WriterTransition τ)) (s : TcpWriters)
    (h : (writerMachine τ sender runtime).Run .new ts s)
    (hfails : ∀ t ∈ ts, ∀ i, t.input ≠ .fail i) :
    ∃ (done : List Nat) (part : List UInt8),
      done.Nodup ∧
      (∀ i, i ∈ done ↔ ∃ writer, s.writers[i]? = some writer ∧ writer.phase = .returned) ∧
      s.wire.map Prod.snd = done.flatMap s.frameOf ++ part ∧
      (s.holder = none ∧ part = [] ∨
        ∃ i, s.holder = some i ∧ i < s.writers.length ∧ i ∉ done ∧ part <+: s.frameOf i) := by
  obtain ⟨done, part, hatomic⟩ := atomic_run h hfails
  have hdone : ∀ i, i ∈ done ↔
      ∃ writer, s.writers[i]? = some writer ∧ writer.phase = .returned := by
    intro i
    rw [hatomic.done_iff, TcpWriters.appenders, List.getElem?_map]
    constructor
    · rintro ⟨task, htask, hphase⟩
      obtain ⟨writer, hwriter, rfl⟩ := Option.map_eq_some_iff.mp htask
      exact ⟨writer, hwriter, Writer.task_done.mp hphase⟩
    · rintro ⟨writer, hwriter, hphase⟩
      exact ⟨writer.task, Option.map_eq_some_iff.mpr ⟨writer, hwriter, rfl⟩,
        Writer.task_done.mpr hphase⟩
  refine ⟨done, part.map Prod.snd, hatomic.once, hdone, ?_, ?_⟩
  · have hwire : s.wire = done.flatMap s.appenders.labelled ++ part := hatomic.log
    rw [hwire, List.map_append, List.map_flatMap]
    congr 1
    exact List.flatMap_congr fun i _ => s.labelled_appenders i
  · cases hholder : s.holder with
    | none => exact .inl ⟨rfl, by rw [hatomic.free hholder]; rfl⟩
    | some i =>
      obtain ⟨task, rest, hlookup, hphase⟩ := (guarded_run h).held i hholder
      obtain ⟨written, hframe, hpart⟩ := hatomic.current i task rest hlookup hphase
      refine .inr ⟨i, rfl, ?_, ?_, rest, ?_⟩
      · have hlt := (List.getElem?_eq_some_iff.mp hlookup).1
        rwa [TcpWriters.appenders, List.length_map] at hlt
      · rw [hatomic.done_iff]
        rintro ⟨task', hlookup', hphase'⟩
        cases hlookup.symm.trans hlookup'
        cases hphase.symm.trans hphase'
      · rw [← s.labelled_appenders, Appenders.labelled_of_lookup hlookup, hframe, hpart,
          List.map_map, List.map_map]
        exact (congrArg (· ++ rest) (List.map_id written)).trans (List.map_id _).symm

/-! ## The order of the frames -/

/-- A task that has the lock has taken it, and nobody has had it since. -/
theorem locked_since (h : (writerMachine τ sender runtime).Run .new ts s) {i : Nat}
    (hholder : s.holder = some i) :
    ∃ before t after, ts = before ++ t :: after ∧ t.Locks i ∧
      ∀ u ∈ after, u.pre.holder = some i := by
  refine h.history (fun ts s => s.holder = some i → ∃ before t after,
    ts = before ++ t :: after ∧ WriterTransition.Locks t i ∧ ∀ u ∈ after, u.pre.holder = some i)
      (fun hholder => by cases hholder) ?_ hholder
  intro ts t _ ih hof hholder
  have hkept : t.pre.holder = some i ∨ t.pre.holder = none := by
    cases TcpWriters.step_appends hof with
    | step step => exact step.holder hholder
    | stutter same => exact .inl ((congrArg Appenders.State.holder same).symm.trans hholder)
    | failed _ failure => cases failure.holder.symm.trans hholder
  rcases hkept with hheld | hfree
  · obtain ⟨before, t', after, rfl, hlocks, hafter⟩ := ih hheld
    refine ⟨before, t', after ++ [t], by rw [List.append_assoc, List.cons_append], hlocks, ?_⟩
    exact List.forall_mem_append.mpr ⟨hafter, List.forall_mem_singleton.mpr hheld⟩
  · exact ⟨ts, t, [], rfl, ⟨hfree, hholder⟩, fun _ hu => absurd hu List.not_mem_nil⟩

omit [Ciborium τ] in
/-- Who writes has the lock. -/
theorem puts_holder (hguarded : Appenders.Guarded t.pre.appenders) {i : Nat} (h : t.Puts i) :
    t.pre.holder = some i := by
  obtain ⟨-, writer, b, rest, hwriter, hphase⟩ := h
  rcases hphase with hphase | hphase
  · exact hguarded.exclusive i writer.task (b :: (rest ++ writer.buf))
      (TcpWriters.appenders_lookup hwriter) (by rw [Writer.task, hphase]; rfl)
  · exact hguarded.exclusive i writer.task (b :: rest)
      (TcpWriters.appenders_lookup hwriter) (by rw [Writer.task, hphase])

/-- The wire grows by a byte of the task that writes. -/
theorem labels_puts (hof : t.Of (writerMachine τ sender runtime)) :
    ∃ label : Option Nat, t.post.appenders.labels = t.pre.appenders.labels ++ label.toList ∧
      ∀ i, label = some i ↔ t.Puts i := by
  cases TcpWriters.step_appends hof with
  | @step label step writes => exact ⟨label, step.labels, writes⟩
  | stutter same quiet =>
    refine ⟨none, ?_, fun i => iff_of_false nofun (quiet i)⟩
    rw [same, Option.toList_none, List.append_nil]
  | failed asked failure =>
    refine ⟨none, ?_, fun i => iff_of_false nofun ?_⟩
    · rw [failure.labels, Option.toList_none, List.append_nil]
    · rintro ⟨hinput, -⟩
      cases asked.symm.trans hinput

/-- The bytes on the wire are those of the tasks that have put some there. -/
theorem mem_labels (h : (writerMachine τ sender runtime).Run .new ts s) {j : Nat} :
    j ∈ s.appenders.labels ↔ ∃ t ∈ ts, t.Puts j := by
  refine h.history (fun ts s => j ∈ s.appenders.labels ↔ ∃ t ∈ ts, WriterTransition.Puts t j)
    (iff_of_false List.not_mem_nil nofun) ?_
  intro ts t _ ih hof
  obtain ⟨label, hlabels, hlabel⟩ := labels_puts hof
  rw [hlabels, List.mem_append, ih, Option.mem_toList, hlabel j]
  simp only [List.mem_append, List.mem_singleton, or_and_right, exists_or, exists_eq_left]

/-- What the tasks do on the wire: each that begins to write finds nothing of a later call
there. -/
theorem inOrder_iff_beginsInTurn (h : (writerMachine τ sender runtime).Run .new ts s) :
    (∀ t ∈ ts, t.post.InOrder) ↔ ∀ t ∈ ts, BeginsInTurn t := by
  have hstep : ∀ ts t, (writerMachine τ sender runtime).Run .new ts t.pre →
      t.Of (writerMachine τ sender runtime) → t.pre.InOrder →
        (t.post.InOrder ↔ BeginsInTurn t) := by
    intro ts t hrun hof hordered
    cases TcpWriters.step_appends hof with
    | step step writes =>
      refine (step.ordered_iff (guarded_run hrun)).trans ((and_iff_right hordered).trans ?_)
      exact forall_congr' fun i => (imp_congr_left (writes i)).trans and_imp
    | stutter same quiet =>
      have hwire : t.post.wire = t.pre.wire := congrArg Appenders.State.log same
      have hpost : t.post.InOrder := by rwa [TcpWriters.InOrder, hwire]
      exact iff_of_true hpost fun i hinput hwrites => absurd ⟨hinput, hwrites⟩ (quiet i)
    | failed asked failure =>
      refine iff_of_true (failure.ordered_iff.mpr hordered) fun i hinput => ?_
      cases asked.symm.trans hinput
  refine h.forall_iff (fun _ s => s.InOrder) List.Pairwise.nil ?_ ?_
  · intro ts t hrun hordered hof hturn
    have hpost := (hstep ts t hrun hof hordered).mpr hturn
    exact ⟨hpost, hpost⟩
  · exact fun ts t hrun hordered hof => (hstep ts t hrun hof hordered).mp

/-- A task that puts a byte on the wire has taken the lock before. -/
theorem WriterTransition.Puts.locked {before after : List (WriterTransition τ)} {i : Nat}
    (hputs : t.Puts i) (h : (writerMachine τ sender runtime).Run .new ts s)
    (hts : ts = before ++ t :: after) :
    ∃ start locks since, before = start ++ locks :: since ∧ locks.Locks i ∧
      ∀ u ∈ since, u.pre.holder = some i := by
  have hrun := (h.of_split hts).1
  exact locked_since hrun (puts_holder (guarded_run hrun) hputs)

/-- While a task has the lock, nobody else writes. -/
theorem mem_start_of_puts (h : (writerMachine τ sender runtime).Run .new ts s)
    {start since : List (WriterTransition τ)} {i j : Nat} (hts : ts = start ++ t :: since)
    (hlocks : t.Locks i) (hsince : ∀ u ∈ since, u.pre.holder = some i) (hne : j ≠ i)
    {u : WriterTransition τ} (hu : u ∈ ts) (hputs : u.Puts j) : u ∈ start := by
  have hholder : u.pre.holder = some j := by
    obtain ⟨before, after, hsplit⟩ := List.append_of_mem hu
    exact puts_holder (guarded_run (h.of_split hsplit).1) hputs
  rw [hts] at hu
  rcases List.mem_append.mp hu with hstart | hlater
  · exact hstart
  · rcases List.mem_cons.mp hlater with rfl | hlater
    · cases hlocks.1.symm.trans hholder
    · cases (hsince u hlater).symm.trans hholder
      exact absurd rfl hne

/-- What the tasks do at the lock decides what they do on the wire. -/
theorem LocksInTurn.begins (hlocks : LocksInTurn ts)
    (h : (writerMachine τ sender runtime).Run .new ts s) : ∀ t ∈ ts, BeginsInTurn t := by
  intro t ht i hinput hwrites hnew j hj
  obtain ⟨before, after, hts⟩ := List.append_of_mem ht
  have hrun := (h.of_split hts).1
  have hputs : t.Puts i := ⟨hinput, hwrites⟩
  obtain ⟨start, locks, since, hbefore, hlocked, hsince⟩ := hputs.locked h hts
  obtain ⟨u, hu, hearlier⟩ := (mem_labels hrun).mp hj
  by_contra hle
  have hne : j ≠ i := fun heq => hnew (heq ▸ hj)
  have hlt : i < j := Nat.lt_of_le_of_ne (Nat.le_of_not_lt hle) (Ne.symm hne)
  -- `j` has written, and so had the lock, before `i` took it
  have hstart := mem_start_of_puts hrun hbefore hlocked hsince hne hu hearlier
  have hhad : ∃ v ∈ start, v.Locks j := by
    obtain ⟨first, rest, rfl⟩ := List.append_of_mem hstart
    rw [List.append_assoc, List.cons_append] at hbefore
    obtain ⟨first', v, since', rfl, hv, -⟩ := hearlier.locked hrun hbefore
    exact ⟨v, List.mem_append_left _ (List.mem_append_right _ List.mem_cons_self), hv⟩
  have hsplit : ts = start ++ locks :: (since ++ t :: after) := by
    rw [hts, hbefore, List.append_assoc, List.cons_append]
  rcases hlocks start locks _ i j hsplit hlocked hlt hhad with hnone | hnone
  · exact hnone u hstart hearlier
  · exact hnone t (List.mem_append_right _ List.mem_cons_self) hputs

/-- **When the frames are in the order of the calls**: exactly when the tasks that write take the
lock in that order. -/
theorem inOrder_iff (sender : TcpSender) (runtime : Option Runtime)
    (ts : List (WriterTransition τ)) (s : TcpWriters)
    (h : (writerMachine τ sender runtime).Run .new ts s) :
    (∀ t ∈ ts, t.post.InOrder) ↔ LocksInTurn ts := by
  constructor
  · intro hordered before t after i j hts hlocks hlt hhad
    rw [or_iff_not_imp_left]
    intro hputs v hv hlater
    obtain ⟨u, hu, hearlier⟩ : ∃ u ∈ before, u.Puts j := by
      by_contra hnone
      exact hputs fun u hu hearlier => hnone ⟨u, hu, hearlier⟩
    obtain ⟨between, rest, rfl⟩ := List.append_of_mem hv
    have hsplit : ts = (before ++ t :: between) ++ v :: rest := by
      rw [hts, List.append_assoc, List.cons_append]
    obtain ⟨hrun, hof⟩ := h.of_split hsplit
    have hj : j ∈ v.pre.appenders.labels :=
      (mem_labels hrun).mpr ⟨u, List.mem_append_left _ hu, hearlier⟩
    obtain ⟨label, hlabels, hlabel⟩ := labels_puts hof
    have hmem : v ∈ ts := hsplit ▸ List.mem_append_right _ List.mem_cons_self
    have hpost : v.post.appenders.labels.Pairwise (· ≤ ·) := hordered v hmem
    rw [hlabels, (hlabel i).mpr hlater, List.pairwise_append] at hpost
    exact Nat.not_le.mpr hlt (hpost.2.2 j hj i (List.mem_singleton_self i))
  · exact fun hlocks => (inOrder_iff_beginsInTurn h).mpr (hlocks.begins h)

end Runs

/-- A `ClientTcp` that is connected. -/
def connectedClient : ClientPort :=
  { ClientPort.new (.tcp .default) with
    connecting := true, connected := true, writeHalf := some ⟨0, .stream⟩ }

/-- Two messages are sent, and the task of the second one takes the lock first. The other one has
the lock when the run ends. -/
def overtakenInputs : List (WriterInput Sample) :=
  [.sendMessage (.user .ticket) (42 : UInt8), .sendMessage (.user .ticket) (43 : UInt8)] ++
    (List.replicate 9 (.writer 1) ++ List.replicate 3 (.writer 0))

def overtakenRun : List (WriterTransition Sample) × TcpWriters :=
  ((writerMachine Sample (.client connectedClient) (some .new)).exec .new overtakenInputs).getD
    ([], .new)

theorem run_overtakenRun : (writerMachine Sample (.client connectedClient) (some .new)).Run .new
    overtakenRun.1 overtakenRun.2 := by
  have hexec : (writerMachine Sample (.client connectedClient) (some .new)).exec .new
    overtakenInputs = some overtakenRun := rfl
  exact .of_exec hexec

theorem frames_whole_overtakenRun :
    ∃ (done : List Nat) (part : List UInt8), done.Nodup ∧
      (∀ i, i ∈ done ↔ ∃ writer, overtakenRun.2.writers[i]? = some writer ∧
        writer.phase = .returned) ∧
      overtakenRun.2.wire.map Prod.snd = done.flatMap overtakenRun.2.frameOf ++ part ∧
      (overtakenRun.2.holder = none ∧ part = [] ∨
        ∃ i, overtakenRun.2.holder = some i ∧ i < overtakenRun.2.writers.length ∧ i ∉ done ∧
          part <+: overtakenRun.2.frameOf i) := by
  apply frames_whole _ _ _ _ run_overtakenRun
  have hall : overtakenRun.1.all (fun t => match t.input with
    | .fail _ => false
    | _ => true) = true := rfl
  intro t ht i hfail
  have ht := List.all_eq_true.mp hall t ht
  rw [hfail] at ht
  cases ht

theorem inOrder_overtakenRun :
    (∀ t ∈ overtakenRun.1, t.post.InOrder) ↔ LocksInTurn overtakenRun.1 :=
  inOrder_iff _ _ _ _ run_overtakenRun

/-- The frame of the second message is on the wire before that of the first. -/
theorem overtakenRun_swapped :
    ¬∀ ts s, (writerMachine Sample (.client connectedClient) (some .new)).Run .new ts s →
      ∀ t ∈ ts, t.post.InOrder := by
  intro h
  have hordered := h _ _ run_overtakenRun (overtakenRun.1.get ⟨13, by decide⟩) (List.get_mem _ _)
  revert hordered
  unfold TcpWriters.InOrder
  decide

end Inator
