import Mathlib.Data.List.Nodup

/-! # Tasks that append to one log under a mutex

Any number of tasks each append the items of a frame, one by one, and hold a lock from before the
first item until after the last one. Every item of the log is labelled with its task. `Atomic`
says that the log is made of whole frames and a beginning of one more, and `Ordered` that the
frames stand in the order in which the tasks were spawned. -/

namespace Appenders
variable {β : Type*}

/-- Where a task is; `rest` are the items it has still to append. -/
inductive Phase (β : Type*)
  | waiting
  | writing (rest : List β)
  | done

structure Task (β : Type*) where
  frame : List β
  phase : Phase β

structure State (β : Type*) where
  tasks : List (Task β)
  holder : Option Nat
  log : List (Nat × β)

namespace State

def start : State β := ⟨[], none, []⟩

/-- Task `i` is in a new phase. -/
def move (s : State β) (i : Nat) (task : Task β) (phase : Phase β) : List (Task β) :=
  s.tasks.set i { task with phase := phase }

/-- The tasks that have appended something. -/
def labels (s : State β) : List Nat := s.log.map Prod.fst

/-- The items of a frame, each with the task it belongs to. -/
def labelled (s : State β) (i : Nat) : List (Nat × β) :=
  (((s.tasks[i]?).map Task.frame).getD []).map (i, ·)

end State

/-- One step of a task, or of its creator. The label is the task that appends an item, if one
does. -/
inductive Step (s : State β) : Option Nat → State β → Prop
  | spawned (frames : List (List β)) :
      Step s none { s with tasks := s.tasks ++ frames.map (⟨·, .waiting⟩) }
  | locked {i : Nat} {task : Task β} (lookup : s.tasks[i]? = some task)
      (phase : task.phase = .waiting) (free : s.holder = none) :
      Step s none { s with tasks := s.move i task (.writing task.frame), holder := some i }
  | wrote {i : Nat} {task : Task β} {b : β} {rest : List β} (lookup : s.tasks[i]? = some task)
      (phase : task.phase = .writing (b :: rest)) :
      Step s (some i) { s with tasks := s.move i task (.writing rest), log := s.log ++ [(i, b)] }
  | released {i : Nat} {task : Task β} (lookup : s.tasks[i]? = some task)
      (phase : task.phase = .writing []) :
      Step s none { s with tasks := s.move i task .done, holder := none }

/-- A task gives up before the end of its frame. -/
inductive Failure (s : State β) : State β → Prop
  | failed {i : Nat} {task : Task β} {rest : List β} (lookup : s.tasks[i]? = some task)
      (phase : task.phase = .writing rest) :
      Failure s { s with tasks := s.move i task .done, holder := none }

variable {s s' : State β} {label : Option Nat} {i j : Nat} {task task' : Task β}
  {phase : Phase β}

namespace State

theorem lookup_move (lookup : s.tasks[i]? = some task) :
    (s.move i task phase)[j]? = if j = i then some { task with phase := phase }
      else s.tasks[j]? := by
  rw [move, List.getElem?_set]
  by_cases hj : j = i
  · subst hj
    rw [if_pos rfl, if_pos (List.getElem?_eq_some_iff.mp lookup).1, if_pos rfl]
  · rw [if_neg (Ne.symm hj), if_neg hj]

/-- What is looked up after a task has moved is that task, or another one. -/
theorem of_lookup_move (lookup : s.tasks[i]? = some task)
    (h : (s.move i task phase)[j]? = some task') :
    (j = i ∧ task' = { task with phase := phase }) ∨ j ≠ i ∧ s.tasks[j]? = some task' := by
  rw [lookup_move lookup] at h
  split at h
  · rename_i hj
    exact .inl ⟨hj, (Option.some.inj h).symm⟩
  · rename_i hj
    exact .inr ⟨hj, h⟩

theorem lookup_move_self (lookup : s.tasks[i]? = some task) :
    (s.move i task phase)[i]? = some { task with phase := phase } := by
  rw [lookup_move lookup, if_pos rfl]

theorem move_self (lookup : s.tasks[i]? = some task) : s.move i task task.phase = s.tasks := by
  obtain ⟨hlt, rfl⟩ := List.getElem?_eq_some_iff.mp lookup
  exact List.set_getElem_self hlt

theorem labels_wrote (s : State β) (tasks : List (Task β)) (i : Nat) (b : β) :
    State.labels { s with tasks := tasks, log := s.log ++ [(i, b)] } = s.labels ++ [i] := by
  rw [labels, List.map_append]
  rfl

/-- A task that was there, or one that was just spawned. -/
theorem of_lookup_spawned {frames : List (List β)}
    (h : (s.tasks ++ frames.map (⟨·, .waiting⟩))[i]? = some task) :
    s.tasks[i]? = some task ∨ s.tasks.length ≤ i ∧ task.phase = .waiting := by
  rw [List.getElem?_append] at h
  split at h
  · exact .inl h
  · rename_i hlength
    obtain ⟨frame, -, rfl⟩ := List.mem_map.mp (List.mem_of_getElem? h)
    exact .inr ⟨Nat.le_of_not_lt hlength, rfl⟩

theorem lookup_spawned {frames : List (List β)} (h : s.tasks[i]? = some task) :
    (s.tasks ++ frames.map (⟨·, .waiting⟩))[i]? = some task := by
  rw [List.getElem?_append_left (List.getElem?_eq_some_iff.mp h).1]
  exact h

end State

/-! ## Who has the lock -/

/-- The lock is with the task that is writing, if there is one, and what was appended last is its
own, once it has appended anything. -/
structure Guarded (s : State β) : Prop where
  exclusive : ∀ i task rest, s.tasks[i]? = some task → task.phase = .writing rest →
    s.holder = some i
  held : ∀ i, s.holder = some i → ∃ task rest, s.tasks[i]? = some task ∧
    task.phase = .writing rest
  silent : ∀ i task, s.tasks[i]? = some task → task.phase = .waiting → i ∉ s.labels
  known : ∀ i ∈ s.labels, i < s.tasks.length
  last : ∀ i, s.holder = some i → i ∈ s.labels → s.labels.getLast? = some i

namespace Guarded

theorem start : Guarded (State.start : State β) where
  exclusive i task rest h := by cases h
  held i h := by cases h
  silent i task h := by cases h
  known i h := by cases h
  last i h := by cases h

/-- The lock goes from one task to nobody. -/
theorem dropped (h : Guarded s) {rest : List β} (lookup : s.tasks[i]? = some task)
    (phase : task.phase = .writing rest) :
    Guarded { s with tasks := s.move i task .done, holder := none } where
  exclusive j task' rest' hj hwriting := by
    rcases State.of_lookup_move lookup hj with ⟨-, rfl⟩ | ⟨hne, hold⟩
    · cases hwriting
    · have hi := h.exclusive i task rest lookup phase
      have hj := h.exclusive j task' rest' hold hwriting
      exact absurd (Option.some.inj (hj.symm.trans hi)) hne
  held j hj := by cases hj
  silent j task' hj hwaiting := by
    rcases State.of_lookup_move lookup hj with ⟨-, rfl⟩ | ⟨-, hold⟩
    · cases hwaiting
    · exact h.silent j task' hold hwaiting
  known j hj := Nat.lt_of_lt_of_eq (h.known j hj) List.length_set.symm
  last j hj := by cases hj

/-- New tasks wait for the lock. -/
theorem spawned (h : Guarded s) (frames : List (List β)) :
    Guarded { s with tasks := s.tasks ++ frames.map (⟨·, .waiting⟩) } where
  exclusive i task rest hi hwriting := by
    rcases State.of_lookup_spawned hi with hold | ⟨-, hwaiting⟩
    · exact h.exclusive i task rest hold hwriting
    · cases hwaiting.symm.trans hwriting
  held i hi := by
    obtain ⟨task, rest, hold, hwriting⟩ := h.held i hi
    exact ⟨task, rest, State.lookup_spawned hold, hwriting⟩
  silent i task hi hwaiting hlabel := by
    rcases State.of_lookup_spawned hi with hold | ⟨hlength, -⟩
    · exact h.silent i task hold hwaiting hlabel
    · exact absurd (h.known i hlabel) (Nat.not_lt.mpr hlength)
  known i hi := by
    rw [List.length_append]
    exact Nat.lt_add_right _ (h.known i hi)
  last := h.last

/-- The lock goes from nobody to a task that has appended nothing. -/
theorem locked (h : Guarded s) (lookup : s.tasks[i]? = some task)
    (phase : task.phase = .waiting) (free : s.holder = none) :
    Guarded { s with tasks := s.move i task (.writing task.frame), holder := some i } where
  exclusive j task' rest hj hwriting := by
    rcases State.of_lookup_move lookup hj with ⟨rfl, -⟩ | ⟨-, hold⟩
    · rfl
    · cases free.symm.trans (h.exclusive j task' rest hold hwriting)
  held j hj := by
    cases hj
    exact ⟨_, task.frame, State.lookup_move_self lookup, rfl⟩
  silent j task' hj hwaiting := by
    rcases State.of_lookup_move lookup hj with ⟨-, rfl⟩ | ⟨-, hold⟩
    · cases hwaiting
    · exact h.silent j task' hold hwaiting
  known j hj := Nat.lt_of_lt_of_eq (h.known j hj) List.length_set.symm
  last j hj hlabel := by
    cases hj
    exact absurd hlabel (h.silent i task lookup phase)

/-- The lock stays with the task that appends. -/
theorem wrote (h : Guarded s) {b : β} {rest : List β} (lookup : s.tasks[i]? = some task)
    (phase : task.phase = .writing (b :: rest)) :
    Guarded { s with tasks := s.move i task (.writing rest), log := s.log ++ [(i, b)] } := by
  have hholder := h.exclusive i task _ lookup phase
  have hlabels := s.labels_wrote (s.move i task (.writing rest)) i b
  constructor
  · intro j task' rest' hj hwriting
    rcases State.of_lookup_move lookup hj with ⟨rfl, -⟩ | ⟨-, hold⟩
    · exact hholder
    · exact h.exclusive j task' rest' hold hwriting
  · intro j hj
    cases hholder.symm.trans hj
    exact ⟨_, rest, State.lookup_move_self lookup, rfl⟩
  · intro j task' hj hwaiting
    rw [hlabels]
    rcases State.of_lookup_move lookup hj with ⟨-, rfl⟩ | ⟨hne, hold⟩
    · cases hwaiting
    · intro hlabel
      rcases List.mem_append.mp hlabel with hbefore | hnew
      · exact h.silent j task' hold hwaiting hbefore
      · exact hne (List.mem_singleton.mp hnew)
  · intro j hj
    rw [hlabels] at hj
    refine Nat.lt_of_lt_of_eq ?_ List.length_set.symm
    rcases List.mem_append.mp hj with hbefore | hnew
    · exact h.known j hbefore
    · rw [List.mem_singleton.mp hnew]
      exact (List.getElem?_eq_some_iff.mp lookup).1
  · intro j hj _
    cases hholder.symm.trans hj
    rw [hlabels, List.getLast?_concat]

/-- **Every step keeps the lock.** -/
theorem step (h : Guarded s) (hstep : Step s label s') : Guarded s' := by
  cases hstep with
  | spawned frames => exact h.spawned frames
  | locked lookup phase free => exact h.locked lookup phase free
  | wrote lookup phase => exact h.wrote lookup phase
  | released lookup phase => exact h.dropped lookup phase

theorem failure (h : Guarded s) (hfailure : Failure s s') : Guarded s' := by
  cases hfailure with
  | failed lookup phase => exact h.dropped lookup phase

end Guarded

/-! ## Whole frames -/

/-- The log is the frames of the tasks that are done, each once, and what the task that has the
lock has appended so far. -/
structure Atomic (s : State β) (done : List Nat) (part : List (Nat × β)) : Prop where
  once : done.Nodup
  done_iff : ∀ i, i ∈ done ↔ ∃ task, s.tasks[i]? = some task ∧ task.phase = .done
  log : s.log = done.flatMap s.labelled ++ part
  free : s.holder = none → part = []
  current : ∀ (i : Nat) (task : Task β) (rest : List β), s.tasks[i]? = some task →
    task.phase = .writing rest →
    ∃ written, task.frame = written ++ rest ∧ part = written.map (i, ·)

theorem labelled_of_lookup (h : s.tasks[i]? = some task) :
    s.labelled i = task.frame.map (i, ·) := by
  rw [State.labelled, h]
  rfl

/-- The frames of the tasks that were there are the same in a later state. -/
theorem Atomic.log_congr {done : List Nat} {part : List (Nat × β)} (h : Atomic s done part)
    {tasks : List (Task β)} {holder : Option Nat} {log : List (Nat × β)}
    (hframes : ∀ (i : Nat) (task : Task β), s.tasks[i]? = some task →
      ∃ task' : Task β, tasks[i]? = some task' ∧ task'.frame = task.frame) :
    s.log = done.flatMap (State.labelled ⟨tasks, holder, log⟩) ++ part := by
  rw [h.log]
  congr 1
  refine List.flatMap_congr fun i hi => ?_
  obtain ⟨task, hlookup, -⟩ := (h.done_iff i).mp hi
  obtain ⟨task', hlookup', hframe⟩ := hframes i task hlookup
  rw [labelled_of_lookup hlookup, labelled_of_lookup (s := ⟨tasks, holder, log⟩) hlookup', hframe]

/-- A task that moves keeps its frame. -/
theorem frame_move (lookup : s.tasks[i]? = some task) (h : s.tasks[j]? = some task') :
    ∃ task'' : Task β, (s.move i task phase)[j]? = some task'' ∧ task''.frame = task'.frame := by
  rw [State.lookup_move lookup]
  by_cases hj : j = i
  · subst hj
    cases lookup.symm.trans h
    exact ⟨_, if_pos rfl, rfl⟩
  · rw [if_neg hj]
    exact ⟨task', h, rfl⟩

/-- Who is done after a task has moved on without being done. -/
theorem Atomic.done_move {done : List Nat} {part : List (Nat × β)} (h : Atomic s done part)
    (lookup : s.tasks[i]? = some task) (hbefore : task.phase ≠ .done) (hafter : phase ≠ .done) :
    j ∈ done ↔ ∃ task', (s.move i task phase)[j]? = some task' ∧ task'.phase = .done := by
  rw [h.done_iff, State.lookup_move lookup]
  by_cases hj : j = i
  · subst hj
    rw [lookup, if_pos rfl]
    constructor
    · rintro ⟨_, heq, hdone⟩
      cases heq
      exact absurd hdone hbefore
    · rintro ⟨_, heq, hdone⟩
      cases heq
      exact absurd hdone hafter
  · rw [if_neg hj]

namespace Atomic
variable {done : List Nat} {part : List (Nat × β)}

theorem start : Atomic (State.start : State β) [] [] where
  once := List.nodup_nil
  done_iff i := by
    refine ⟨fun h => absurd h List.not_mem_nil, ?_⟩
    rintro ⟨task, h, -⟩
    cases h
  log := rfl
  free _ := rfl
  current i task rest h := by cases h

/-- New tasks have appended nothing. -/
theorem spawned (h : Atomic s done part) (frames : List (List β)) :
    Atomic { s with tasks := s.tasks ++ frames.map (⟨·, .waiting⟩) } done part := by
  refine ⟨h.once, ?_, ?_, h.free, ?_⟩
  · intro i
    rw [h.done_iff]
    constructor
    · rintro ⟨task, hi, hdone⟩
      exact ⟨task, State.lookup_spawned hi, hdone⟩
    · rintro ⟨task, hi, hdone⟩
      rcases State.of_lookup_spawned hi with hold | ⟨-, hwaiting⟩
      · exact ⟨task, hold, hdone⟩
      · cases hwaiting.symm.trans hdone
  · exact h.log_congr fun i task hi => ⟨task, State.lookup_spawned hi, rfl⟩
  · intro i task rest hi hwriting
    rcases State.of_lookup_spawned hi with hold | ⟨-, hwaiting⟩
    · exact h.current i task rest hold hwriting
    · cases hwaiting.symm.trans hwriting

/-- A task begins with nothing. -/
theorem locked (h : Atomic s done part) (hguarded : Guarded s)
    (lookup : s.tasks[i]? = some task) (phase : task.phase = .waiting) (free : s.holder = none) :
    Atomic { s with tasks := s.move i task (.writing task.frame), holder := some i } done part := by
  have hpart := h.free free
  refine ⟨h.once, ?_, ?_, nofun, ?_⟩
  · exact fun j => h.done_move lookup (by rw [phase]; exact nofun) nofun
  · exact h.log_congr fun j task' => frame_move lookup
  · intro j task' rest hj hwriting
    rcases State.of_lookup_move lookup hj with ⟨rfl, rfl⟩ | ⟨-, hold⟩
    · cases hwriting
      exact ⟨[], rfl, hpart⟩
    · cases free.symm.trans (hguarded.exclusive j task' rest hold hwriting)

/-- The task that has the lock goes on with its frame. -/
theorem wrote (h : Atomic s done part) (hguarded : Guarded s) {b : β} {rest : List β}
    (lookup : s.tasks[i]? = some task) (phase : task.phase = .writing (b :: rest)) :
    Atomic { s with tasks := s.move i task (.writing rest), log := s.log ++ [(i, b)] } done
      (part ++ [(i, b)]) := by
  have hholder := hguarded.exclusive i task _ lookup phase
  obtain ⟨written, hframe, hpart⟩ := h.current i task _ lookup phase
  refine ⟨h.once, ?_, ?_, ?_, ?_⟩
  · exact fun j => h.done_move lookup (by rw [phase]; exact nofun) nofun
  · refine Eq.trans ?_ (List.append_assoc _ _ _)
    exact congrArg (· ++ [(i, b)]) (h.log_congr fun j task' => frame_move lookup)
  · intro hfree
    cases hholder.symm.trans hfree
  · intro j task' rest' hj hwriting
    rcases State.of_lookup_move lookup hj with ⟨rfl, rfl⟩ | ⟨hne, hold⟩
    · cases hwriting
      refine ⟨written ++ [b], ?_, ?_⟩
      · rw [List.append_assoc]
        exact hframe
      · rw [hpart, List.map_append]
        rfl
    · have hj := hguarded.exclusive j task' rest' hold hwriting
      exact absurd (Option.some.inj (hj.symm.trans hholder)) hne

/-- The task that has the lock is done with its frame, and what was a part is whole. -/
theorem released (h : Atomic s done part) (hguarded : Guarded s)
    (lookup : s.tasks[i]? = some task) (phase : task.phase = .writing []) :
    Atomic { s with tasks := s.move i task .done, holder := none } (done ++ [i]) [] := by
  have hholder := hguarded.exclusive i task _ lookup phase
  obtain ⟨written, hframe, hpart⟩ := h.current i task _ lookup phase
  rw [List.append_nil] at hframe
  have hnew : i ∉ done := by
    rw [h.done_iff]
    rintro ⟨task', hi, hdone⟩
    cases lookup.symm.trans hi
    cases phase.symm.trans hdone
  refine ⟨?_, ?_, ?_, fun _ => rfl, ?_⟩
  · refine List.nodup_append.mpr ⟨h.once, List.nodup_singleton i, ?_⟩
    rintro j hj _ hi rfl
    exact hnew (List.mem_singleton.mp hi ▸ hj)
  · intro j
    rw [List.mem_append, List.mem_singleton, h.done_iff, State.lookup_move lookup]
    by_cases hj : j = i
    · subst hj
      rw [if_pos rfl]
      exact iff_of_true (.inr rfl) ⟨_, rfl, rfl⟩
    · rw [if_neg hj]
      exact or_iff_left hj
  · have hlabelled : State.labelled { s with tasks := s.move i task .done, holder := none } i =
        part := by
      rw [labelled_of_lookup (State.lookup_move_self lookup), hpart, hframe]
    rw [List.flatMap_append, List.flatMap_singleton, hlabelled, List.append_nil]
    exact h.log_congr fun j task' => frame_move lookup
  · intro j task' rest' hj hwriting
    rcases State.of_lookup_move lookup hj with ⟨-, rfl⟩ | ⟨hne, hold⟩
    · cases hwriting
    · have hj := hguarded.exclusive j task' rest' hold hwriting
      exact absurd (Option.some.inj (hj.symm.trans hholder)) hne

/-- **Every step keeps the frames whole**, if no task fails. -/
theorem step (h : Atomic s done part) (hguarded : Guarded s) (hstep : Step s label s') :
    ∃ done part, Atomic s' done part := by
  cases hstep with
  | spawned frames => exact ⟨done, part, h.spawned frames⟩
  | locked lookup phase free => exact ⟨done, part, h.locked hguarded lookup phase free⟩
  | wrote lookup phase => exact ⟨done, _, h.wrote hguarded lookup phase⟩
  | released lookup phase => exact ⟨_, [], h.released hguarded lookup phase⟩

end Atomic

/-! ## The order of the locks -/

/-- The tasks that have taken the lock, in the order in which they did. -/
def State.begun (s : State β) (done : List Nat) : List Nat := done ++ s.holder.toList

/-- The task that takes the lock between two states, if one does. -/
def taken (s s' : State β) : List Nat := if s.holder = none then s'.holder.toList else []

/-- A task that has the lock after a step had it before, or found it free. -/
theorem Step.holder (hstep : Step s label s') (h : s'.holder = some i) :
    s.holder = some i ∨ s.holder = none := by
  cases hstep with
  | spawned | wrote => exact .inl h
  | locked _ _ free => exact .inr free
  | released => cases h

theorem Failure.holder (hfailure : Failure s s') : s'.holder = none := by
  cases hfailure
  rfl

/-- The log grows by an item of the task on the label. -/
theorem Step.labels (hstep : Step s label s') : s'.labels = s.labels ++ label.toList := by
  cases hstep with
  | spawned | locked | released => exact (List.append_nil _).symm
  | wrote => exact s.labels_wrote _ _ _

theorem Failure.labels (hfailure : Failure s s') : s'.labels = s.labels := by
  cases hfailure
  rfl

/-- **Every step keeps the order of the locks**: a task comes after those before it, and has its
place when it takes the lock. -/
theorem Atomic.step_begun {done : List Nat} {part : List (Nat × β)} (h : Atomic s done part)
    (hguarded : Guarded s) (hstep : Step s label s') :
    ∃ done' part', Atomic s' done' part' ∧ s'.begun done' = s.begun done ++ taken s s' := by
  have hkept : ∀ {tasks log}, State.begun ⟨tasks, s.holder, log⟩ done =
      s.begun done ++ taken s ⟨tasks, s.holder, log⟩ := by
    intro tasks log
    simp only [State.begun, taken]
    split
    · rename_i hfree
      rw [hfree, Option.toList_none, List.append_nil, List.append_nil]
    · rw [List.append_nil]
  cases hstep with
  | spawned frames => exact ⟨done, part, h.spawned frames, hkept⟩
  | locked lookup phase free =>
    refine ⟨done, part, h.locked hguarded lookup phase free, ?_⟩
    simp only [State.begun, taken, free, if_pos, Option.toList_none, List.append_nil]
  | wrote lookup phase => exact ⟨done, _, h.wrote hguarded lookup phase, hkept⟩
  | released lookup phase =>
    refine ⟨_, [], h.released hguarded lookup phase, ?_⟩
    have hholder := hguarded.exclusive _ _ _ lookup phase
    simp only [State.begun, taken, hholder, reduceCtorEq, if_false, Option.toList_none,
      Option.toList_some, List.append_nil]

/-! ## The order of the frames -/

/-- What earlier tasks have appended stands before what later ones have. -/
def Ordered (s : State β) : Prop := s.labels.Pairwise (· ≤ ·)

/-- If task `i` has appended nothing yet, then no later task has. -/
def InTurn (s : State β) (i : Nat) : Prop := i ∉ s.labels → ∀ j ∈ s.labels, j < i

theorem Ordered.le_last (h : Ordered s) (hlast : s.labels.getLast? = some i) :
    ∀ j ∈ s.labels, j ≤ i := by
  obtain ⟨before, hlabels⟩ := List.getLast?_eq_some_iff.mp hlast
  rw [Ordered, hlabels, List.pairwise_append] at h
  intro j hj
  rw [hlabels] at hj
  rcases List.mem_append.mp hj with hbefore | hself
  · exact h.2.2 j hbefore i (List.mem_singleton_self i)
  · exact Nat.le_of_eq (List.mem_singleton.mp hself)

/-- **What keeps the order**: each task begins before any later one does. -/
theorem Step.ordered_iff (hstep : Step s label s') (hguarded : Guarded s) :
    Ordered s' ↔ Ordered s ∧ ∀ i, label = some i → InTurn s i := by
  cases hstep with
  | spawned | locked | released => exact (and_iff_left nofun).symm
  | @wrote i task b rest lookup phase =>
    have hholder := hguarded.exclusive i task _ lookup phase
    have hlabels := s.labels_wrote (s.move i task (.writing rest)) i b
    rw [Ordered, hlabels, List.pairwise_append]
    constructor
    · rintro ⟨hordered, -, hle⟩
      refine ⟨hordered, fun j hj hnew k hk => ?_⟩
      cases hj
      have hki := hle k hk i (List.mem_singleton_self i)
      exact Nat.lt_of_le_of_ne hki fun heq => hnew (heq ▸ hk)
    · rintro ⟨hordered, hturn⟩
      refine ⟨hordered, List.pairwise_singleton _ _, fun k hk j hj => ?_⟩
      rw [List.mem_singleton.mp hj]
      by_cases hbegun : i ∈ s.labels
      · exact hordered.le_last (hguarded.last i hholder hbegun) k hk
      · exact Nat.le_of_lt (hturn i rfl hbegun k hk)

theorem Failure.ordered_iff (hfailure : Failure s s') : Ordered s' ↔ Ordered s := by
  cases hfailure with
  | failed => exact Iff.rfl

end Appenders
