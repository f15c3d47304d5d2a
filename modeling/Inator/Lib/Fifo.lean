import Mathlib.Data.List.Forall2
import Inator.Lib.Machine

/-! # Queues

The least that a link between two parties promises: what is written at one end is read at the
other, in order and once. The state is what is still to be read. A machine that keeps such a queue
in its state, and may lose some of it, takes from it no more than came (`Run.took_sublist`). -/

namespace Fifo
variable {α : Type*}

inductive Input (α : Type*)
  | write (a : α)
  | read

/-- What is seen of a step. -/
inductive Event (α : Type*)
  | wrote (a : α)
  | got (a : α)
  deriving DecidableEq

def step (queue : List α) : Input α → Option (List α × Event α)
  | .write a => some (queue ++ [a], .wrote a)
  | .read =>
    match queue with
    | [] => none
    | a :: rest => some (rest, .got a)

def machine (α : Type*) : Machine (List α) (Input α) (Event α) where
  step := step

/-- A step of a queue, with the states on both sides. -/
abbrev Transition (α : Type*) := Machine.Transition (List α) (Input α) (Event α)

def Event.written : Event α → Option α
  | .wrote a => some a
  | .got _ => none

def Event.read : Event α → Option α
  | .wrote _ => none
  | .got a => some a

/-- What is seen of a step of a queue. -/
def see (t : Transition α) : List (Event α) := [t.output]

theorem step_cases {queue queue' : List α} {input : Input α} {event : Event α}
    (h : step queue input = some (queue', event)) :
    (∃ a, event = .wrote a ∧ queue' = queue ++ [a]) ∨
      ∃ a, event = .got a ∧ queue = a :: queue' := by
  cases input with
  | write a =>
    cases h
    exact .inl ⟨a, rfl, rfl⟩
  | read =>
    cases queue with
    | nil => cases h
    | cons a rest =>
      cases h
      exact .inr ⟨a, rfl, rfl⟩

/-- **Nothing is lost, repeated or overtaken**: what was written is what was read and what is
still to be read. -/
theorem conserves {ts : List (Transition α)} {queue : List α}
    (h : (machine α).Run [] ts queue) :
    (ts.flatMap see).filterMap Event.written =
      (ts.flatMap see).filterMap Event.read ++ queue := by
  refine h.history (fun ts queue => (ts.flatMap see).filterMap Event.written =
    (ts.flatMap see).filterMap Event.read ++ queue) rfl ?_
  intro ts t _ ih hof
  simp only [List.flatMap_append, List.flatMap_singleton, List.filterMap_append, see, ih]
  rcases step_cases hof with ⟨a, hevent, hpost⟩ | ⟨a, hevent, hpre⟩
  · simp [hevent, hpost, Event.written, Event.read]
  · simp [hevent, hpre, Event.written, Event.read]

/-! ## Many at once -/

theorem run_writes (queue : List α) (xs : List α) :
    ∃ us, (machine α).Run queue us (queue ++ xs) ∧ us.flatMap see = xs.map .wrote := by
  induction xs generalizing queue with
  | nil => exact ⟨[], by rw [List.append_nil]; exact .nil, rfl⟩
  | cons x xs ih =>
    obtain ⟨us, hrun, hsee⟩ := ih (queue ++ [x])
    rw [List.append_assoc] at hrun
    have hwrite : (machine α).step queue (.write x) = some (queue ++ [x], .wrote x) := rfl
    refine ⟨_, (Machine.Run.single hwrite).append hrun, ?_⟩
    rw [List.flatMap_append, hsee]
    rfl

theorem run_reads (xs : List α) (queue : List α) :
    ∃ us, (machine α).Run (xs ++ queue) us queue ∧ us.flatMap see = xs.map .got := by
  induction xs with
  | nil => exact ⟨[], .nil, rfl⟩
  | cons x xs ih =>
    obtain ⟨us, hrun, hsee⟩ := ih
    have hread : (machine α).step (x :: (xs ++ queue)) .read = some (xs ++ queue, .got x) := rfl
    refine ⟨_, (Machine.Run.single hread).append hrun, ?_⟩
    rw [List.flatMap_append, hsee]
    rfl

/-- A queue that is written to, and then read from. -/
theorem run_both {queue queue' : List α} {xs ys : List α} (h : queue ++ xs = ys ++ queue') :
    ∃ us, (machine α).Run queue us queue' ∧
      us.flatMap see = xs.map .wrote ++ ys.map .got := by
  obtain ⟨us, hwrites, hsee⟩ := run_writes queue xs
  obtain ⟨us', hreads, hsee'⟩ := run_reads ys queue'
  rw [← h] at hreads
  refine ⟨us ++ us', hwrites.append hreads, ?_⟩
  rw [List.flatMap_append, hsee, hsee']

/-- What was seen of a queue that was written to, and then read from. -/
theorem filterMap_both (xs ys : List α) :
    (xs.map Event.wrote ++ ys.map Event.got).filterMap Event.written = xs ∧
      (xs.map Event.wrote ++ ys.map Event.got).filterMap Event.read = ys := by
  have hwrote : ∀ zs : List α, (zs.map Event.wrote).filterMap Event.written = zs ∧
      (zs.map Event.wrote).filterMap Event.read = [] := by
    intro zs
    induction zs with
    | nil => exact ⟨rfl, rfl⟩
    | cons z zs ih => exact ⟨congrArg (z :: ·) ih.1, ih.2⟩
  have hgot : ∀ zs : List α, (zs.map Event.got).filterMap Event.written = [] ∧
      (zs.map Event.got).filterMap Event.read = zs := by
    intro zs
    induction zs with
    | nil => exact ⟨rfl, rfl⟩
    | cons z zs ih => exact ⟨ih.1, congrArg (z :: ·) ih.2⟩
  constructor
  · rw [List.filterMap_append, (hwrote xs).1, (hgot ys).1, List.append_nil]
  · rw [List.filterMap_append, (hwrote xs).2, (hgot ys).2, List.nil_append]

/-! ## What is made of the messages -/

/-- What a list gives, where each item gives one thing at most, it gives for some of its items, in
order and once each. -/
theorem exists_images {β : Type*} (f : α → Option β) (xs : List α) :
    ∃ ys, ys.Sublist xs ∧
      List.Forall₂ (fun x y => x ∈ xs ∧ f x = some y) ys (xs.filterMap f) := by
  induction xs with
  | nil => exact ⟨[], .slnil, .nil⟩
  | cons x xs ih =>
    obtain ⟨ys, hsublist, himages⟩ := ih
    have himages : List.Forall₂ (fun x' y => x' ∈ x :: xs ∧ f x' = some y) ys (xs.filterMap f) :=
      himages.imp fun _ _ h => ⟨List.mem_cons_of_mem _ h.1, h.2⟩
    cases hx : f x with
    | none =>
      refine ⟨ys, hsublist.cons x, ?_⟩
      rwa [List.filterMap_cons_none hx]
    | some y =>
      refine ⟨x :: ys, hsublist.cons_cons x, ?_⟩
      rw [List.filterMap_cons_some hx]
      exact .cons ⟨List.mem_cons_self, hx⟩ himages

theorem exists_images_flatMap {β γ : Type*} {r : α → β → Prop} {f : γ → List α} {g : γ → List β}
    {us : List γ} (step : ∀ u ∈ us, ∃ xs, xs.Sublist (f u) ∧ List.Forall₂ r xs (g u)) :
    ∃ xs, xs.Sublist (us.flatMap f) ∧ List.Forall₂ r xs (us.flatMap g) := by
  induction us with
  | nil => exact ⟨[], .slnil, .nil⟩
  | cons u us ih =>
    obtain ⟨hfirst, hrest⟩ := List.forall_mem_cons.mp step
    obtain ⟨xs, hsublist, himages⟩ := hfirst
    obtain ⟨xs', hsublist', himages'⟩ := ih hrest
    exact ⟨xs ++ xs', hsublist.append hsublist', List.rel_append himages himages'⟩

end Fifo

namespace Machine.Run
variable {α σ ι ο : Type*} {M : Machine σ ι ο} {s₀ s : σ} {ts : List (Transition σ ι ο)}
  (waiting : σ → List α) (came took : Transition σ ι ο → List α)

/-- If no step takes or leaves anything that neither waited nor came, then what was taken in a run,
and what waits after it, came in that order. -/
theorem took_sublist (h : M.Run s₀ ts s)
    (step : ∀ t ∈ ts, (took t ++ waiting t.post).Sublist (waiting t.pre ++ came t)) :
    (ts.flatMap took ++ waiting s).Sublist (waiting s₀ ++ ts.flatMap came) := by
  refine h.history (fun ts s =>
    (∀ t ∈ ts, (took t ++ waiting t.post).Sublist (waiting t.pre ++ came t)) →
      (ts.flatMap took ++ waiting s).Sublist (waiting s₀ ++ ts.flatMap came)) ?_ ?_ step
  · intro _
    rw [List.flatMap_nil, List.flatMap_nil, List.append_nil]
    exact List.Sublist.refl _
  · intro ts t _ ih _ hsteps
    obtain ⟨hbefore, hlast⟩ := List.forall_mem_append.mp hsteps
    simp only [List.flatMap_append, List.flatMap_singleton]
    have hfirst : (ts.flatMap took ++ (took t ++ waiting t.post)).Sublist
        (ts.flatMap took ++ (waiting t.pre ++ came t)) :=
      (List.forall_mem_singleton.mp hlast).append_left _
    have hrest : (ts.flatMap took ++ waiting t.pre ++ came t).Sublist
        (waiting s₀ ++ ts.flatMap came ++ came t) := (ih hbefore).append_right _
    rw [List.append_assoc] at hrest
    rw [List.append_assoc, ← List.append_assoc (waiting s₀)]
    exact hfirst.trans hrest

/-- If no step loses anything either, that is all that came. -/
theorem took_eq (h : M.Run s₀ ts s)
    (step : ∀ t ∈ ts, took t ++ waiting t.post = waiting t.pre ++ came t) :
    ts.flatMap took ++ waiting s = waiting s₀ ++ ts.flatMap came := by
  refine h.history (fun ts s => (∀ t ∈ ts, took t ++ waiting t.post = waiting t.pre ++ came t) →
    ts.flatMap took ++ waiting s = waiting s₀ ++ ts.flatMap came) ?_ ?_ step
  · intro _
    rw [List.flatMap_nil, List.flatMap_nil, List.append_nil, List.nil_append]
  · intro ts t _ ih _ hsteps
    obtain ⟨hbefore, hlast⟩ := List.forall_mem_append.mp hsteps
    rw [List.flatMap_append, List.flatMap_append, List.flatMap_singleton, List.flatMap_singleton,
      List.append_assoc, List.forall_mem_singleton.mp hlast, ← List.append_assoc, ih hbefore,
      List.append_assoc]

end Machine.Run
