import Mathlib.Data.List.Basic

/-! # Machines, their runs, and the induction rules of runs

A machine is a partial step function in which every choice of the environment is part of the
input. A run is the list of its transitions, oldest first, so a property of a whole run is a
property of that list. `Run.history` proves an invariant of the state together with the
transitions that led to it; `Run.trace_iff` proves that a run has a property exactly when each
of its transitions meets a condition, `Run.forall_iff` does so for a property of the
transitions, and `Run.throughout_iff` for one of the transitions and what came before them. -/

/-- A partial machine with states `σ`, inputs `ι` and outputs `ο`. -/
structure Machine (σ ι ο : Type*) where
  step : σ → ι → Option (σ × ο)

namespace Machine
variable {σ ι ο : Type*}

/-- One step of a run, with the states on both sides. -/
structure Transition (σ ι ο : Type*) where
  pre : σ
  input : ι
  output : ο
  post : σ

/-- The transition is a step of the machine. -/
def Transition.Of (M : Machine σ ι ο) (t : Transition σ ι ο) : Prop :=
  M.step t.pre t.input = some (t.post, t.output)

/-- `Run M s₀ ts s`: the transitions `ts` lead from `s₀` to `s`. -/
inductive Run (M : Machine σ ι ο) (s₀ : σ) : List (Transition σ ι ο) → σ → Prop
  | nil : Run M s₀ [] s₀
  | snoc : Run M s₀ ts s → M.step s i = some (s', o) → Run M s₀ (ts ++ [⟨s, i, o, s'⟩]) s'

/-- Run the machine on a list of inputs. -/
def exec (M : Machine σ ι ο) : σ → List ι → Option (List (Transition σ ι ο) × σ)
  | s, [] => some ([], s)
  | s, i :: is =>
    match M.step s i with
    | none => none
    | some (s', o) => (exec M s' is).map fun r => (⟨s, i, o, s'⟩ :: r.1, r.2)

variable {M : Machine σ ι ο} {s₀ s s' : σ} {ts us : List (Transition σ ι ο)}
  {t : Transition σ ι ο}

namespace Run

theorem single (h : M.step s i = some (s', o)) : Run M s [⟨s, i, o, s'⟩] s' :=
  .snoc .nil h

theorem append (h₁ : Run M s₀ ts s) (h₂ : Run M s us s') : Run M s₀ (ts ++ us) s' := by
  induction h₂ with
  | nil => simpa using h₁
  | snoc _ hstep ih =>
    rw [← List.append_assoc]
    exact .snoc ih hstep

theorem of_exec : ∀ {is : List ι} {s : σ}, M.exec s is = some (ts, s') → Run M s ts s' := by
  intro is
  induction is generalizing ts s' with
  | nil =>
    intro s h
    cases h
    exact .nil
  | cons i is ih =>
    intro s h
    simp only [exec] at h
    split at h
    · cases h
    · rename_i m o hstep
      obtain ⟨⟨us, u⟩, hr, hu⟩ := Option.map_eq_some_iff.mp h
      cases hu
      exact (Run.single hstep).append (ih hr)

/-- The transitions before one of a run lead to the state it is taken from. -/
theorem of_split (h : Run M s₀ us s) :
    ∀ {before after}, us = before ++ t :: after → Run M s₀ before t.pre ∧ t.Of M := by
  induction h with
  | nil =>
    intro before after h
    cases before <;> cases h
  | @snoc ts s i s' o hrun hstep ih =>
    intro before after h
    rcases List.eq_nil_or_concat' after with rfl | ⟨after, last, rfl⟩
    · obtain ⟨rfl, hlast⟩ := List.append_inj' h rfl
      cases hlast
      exact ⟨hrun, hstep⟩
    · rw [← List.cons_append, ← List.append_assoc] at h
      exact ih (List.append_inj' h rfl).1

/-- **The history rule.** A property of the state and of the transitions so far that holds at
the start and is kept by each step holds after every run. -/
theorem history (I : List (Transition σ ι ο) → σ → Prop) (start : I [] s₀)
    (step : ∀ ts t, Run M s₀ ts t.pre → I ts t.pre → t.Of M → I (ts ++ [t]) t.post)
    (h : Run M s₀ ts s) : I ts s := by
  induction h with
  | nil => exact start
  | @snoc ts s i s' o hrun hstep ih => exact step ts ⟨s, i, o, s'⟩ hrun ih hstep

/-- **The invariant rule.** -/
theorem invariant (I : σ → Prop) (start : I s₀)
    (step : ∀ t : Transition σ ι ο, I t.pre → t.Of M → I t.post)
    (h : Run M s₀ ts s) : I s :=
  h.history (fun _ s => I s) start fun _ t _ hI ht => step t hI ht

/-- **The condition rule for runs.** `P` is a property of a run that its beginnings inherit. As
long as the invariant `I` holds, a step that meets `C` keeps `P` and `I`, and a step that keeps
`P` meets `C`. Then a run has `P` exactly when each of its steps meets `C`. -/
theorem trace_iff (I : List (Transition σ ι ο) → σ → Prop)
    {P : List (Transition σ ι ο) → Prop} {C : Transition σ ι ο → Prop}
    (inherit : ∀ ts t, P (ts ++ [t]) → P ts) (start : P [] ∧ I [] s₀)
    (sound : ∀ ts t, Run M s₀ ts t.pre → I ts t.pre → t.Of M → P ts → C t →
      P (ts ++ [t]) ∧ I (ts ++ [t]) t.post)
    (exact : ∀ ts t, Run M s₀ ts t.pre → I ts t.pre → t.Of M → P (ts ++ [t]) → C t)
    (h : Run M s₀ ts s) : P ts ↔ ∀ t ∈ ts, C t := by
  have both : (P ts ↔ ∀ t ∈ ts, C t) ∧ ((∀ t ∈ ts, C t) → I ts s) := by
    refine h.history (fun ts s => (P ts ↔ ∀ t ∈ ts, C t) ∧ ((∀ t ∈ ts, C t) → I ts s))
      ⟨⟨nofun, fun _ => start.1⟩, fun _ => start.2⟩ ?_
    rintro ts t hrun ⟨hiff, hI⟩ hof
    simp only [List.forall_mem_append, List.forall_mem_singleton]
    refine ⟨⟨fun hP => ?_, fun ⟨hC, hCt⟩ => ?_⟩, fun ⟨hC, hCt⟩ => ?_⟩
    · have hC := hiff.mp (inherit ts t hP)
      exact ⟨hC, exact ts t hrun (hI hC) hof hP⟩
    · exact (sound ts t hrun (hI hC) hof (hiff.mpr hC) hCt).1
    · exact (sound ts t hrun (hI hC) hof (hiff.mpr hC) hCt).2
  exact both.1

/-- **The condition rule.** As long as the invariant `I` holds, a step that meets `C` satisfies
`P` and keeps `I`, and a step that satisfies `P` meets `C`. Then `P` holds at every step of a
run exactly when `C` does. -/
theorem forall_iff (I : List (Transition σ ι ο) → σ → Prop) {P C : Transition σ ι ο → Prop}
    (start : I [] s₀)
    (sound : ∀ ts t, Run M s₀ ts t.pre → I ts t.pre → t.Of M → C t → P t ∧ I (ts ++ [t]) t.post)
    (exact : ∀ ts t, Run M s₀ ts t.pre → I ts t.pre → t.Of M → P t → C t)
    (h : Run M s₀ ts s) : (∀ t ∈ ts, P t) ↔ ∀ t ∈ ts, C t := by
  have hsnoc : ∀ ts t, (∀ t' ∈ ts ++ [t], P t') ↔ (∀ t' ∈ ts, P t') ∧ P t := by
    intro ts t
    rw [List.forall_mem_append, List.forall_mem_singleton]
  refine h.trace_iff I (fun ts t hP => ((hsnoc ts t).mp hP).1) ⟨nofun, start⟩ ?_ ?_
  · intro ts t hrun hI hof hP hC
    obtain ⟨hPt, hI'⟩ := sound ts t hrun hI hof hC
    exact ⟨(hsnoc ts t).mpr ⟨hP, hPt⟩, hI'⟩
  · intro ts t hrun hI hof hP
    exact exact ts t hrun hI hof ((hsnoc ts t).mp hP).2

end Run

/-- `Q` holds of each transition, with those before it. -/
def Throughout (Q : List (Transition σ ι ο) → Transition σ ι ο → Prop)
    (ts : List (Transition σ ι ο)) : Prop :=
  ∀ before t after, ts = before ++ t :: after → Q before t

variable {Q : List (Transition σ ι ο) → Transition σ ι ο → Prop}

theorem throughout_nil : Throughout Q [] := by
  intro before t after h
  cases before <;> cases h

theorem throughout_snoc : Throughout Q (ts ++ [t]) ↔ Throughout Q ts ∧ Q ts t := by
  constructor
  · intro h
    refine ⟨fun before u after hu => h before u (after ++ [t]) ?_, h ts t [] rfl⟩
    rw [hu, List.append_assoc]
    rfl
  · intro h before u after hu
    obtain ⟨hinit, hlast⟩ := h
    rcases List.eq_nil_or_concat' after with rfl | ⟨after, last, rfl⟩
    · obtain ⟨rfl, heq⟩ := List.append_inj' hu rfl
      cases heq
      exact hlast
    · rw [← List.cons_append, ← List.append_assoc] at hu
      exact hinit before u after (List.append_inj' hu rfl).1

/-- **The condition rule with a history.** -/
theorem Run.throughout_iff (I : List (Transition σ ι ο) → σ → Prop)
    {P C : List (Transition σ ι ο) → Transition σ ι ο → Prop} (start : I [] s₀)
    (sound : ∀ ts t, Run M s₀ ts t.pre → I ts t.pre → t.Of M → C ts t →
      P ts t ∧ I (ts ++ [t]) t.post)
    (exact : ∀ ts t, Run M s₀ ts t.pre → I ts t.pre → t.Of M → P ts t → C ts t)
    (h : Run M s₀ ts s) : Throughout P ts ↔ Throughout C ts := by
  have both : (Throughout P ts ↔ Throughout C ts) ∧ (Throughout C ts → I ts s) := by
    refine h.history (fun ts s => (Throughout P ts ↔ Throughout C ts) ∧
      (Throughout C ts → I ts s)) ?_ ?_
    · exact ⟨iff_of_true throughout_nil throughout_nil, fun _ => start⟩
    · intro ts t hrun hbefore hof
      obtain ⟨hiff, hI⟩ := hbefore
      simp only [throughout_snoc]
      refine ⟨⟨fun hP => ?_, fun hC => ?_⟩, fun hC => ?_⟩
      · have hC := hiff.mp hP.1
        exact ⟨hC, exact ts t hrun (hI hC) hof hP.2⟩
      · exact ⟨hiff.mpr hC.1, (sound ts t hrun (hI hC.1) hof hC.2).1⟩
      · exact (sound ts t hrun (hI hC.1) hof hC.2).2
  exact both.1

end Machine
