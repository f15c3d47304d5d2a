import Inator.Lib.Machine

/-! # Simulations

A machine is explained by another one when each of its steps, from a state that is related to a
state of the other, is a run of the other to a related state in which the same is seen. Then the
same is seen of whole runs (`Simulation.run`). A machine that is composed of others is explained
by each of them, step by step: its runs project to theirs (`Run.project`). -/

namespace Machine
variable {σ ι ο σ' ι' ο' ω : Type*} {M : Machine σ ι ο} {N : Machine σ' ι' ο'} {s₀ s : σ} {u₀ : σ'}
  {ts : List (Transition σ ι ο)}

/-- Each step of `M` that meets `C`, in a run whose steps all do, is a run of `N` in which the
same is seen. -/
structure Simulation (M : Machine σ ι ο) (s₀ : σ) (N : Machine σ' ι' ο')
    (C : Transition σ ι ο → Prop) (R : σ → σ' → Prop) (see : Transition σ ι ο → List ω)
    (see' : Transition σ' ι' ο' → List ω) : Prop where
  step : ∀ (ts : List (Transition σ ι ο)) (t : Transition σ ι ο) (u : σ'), Run M s₀ ts t.pre →
    t.Of M → (∀ t' ∈ ts, C t') → C t → R t.pre u →
      ∃ us u', Run N u us u' ∧ us.flatMap see' = see t ∧ R t.post u'

/-- **What is seen of a run** is seen of a run of the machine that explains it. -/
theorem Simulation.run {C : Transition σ ι ο → Prop} {R : σ → σ' → Prop}
    {see : Transition σ ι ο → List ω} {see' : Transition σ' ι' ο' → List ω}
    (sim : Simulation M s₀ N C R see see') (start : R s₀ u₀) (h : Run M s₀ ts s)
    (hall : ∀ t ∈ ts, C t) :
    ∃ us u, Run N u₀ us u ∧ us.flatMap see' = ts.flatMap see ∧ R s u := by
  refine h.history (fun ts s => (∀ t ∈ ts, C t) →
    ∃ us u, Run N u₀ us u ∧ us.flatMap see' = ts.flatMap see ∧ R s u)
      (fun _ => ⟨[], u₀, .nil, rfl, start⟩) ?_ hall
  intro ts t hrun ih hof hall
  obtain ⟨hbefore, ht⟩ := List.forall_mem_append.mp hall
  obtain ⟨us, u, hus, hsee, hrel⟩ := ih hbefore
  obtain ⟨us', u', hus', hsee', hrel'⟩ :=
    sim.step ts t u hrun hof hbefore (List.forall_mem_singleton.mp ht) hrel
  refine ⟨us ++ us', u', hus.append hus', ?_, hrel'⟩
  rw [List.flatMap_append, List.flatMap_append, hsee, hsee', List.flatMap_singleton]

/-! ## Components -/

/-- The step that a component takes in a step of the whole, if it takes one. -/
def Transition.part (view : σ → σ') (label : Transition σ ι ο → Option (ι' × ο'))
    (t : Transition σ ι ο) : Option (Transition σ' ι' ο') :=
  (label t).map fun l => ⟨view t.pre, l.1, l.2, view t.post⟩

/-- **The runs of a component.** If each step of the whole is a step of the component or leaves
it alone, then the component's part in a run of the whole is a run of its own. -/
theorem Run.project (view : σ → σ') (label : Transition σ ι ο → Option (ι' × ο'))
    (idle : ∀ t : Transition σ ι ο, t.Of M → label t = none → view t.post = view t.pre)
    (moves : ∀ t : Transition σ ι ο, t.Of M → ∀ l, label t = some l →
      N.step (view t.pre) l.1 = some (view t.post, l.2))
    (h : Run M s₀ ts s) :
    Run N (view s₀) (ts.filterMap (Transition.part view label)) (view s) := by
  refine h.history
    (fun ts s => Run N (view s₀) (ts.filterMap (Transition.part view label)) (view s)) .nil ?_
  intro ts t _ ih hof
  rw [List.filterMap_append, List.filterMap_cons, List.filterMap_nil, Transition.part]
  cases hlabel : label t with
  | none =>
    rw [Option.map_none, List.append_nil, idle t hof hlabel]
    exact ih
  | some l =>
    rw [Option.map_some]
    exact .snoc ih (moves t hof l hlabel)

/-- Each transition of a run is a step. -/
theorem Run.forall_of (h : Run M s₀ ts s) : ∀ t ∈ ts, t.Of M := by
  intro t ht
  obtain ⟨before, after, rfl⟩ := List.append_of_mem ht
  exact (h.of_split rfl).2

/-- What a component shows in its part of a run. -/
theorem flatMap_part {view : σ → σ'} {label : Transition σ ι ο → Option (ι' × ο')}
    {f : Transition σ' ι' ο' → List ω} {g : Transition σ ι ο → List ω}
    (idle : ∀ t ∈ ts, label t = none → g t = [])
    (moves : ∀ t ∈ ts, ∀ l, label t = some l → g t = f ⟨view t.pre, l.1, l.2, view t.post⟩) :
    (ts.filterMap (Transition.part view label)).flatMap f = ts.flatMap g := by
  induction ts with
  | nil => rfl
  | cons t ts ih =>
    obtain ⟨hidle, hidles⟩ := List.forall_mem_cons.mp idle
    obtain ⟨hmove, hmoves⟩ := List.forall_mem_cons.mp moves
    rw [List.filterMap_cons, List.flatMap_cons, Transition.part, ← ih hidles hmoves]
    cases hlabel : label t with
    | none => rw [hidle hlabel]; rfl
    | some l => rw [hmove l hlabel]; rfl

end Machine
