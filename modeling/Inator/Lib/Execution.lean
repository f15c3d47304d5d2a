import Inator.Lib.Machine
import Mathlib.Data.Nat.Basic
import Mathlib.Order.Basic

/-! # Executions and fairness

An execution is a run without end. Each of its beginnings is a run (`Execution.run`), so its
invariants come from the rules of runs. That it comes to a goal is proved by a rank that the
inputs of a fair kind raise, and that stays bounded until the goal is reached
(`Execution.progress`). An execution is built from its inputs by `Execution.ofInputs`. -/

namespace Machine
variable {σ ι ο : Type*} {M : Machine σ ι ο} {s₀ : σ}

/-- A run without end. -/
structure Execution (M : Machine σ ι ο) (s₀ : σ) where
  state : ℕ → σ
  input : ℕ → ι
  output : ℕ → ο
  start : state 0 = s₀
  step : ∀ n, M.step (state n) (input n) = some (state (n + 1), output n)

namespace Execution
variable (e : Execution M s₀)

def transition (n : ℕ) : Transition σ ι ο := ⟨e.state n, e.input n, e.output n, e.state (n + 1)⟩

theorem transition_of (n : ℕ) : (e.transition n).Of M := e.step n

/-- The transitions before the time `n`. -/
def before : ℕ → List (Transition σ ι ο)
  | 0 => []
  | n + 1 => before n ++ [e.transition n]

@[simp] theorem before_succ (n : ℕ) : e.before (n + 1) = e.before n ++ [e.transition n] := rfl

/-- Each beginning of an execution is a run. -/
theorem run (n : ℕ) : Run M s₀ (e.before n) (e.state n) := by
  induction n with
  | zero =>
    rw [e.start]
    exact .nil
  | succ n ih => exact .snoc ih (e.step n)

theorem before_mono {m n : ℕ} (h : m ≤ n) : e.before m <+: e.before n := by
  induction n, h using Nat.le_induction with
  | base => exact List.prefix_rfl
  | succ n _ ih => exact ih.trans (List.prefix_append _ _)

/-- Inputs of the kind `p` come again and again. -/
def Fair (p : ι → Prop) : Prop := ∀ n, ∃ m, n ≤ m ∧ p (e.input m)

variable {e}

/-- **The rule of bounded progress.** As long as the goal has not been reached, the rank does not
fall, each input of a fair kind raises it, and it stays under a bound. Then the goal is reached. -/
theorem progress {p : ι → Prop} (fair : e.Fair p) {goal : ℕ → Prop} (rank : ℕ → ℕ) (bound : ℕ)
    {n : ℕ}
    (keeps : ∀ m, n ≤ m → ¬goal m → rank m ≤ rank (m + 1))
    (grows : ∀ m, n ≤ m → ¬goal m → p (e.input m) → rank m < rank (m + 1))
    (bounded : ∀ m, n ≤ m → ¬goal m → rank m < bound) : ∃ m, n ≤ m ∧ goal m := by
  by_contra hnever
  have hnot : ∀ m, n ≤ m → ¬goal m := fun m hm hgoal => hnever ⟨m, hm, hgoal⟩
  have hmono : ∀ m, n ≤ m → ∀ m', m ≤ m' → rank m ≤ rank m' := by
    intro m hm m' hle
    induction m', hle using Nat.le_induction with
    | base => exact le_rfl
    | succ m' hle ih =>
      have hm' := hm.trans hle
      exact ih.trans (keeps m' hm' (hnot m' hm'))
  have hunbounded : ∀ r, ∃ m, n ≤ m ∧ r ≤ rank m := by
    intro r
    induction r with
    | zero => exact ⟨n, le_rfl, Nat.zero_le _⟩
    | succ r ih =>
      obtain ⟨m, hm, hr⟩ := ih
      obtain ⟨m', hle, hp⟩ := fair m
      have hm' := hm.trans hle
      have hraised := grows m' hm' (hnot m' hm') hp
      have hrank := hmono m hm m' hle
      exact ⟨m' + 1, Nat.le_succ_of_le hm', by omega⟩
  obtain ⟨m, hm, hr⟩ := hunbounded bound
  exact absurd (bounded m hm (hnot m hm)) (Nat.not_lt.mpr hr)

end Execution

/-! ## The execution on given inputs -/

/-- The state after the first `n` inputs; an input that is not accepted changes nothing. -/
def stateAt (M : Machine σ ι ο) (s₀ : σ) (inputs : ℕ → ι) : ℕ → σ
  | 0 => s₀
  | n + 1 =>
    match M.step (stateAt M s₀ inputs n) (inputs n) with
    | some (s, _) => s
    | none => stateAt M s₀ inputs n

/-- Each input is accepted when it comes. -/
def Accepts (M : Machine σ ι ο) (s₀ : σ) (inputs : ℕ → ι) : Prop :=
  ∀ n, (M.step (M.stateAt s₀ inputs n) (inputs n)).isSome

def Execution.ofInputs (inputs : ℕ → ι) (h : Accepts M s₀ inputs) : Execution M s₀ where
  state := M.stateAt s₀ inputs
  input := inputs
  output n := ((M.step (M.stateAt s₀ inputs n) (inputs n)).get (h n)).2
  start := rfl
  step n := by
    obtain ⟨⟨s, o⟩, hstep⟩ := Option.isSome_iff_exists.mp (h n)
    simp only [stateAt, hstep, Option.get_some]

/-! ## An execution that comes to rest -/

theorem exec_snoc {is : List ι} {i : ι} {s s' : σ} {o : ο} {ts : List (Transition σ ι ο)}
    (h : M.exec s₀ is = some (ts, s)) (hstep : M.step s i = some (s', o)) :
    M.exec s₀ (is ++ [i]) = some (ts ++ [⟨s, i, o, s'⟩], s') := by
  induction is generalizing s₀ ts with
  | nil =>
    cases h
    simp only [List.nil_append, exec, hstep, Option.map_some]
  | cons j is ih =>
    simp only [exec] at h
    split at h
    · cases h
    · rename_i s₁ o₁ hfirst
      obtain ⟨⟨us, u⟩, hexec, heq⟩ := Option.map_eq_some_iff.mp h
      cases heq
      simp only [List.cons_append, exec, hfirst, ih hexec, Option.map_some]

/-- Each beginning of an execution is what its inputs lead to. -/
theorem Execution.exec_before (e : Execution M s₀) (n : ℕ) :
    M.exec s₀ ((List.range n).map e.input) = some (e.before n, e.state n) := by
  induction n with
  | zero =>
    rw [e.start]
    rfl
  | succ n ih =>
    rw [List.range_succ, List.map_append]
    exact exec_snoc ih (e.step n)

/-- The inputs `is`, and then those of `rest`. -/
def follow (is : List ι) (rest : ℕ → ι) (n : ℕ) : ι := is.getD n (rest (n - is.length))

theorem stateAt_succ {inputs : ℕ → ι} {s₁ : σ} {o : ο}
    (h : M.step s₀ (inputs 0) = some (s₁, o)) (n : ℕ) :
    M.stateAt s₀ inputs (n + 1) = M.stateAt s₁ (fun k => inputs (k + 1)) n := by
  induction n with
  | zero => simp only [stateAt, h]
  | succ n ih => rw [stateAt, ih, stateAt]

variable {is : List ι} {rest : ℕ → ι} {s : σ} {ts : List (Transition σ ι ο)}

theorem follow_cons (i : ι) (is : List ι) (rest : ℕ → ι) (n : ℕ) :
    follow (i :: is) rest (n + 1) = follow is rest n := by
  rw [follow, follow, List.getD_cons_succ, List.length_cons, Nat.add_sub_add_right]

/-- A machine that comes to rest stays there. -/
theorem stateAt_follow (h : M.exec s₀ is = some (ts, s))
    (hrest : ∀ k, ∃ o, M.step s (rest k) = some (s, o)) {n : ℕ} (hn : is.length ≤ n) :
    M.stateAt s₀ (follow is rest) n = s := by
  induction is generalizing s₀ ts n with
  | nil =>
    cases h
    clear hn
    induction n with
    | zero => rfl
    | succ n ih =>
      obtain ⟨o, hstep⟩ := hrest n
      simp only [stateAt, ih, show follow [] rest n = rest n from rfl, hstep]
  | cons i is ih =>
    simp only [exec] at h
    split at h
    · cases h
    · rename_i s₁ o₁ hfirst
      obtain ⟨⟨us, u⟩, hexec, heq⟩ := Option.map_eq_some_iff.mp h
      cases heq
      obtain ⟨n, rfl⟩ := Nat.exists_eq_succ_of_ne_zero (n := n) (by rintro rfl; cases hn)
      have hnext : M.step s₀ (follow (i :: is) rest 0) = some (s₁, o₁) := hfirst
      rw [stateAt_succ hnext]
      simp only [follow_cons]
      exact ih hexec (Nat.le_of_succ_le_succ hn)

theorem accepts_follow (h : M.exec s₀ is = some (ts, s))
    (hrest : ∀ k, ∃ o, M.step s (rest k) = some (s, o)) : M.Accepts s₀ (follow is rest) := by
  induction is generalizing s₀ ts with
  | nil =>
    intro n
    rw [stateAt_follow h hrest (Nat.zero_le n)]
    obtain ⟨o, hstep⟩ := hrest n
    rw [show follow [] rest n = rest n from rfl, hstep]
    rfl
  | cons i is ih =>
    simp only [exec] at h
    split at h
    · cases h
    · rename_i s₁ o₁ hfirst
      obtain ⟨⟨us, u⟩, hexec, heq⟩ := Option.map_eq_some_iff.mp h
      cases heq
      intro n
      cases n with
      | zero =>
        rw [show follow (i :: is) rest 0 = i from rfl, show M.stateAt s₀ _ 0 = s₀ from rfl, hfirst]
        rfl
      | succ n =>
        have hnext : M.step s₀ (follow (i :: is) rest 0) = some (s₁, o₁) := hfirst
        rw [stateAt_succ hnext]
        simp only [follow_cons]
        exact ih hexec n

/-- The execution that takes the inputs `is` and is at rest then. -/
def Execution.resting (h : M.exec s₀ is = some (ts, s))
    (hrest : ∀ k, ∃ o, M.step s (rest k) = some (s, o)) : Execution M s₀ :=
  .ofInputs (follow is rest) (accepts_follow h hrest)

namespace Execution
variable (h : M.exec s₀ is = some (ts, s)) (hrest : ∀ k, ∃ o, M.step s (rest k) = some (s, o))

theorem resting_state {n : ℕ} (hn : is.length ≤ n) : (resting h hrest).state n = s :=
  stateAt_follow h hrest hn

theorem resting_input {n : ℕ} (hn : is.length ≤ n) :
    (resting h hrest).input n = rest (n - is.length) := by
  change follow is rest n = _
  rw [follow, List.getD_eq_getElem?_getD, List.getElem?_eq_none_iff.mpr hn, Option.getD_none]

theorem resting_input_mem {n : ℕ} (hn : n < is.length) : (resting h hrest).input n ∈ is := by
  change follow is rest n ∈ is
  rw [follow, List.getD_eq_getElem?_getD, List.getElem?_eq_getElem hn, Option.getD_some]
  exact List.getElem_mem hn

theorem resting_before : (resting h hrest).before is.length = ts := by
  have hinputs : (List.range is.length).map (resting h hrest).input = is := by
    refine List.ext_getElem (by rw [List.length_map, List.length_range]) fun n hn hn' => ?_
    rw [List.getElem_map, List.getElem_range]
    change follow is rest n = _
    rw [follow, List.getD_eq_getElem?_getD, List.getElem?_eq_getElem hn', Option.getD_some]
  have hexec := (resting h hrest).exec_before is.length
  rw [hinputs, h] at hexec
  exact (Prod.mk.inj (Option.some.inj hexec)).1.symm

/-- A step of the execution is one of those that the inputs `is` lead to, or leads nowhere. -/
theorem resting_transition (n : ℕ) : (resting h hrest).transition n ∈ ts ∨
    is.length ≤ n ∧ ((resting h hrest).transition n).pre = s ∧
      ((resting h hrest).transition n).post = s := by
  by_cases hn : is.length ≤ n
  · exact .inr ⟨hn, resting_state h hrest hn, resting_state h hrest (Nat.le_succ_of_le hn)⟩
  · left
    have hbefore := (resting h hrest).before_mono (Nat.lt_of_not_le hn)
    rw [resting_before] at hbefore
    exact hbefore.subset (List.mem_append_right _ (List.mem_singleton_self _))

end Execution

end Machine
