import Inator.Lib.Execution
import Inator.Lib.Simulation
import Mathlib.Data.Set.Finite.Basic
import Mathlib.Order.Filter.AtTopBot.Basic
import Mathlib.Order.Filter.Finite

/-! # What an execution comes to

A property of the times of an execution is a predicate of the natural numbers. `LeadsTo P Q` says
that each time of `P` is followed by one of `Q`; it is proved from what one step preserves and
from the fairness of the step that helps (`ensures`, `ensures_strongly`), with a rank where many
such steps are needed (`descends`), and composed by `trans` and `or`. In an execution of a whole,
each of its components is on a course of its own (`Execution.part`). -/

namespace Temporal
open Filter
variable {P Q R can does : ℕ → Prop}

/-- Whenever `P` holds, `Q` holds then or later. -/
def LeadsTo (P Q : ℕ → Prop) : Prop := ∀ n, P n → ∃ m, n ≤ m ∧ Q m

/-- What can be done from some time on is done again and again. -/
def WeaklyFair (can does : ℕ → Prop) : Prop := (∀ᶠ n in atTop, can n) → ∃ᶠ n in atTop, does n

/-- What can be done again and again is done again and again. -/
def StronglyFair (can does : ℕ → Prop) : Prop := (∃ᶠ n in atTop, can n) → ∃ᶠ n in atTop, does n

/-- Nothing is asked of what cannot be done from some time on. -/
theorem StronglyFair.of_never (h : ∀ᶠ n in atTop, ¬can n) : StronglyFair can does :=
  fun hcan => absurd h hcan

theorem StronglyFair.weakly (h : StronglyFair can does) : WeaklyFair can does :=
  fun hcan => h hcan.frequently

namespace LeadsTo

theorem of_imp (h : ∀ n, P n → Q n) : LeadsTo P Q := fun n hP => ⟨n, le_rfl, h n hP⟩

theorem trans (h : LeadsTo P Q) (h' : LeadsTo Q R) : LeadsTo P R := by
  intro n hP
  obtain ⟨m, hm, hQ⟩ := h n hP
  obtain ⟨k, hk, hR⟩ := h' m hQ
  exact ⟨k, hm.trans hk, hR⟩

theorem or (h : LeadsTo P R) (h' : LeadsTo Q R) : LeadsTo (fun n => P n ∨ Q n) R := by
  rintro n (hP | hQ)
  · exact h n hP
  · exact h' n hQ

/-- What is led to again and again. -/
theorem frequently (h : LeadsTo P Q) (hP : ∃ᶠ n in atTop, P n) : ∃ᶠ n in atTop, Q n := by
  rw [frequently_atTop] at hP ⊢
  intro n
  obtain ⟨m, hm, hP⟩ := hP n
  obtain ⟨k, hk, hQ⟩ := h m hP
  exact ⟨k, hm.trans hk, hQ⟩

/-- What stays until a goal is reached still holds when something else has come. -/
theorem along {G : ℕ → Prop} (keeps : ∀ n, R n → G (n + 1) ∨ R (n + 1)) (h : LeadsTo P Q) :
    LeadsTo (fun n => R n ∧ P n) fun n => G n ∨ R n ∧ Q n := by
  rintro n ⟨hR, hP⟩
  obtain ⟨m, hm, hQ⟩ := h n hP
  have hstays : (∃ k, n ≤ k ∧ G k) ∨ R m := by
    clear hQ
    induction m, hm using Nat.le_induction with
    | base => exact .inr hR
    | succ m hm ih =>
      rcases ih with hgoal | hR
      · exact .inl hgoal
      · exact (keeps m hR).imp_left fun hG => ⟨m + 1, Nat.le_succ_of_le hm, hG⟩
  rcases hstays with ⟨k, hk, hG⟩ | hR
  · exact ⟨k, hk, .inl hG⟩
  · exact ⟨m, hm, .inr ⟨hR, hQ⟩⟩

/-- As long as `Q` does not come, `P` stays; and a step that brings `Q` is taken. -/
theorem of_step (keeps : ∀ n, P n → ¬Q n → Q (n + 1) ∨ P (n + 1))
    (helps : ∀ n, P n → ¬Q n → does n → Q (n + 1))
    (often : ∀ n, (∀ m, n ≤ m → P m ∧ ¬Q m) → ∃ m, n ≤ m ∧ does m) : LeadsTo P Q := by
  intro n hP
  by_contra hnever
  have hnot : ∀ m, n ≤ m → ¬Q m := fun m hm hQ => hnever ⟨m, hm, hQ⟩
  have hstays : ∀ m, n ≤ m → P m := by
    intro m hm
    induction m, hm using Nat.le_induction with
    | base => exact hP
    | succ m hm ih => exact (keeps m ih (hnot m hm)).resolve_left (hnot (m + 1) (by omega))
  obtain ⟨m, hm, hdoes⟩ := often n fun m hm => ⟨hstays m hm, hnot m hm⟩
  exact hnot (m + 1) (by omega) (helps m (hstays m hm) (hnot m hm) hdoes)

/-- **The rule of weak fairness.** -/
theorem ensures (fair : WeaklyFair can does) (able : ∀ n, P n → ¬Q n → can n)
    (keeps : ∀ n, P n → ¬Q n → Q (n + 1) ∨ P (n + 1))
    (helps : ∀ n, P n → ¬Q n → does n → Q (n + 1)) : LeadsTo P Q := by
  refine of_step keeps helps fun n hall => ?_
  have hcan : ∀ᶠ m in atTop, can m :=
    eventually_atTop.mpr ⟨n, fun m hm => able m (hall m hm).1 (hall m hm).2⟩
  exact frequently_atTop.mp (fair hcan) n

/-- **The rule of strong fairness.** -/
theorem ensures_strongly (fair : StronglyFair can does)
    (able : LeadsTo P fun n => Q n ∨ can n) (keeps : ∀ n, P n → ¬Q n → Q (n + 1) ∨ P (n + 1))
    (helps : ∀ n, P n → ¬Q n → does n → Q (n + 1)) : LeadsTo P Q := by
  refine of_step keeps helps fun n hall => ?_
  have hcan : ∃ᶠ m in atTop, can m := by
    refine frequently_atTop.mpr fun m => ?_
    obtain ⟨k, hk, hable⟩ := able (max n m) (hall _ (le_max_left n m)).1
    have hle : n ≤ k ∧ m ≤ k := max_le_iff.mp hk
    exact ⟨k, hle.2, hable.resolve_left (hall k hle.1).2⟩
  exact frequently_atTop.mp (fair hcan) n

/-- **The rule of ranks.** -/
theorem ranked (rank : ℕ → ℕ)
    (down : ∀ r, LeadsTo (fun n => P n ∧ rank n = r) fun n => Q n ∨ P n ∧ rank n < r) :
    LeadsTo P Q := by
  have hall : ∀ r n, P n → rank n = r → ∃ m, n ≤ m ∧ Q m := by
    intro r
    induction r using Nat.strong_induction_on with
    | _ r ih =>
      intro n hP hr
      obtain ⟨m, hm, hQ | ⟨hP', hlt⟩⟩ := down r n ⟨hP, hr⟩
      · exact ⟨m, hm, hQ⟩
      · obtain ⟨k, hk, hQ⟩ := ih (rank m) hlt m hP' rfl
        exact ⟨k, hm.trans hk, hQ⟩
  exact fun n hP => hall (rank n) n hP rfl

/-- **Weak fairness, with a rank** that no step raises and each step of the kind lowers. -/
theorem descends (rank : ℕ → ℕ) (fair : WeaklyFair can does) (able : ∀ n, P n → ¬Q n → can n)
    (keeps : ∀ n, P n → ¬Q n → Q (n + 1) ∨ P (n + 1) ∧ rank (n + 1) ≤ rank n)
    (helps : ∀ n, P n → ¬Q n → does n → Q (n + 1) ∨ P (n + 1) ∧ rank (n + 1) < rank n) :
    LeadsTo P Q := by
  refine ranked rank fun r => ensures fair (fun n hP hQ => ?_) (fun n hP hQ => ?_)
    fun n hP hQ hdoes => ?_
  · exact able n hP.1 fun hgoal => hQ (.inl hgoal)
  · obtain ⟨hP, rfl⟩ := hP
    rcases keeps n hP fun hgoal => hQ (.inl hgoal) with hgoal | ⟨hP', hle⟩
    · exact .inl (.inl hgoal)
    · rcases hle.lt_or_eq with hlt | heq
      · exact .inl (.inr ⟨hP', hlt⟩)
      · exact .inr ⟨hP', heq⟩
  · obtain ⟨hP, rfl⟩ := hP
    exact helps n hP (fun hgoal => hQ (.inl hgoal)) hdoes

end LeadsTo

/-- Finitely many things that each come to stay come to stay together. -/
theorem all_come {P : ℕ → ℕ → Prop} {k : ℕ} (stays : ∀ i, Monotone (P i))
    (comes : ∀ i < k, ∃ n, P i n) (n : ℕ) : ∃ m, n ≤ m ∧ ∀ i < k, P i m := by
  have hall : ∀ᶠ m in atTop, ∀ i ∈ {i | i < k}, P i m := by
    refine (eventually_all_finite (Set.finite_lt_nat k)).mpr fun i hi => ?_
    obtain ⟨m, hm⟩ := comes i hi
    exact eventually_atTop.mpr ⟨m, fun m' hle => stays i hle hm⟩
  obtain ⟨m, hcame, hm⟩ := (hall.and (eventually_ge_atTop n)).exists
  exact ⟨m, hm, hcame⟩

end Temporal

/-! ## The course of a component -/

namespace Machine
variable {σ ι ο σ' ι' ο' : Type*} {M : Machine σ ι ο} {N : Machine σ' ι' ο'} {s₀ : σ} {u₀ : σ'}

/-- What a component goes through in an execution of a whole: at each time it takes a step or is
left alone. -/
structure Course (N : Machine σ' ι' ο') (u₀ : σ') where
  state : ℕ → σ'
  label : ℕ → Option (ι' × ο')
  start : state 0 = u₀
  idle : ∀ n, label n = none → state (n + 1) = state n
  moves : ∀ n l, label n = some l → N.step (state n) l.1 = some (state (n + 1), l.2)

namespace Course
variable (c : Course N u₀)

/-- The input that the component takes, if it takes one. -/
def input (n : ℕ) : Option ι' := (c.label n).map Prod.fst

/-- The transitions of the component before the time `n`. -/
def before : ℕ → List (Transition σ' ι' ο')
  | 0 => []
  | n + 1 => before n ++ ((c.label n).map fun l => ⟨c.state n, l.1, l.2, c.state (n + 1)⟩).toList

@[simp] theorem before_succ (n : ℕ) : c.before (n + 1) = c.before n ++
    ((c.label n).map fun l => ⟨c.state n, l.1, l.2, c.state (n + 1)⟩).toList := rfl

/-- Each beginning of a course is a run. -/
theorem run (n : ℕ) : Run N u₀ (c.before n) (c.state n) := by
  induction n with
  | zero =>
    rw [c.start]
    exact .nil
  | succ n ih =>
    rw [before_succ]
    cases hlabel : c.label n with
    | none =>
      rw [Option.map_none, Option.toList_none, List.append_nil, c.idle n hlabel]
      exact ih
    | some l => exact .snoc ih (c.moves n l hlabel)

variable {c}

/-- At each time the component is left alone, or takes its input. -/
theorem step (n : ℕ) : c.input n = none ∧ c.state (n + 1) = c.state n ∨
    ∃ i o, c.input n = some i ∧ N.step (c.state n) i = some (c.state (n + 1), o) := by
  rw [input]
  cases hlabel : c.label n with
  | none => exact .inl ⟨rfl, c.idle n hlabel⟩
  | some l => exact .inr ⟨l.1, l.2, rfl, c.moves n l hlabel⟩

end Course

/-- **The course of a component** in an execution of the whole. -/
def Execution.part (e : Execution M s₀) (view : σ → σ')
    (label : Transition σ ι ο → Option (ι' × ο')) (start : view s₀ = u₀)
    (idle : ∀ t : Transition σ ι ο, t.Of M → label t = none → view t.post = view t.pre)
    (moves : ∀ t : Transition σ ι ο, t.Of M → ∀ l, label t = some l →
      N.step (view t.pre) l.1 = some (view t.post, l.2)) : Course N u₀ where
  state n := view (e.state n)
  label n := label (e.transition n)
  start := (congrArg view e.start).trans start
  idle n := idle (e.transition n) (e.transition_of n)
  moves n := moves (e.transition n) (e.transition_of n)

/-- The whole is a component of its own. -/
def Execution.course (e : Execution M s₀) : Course M s₀ where
  state := e.state
  label n := some (e.input n, e.output n)
  start := e.start
  idle n h := by cases h
  moves n l h := by
    cases h
    exact e.step n

/-- What the component goes through is its part of the execution. -/
theorem Execution.before_part (e : Execution M s₀) {view : σ → σ'}
    {label : Transition σ ι ο → Option (ι' × ο')} (start : view s₀ = u₀)
    (idle : ∀ t : Transition σ ι ο, t.Of M → label t = none → view t.post = view t.pre)
    (moves : ∀ t : Transition σ ι ο, t.Of M → ∀ l, label t = some l →
      N.step (view t.pre) l.1 = some (view t.post, l.2)) (n : ℕ) :
    (e.part view label start idle moves).before n =
      (e.before n).filterMap (Transition.part view label) := by
  induction n with
  | zero => rfl
  | succ n ih =>
    rw [Course.before_succ, Execution.before_succ, List.filterMap_append, ih, List.filterMap_cons]
    change _ ++ ((label (e.transition n)).map _).toList = _
    rw [Transition.part]
    cases label (e.transition n) <;> rfl

theorem Execution.mem_before {e : Execution M s₀} {n : ℕ} {t : Transition σ ι ο}
    (h : t ∈ e.before n) : ∃ m < n, t = e.transition m := by
  induction n with
  | zero => cases h
  | succ n ih =>
    rw [Execution.before_succ] at h
    rcases List.mem_append.mp h with hbefore | hlast
    · obtain ⟨m, hm, ht⟩ := ih hbefore
      exact ⟨m, Nat.lt_succ_of_lt hm, ht⟩
    · exact ⟨n, Nat.lt_succ_self n, List.mem_singleton.mp hlast⟩

end Machine
