import Mathlib.Data.List.Basic

/-! # The loop of a task

A task repeats a turn, which sends events and goes on or leaves the loop. `Arrives` is how far it
may come, `Ends` the loop as a whole; a loop that keeps an invariant under which no turn leaves it
never ends (`not_ends`), and loops that simulate each other send and end alike. -/

namespace Loop

/-- What a turn does: it sends, and goes on from a state or leaves the loop with a result. -/
inductive Turn (σ ε ρ : Type*)
  | next (sent : List ε) (s : σ)
  | exit (sent : List ε) (result : ρ)
  deriving DecidableEq

variable {σ ε ρ : Type*}

/-- The loop comes from `s` to the beginning of a turn in `s'`, having sent `sent`. -/
inductive Arrives (turn : σ → Turn σ ε ρ) : σ → List ε → σ → Prop
  | here : Arrives turn s [] s
  | next : turn s = .next sent s' → Arrives turn s' rest t → Arrives turn s (sent ++ rest) t

/-- The loop, begun in `s`, ends, having sent `sent`. -/
inductive Ends (turn : σ → Turn σ ε ρ) : σ → List ε → ρ → Prop
  | last : turn s = .exit sent result → Ends turn s sent result
  | next : turn s = .next sent s' → Ends turn s' rest result → Ends turn s (sent ++ rest) result

variable {turn : σ → Turn σ ε ρ} {s s' : σ} {sent rest : List ε} {result : ρ}

theorem ends_exit (h : turn s = .exit sent result) {out : List ε} {r : ρ} :
    Ends turn s out r ↔ out = sent ∧ r = result := by
  constructor
  · intro hends
    cases hends with
    | last h' =>
      cases h.symm.trans h'
      exact ⟨rfl, rfl⟩
    | next h' _ => cases h.symm.trans h'
  · intro heq
    obtain ⟨rfl, rfl⟩ := heq
    exact .last h

theorem ends_next (h : turn s = .next sent s') {out : List ε} {r : ρ} :
    Ends turn s out r ↔ ∃ rest, Ends turn s' rest r ∧ sent ++ rest = out := by
  constructor
  · intro hends
    cases hends with
    | last h' => cases h.symm.trans h'
    | next h' hrest =>
      cases h.symm.trans h'
      exact ⟨_, hrest, rfl⟩
  · intro hrest
    obtain ⟨rest, hrest, rfl⟩ := hrest
    exact .next h hrest

/-- A loop ends in one way at most. -/
theorem Ends.unique (h : Ends turn s sent result) {out : List ε} {r : ρ}
    (h' : Ends turn s out r) : out = sent ∧ r = result := by
  induction h generalizing out with
  | last hturn => exact (ends_exit hturn).mp h'
  | next hturn _ ih =>
    obtain ⟨rest, hrest, rfl⟩ := (ends_next hturn).mp h'
    obtain ⟨rfl, rfl⟩ := ih hrest
    exact ⟨rfl, rfl⟩

/-- A loop that has ended was, before its last turn, in a state whose turn leaves it. -/
theorem Ends.exists_arrives (h : Ends turn s sent result) :
    ∃ before last s', Arrives turn s before s' ∧ turn s' = .exit last result ∧
      sent = before ++ last := by
  induction h with
  | last hturn => exact ⟨[], _, _, .here, hturn, rfl⟩
  | next hturn _ ih =>
    obtain ⟨before, last, s', harrives, hlast, rfl⟩ := ih
    exact ⟨_, last, s', .next hturn harrives, hlast, (List.append_assoc ..).symm⟩

/-- An invariant of the turns holds wherever the loop comes. -/
theorem Arrives.invariant (h : Arrives turn s sent t) (I : σ → Prop) (hs : I s)
    (step : ∀ s sent s', I s → turn s = .next sent s' → I s') : I t := by
  induction h with
  | here => exact hs
  | next hturn _ ih => exact ih (step _ _ _ hs hturn)

/-- A loop whose turn changes nothing stays where it is, and sends nothing. -/
theorem Arrives.stays (h : Arrives turn s sent t) (hturn : turn s = .next [] s) :
    sent = [] ∧ t = s := by
  induction h with
  | here => exact ⟨rfl, rfl⟩
  | next hfirst _ ih =>
    cases hfirst.symm.trans hturn
    obtain ⟨rfl, rfl⟩ := ih hturn
    exact ⟨rfl, rfl⟩

/-- **Divergence.** A loop that keeps an invariant under which no turn leaves it never ends. -/
theorem not_ends (I : σ → Prop)
    (stays : ∀ s, I s → ∃ sent s', turn s = .next sent s' ∧ I s') (hs : I s) :
    ¬Ends turn s sent result := by
  intro h
  induction h with
  | last hturn =>
    obtain ⟨sent, s', hnext, -⟩ := stays _ hs
    cases hturn.symm.trans hnext
  | next hturn _ ih =>
    obtain ⟨sent, s', hnext, hs'⟩ := stays _ hs
    cases hturn.symm.trans hnext
    exact ih hs'

/-! ## Simulation -/

section Simulation
variable {τ : Type*} {turn' : τ → Turn τ ε ρ} {R : σ → τ → Prop} {t : τ}

/-- From related states, the two loops do the same and come to related states. -/
structure Simulates (R : σ → τ → Prop) (turn : σ → Turn σ ε ρ) (turn' : τ → Turn τ ε ρ) :
    Prop where
  next : ∀ {a b sent a'}, R a b → turn a = .next sent a' → ∃ b', turn' b = .next sent b' ∧ R a' b'
  exit : ∀ {a b sent result}, R a b → turn a = .exit sent result → turn' b = .exit sent result

theorem Arrives.simulate (h : Arrives turn s sent s') (sim : Simulates R turn turn')
    (hR : R s t) : ∃ t', Arrives turn' t sent t' ∧ R s' t' := by
  induction h generalizing t with
  | here => exact ⟨t, .here, hR⟩
  | next hturn _ ih =>
    obtain ⟨t₁, hnext, hR₁⟩ := sim.next hR hturn
    obtain ⟨t', harrives, hR'⟩ := ih hR₁
    exact ⟨t', .next hnext harrives, hR'⟩

theorem Ends.simulate (h : Ends turn s sent result) (sim : Simulates R turn turn')
    (hR : R s t) : Ends turn' t sent result := by
  induction h generalizing t with
  | last hturn => exact .last (sim.exit hR hturn)
  | next hturn _ ih =>
    obtain ⟨t', hnext, hR'⟩ := sim.next hR hturn
    exact .next hnext (ih hR')

end Simulation

end Loop
