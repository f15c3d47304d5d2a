import Mathlib.Data.List.Forall2
import Inator.Lib.AssocMap
import Inator.Lib.Machine

/-! # Maps in another order, and runs that do not mind

A map is `Same` as another if both look up the same, so only the order of the entries may differ;
`Related` maps hold related values under the same keys. A run up to `R` may put the state in
another form at any time (`RunUpTo`). If related states take related steps
(`Congruence`), such a run shows what the plain run on the same inputs shows (`RunUpTo.plain`). -/

namespace Option.Rel
variable {α β γ : Type*} {r : α → β → Prop} {a : Option α} {b : Option β} {c : Option γ}

theorem symm {r' : β → α → Prop} (h : Option.Rel r a b) (hr : ∀ x y, r x y → r' y x) :
    Option.Rel r' b a := by
  cases h with
  | none => exact .none
  | some hxy => exact .some (hr _ _ hxy)

theorem trans {r' : β → γ → Prop} {r'' : α → γ → Prop} (h : Option.Rel r a b)
    (h' : Option.Rel r' b c) (hr : ∀ x y z, r x y → r' y z → r'' x z) : Option.Rel r'' a c := by
  cases h with
  | none =>
    cases h'
    exact .none
  | some hxy =>
    cases h' with
    | some hyz => exact .some (hr _ _ _ hxy hyz)

end Option.Rel

namespace AssocMap
variable {κ υ υ' ω ω' : Type*} [DecidableEq κ] {m m' : AssocMap κ υ} {k : κ}

/-- The two maps hold the same entries. -/
def Same (m m' : AssocMap κ υ) : Prop := ∀ k, m.lookup k = m'.lookup k

namespace Same

theorem refl (m : AssocMap κ υ) : Same m m := fun _ => rfl

theorem symm (h : Same m m') : Same m' m := fun k => (h k).symm

theorem trans {m'' : AssocMap κ υ} (h : Same m m') (h' : Same m' m'') : Same m m'' :=
  fun k => (h k).trans (h' k)

theorem mem (h : Same m m') (k : κ) : k ∈ m ↔ k ∈ m' := by
  rw [← AList.lookup_isSome, ← AList.lookup_isSome, h k]

/-- A map with its entries in another order. -/
theorem of_perm (h : m.entries.Perm m'.entries) : Same m m' :=
  fun k => List.perm_dlookup k m.nodupKeys h

theorem insert (h : Same m m') (k : κ) (v : υ) : Same (m.insert k v) (m'.insert k v) := by
  intro k'
  by_cases hk : k' = k
  · subst hk
    rw [AList.lookup_insert, AList.lookup_insert]
  · rw [AList.lookup_insert_ne hk, AList.lookup_insert_ne hk, h k']

theorem erase (h : Same m m') (k : κ) : Same (m.erase k) (m'.erase k) := by
  intro k'
  by_cases hk : k' = k
  · subst hk
    rw [AList.lookup_erase, AList.lookup_erase]
  · rw [AList.lookup_erase_ne hk, AList.lookup_erase_ne hk, h k']

theorem mapVals (h : Same m m') (f : κ → υ → υ') :
    Same (AssocMap.mapVals f m) (AssocMap.mapVals f m') := by
  intro k
  rw [lookup_mapVals, lookup_mapVals, h k]

theorem entries_perm (h : Same m m') : m.entries.Perm m'.entries := by
  refine List.lookup_ext m.nodupKeys m'.nodupKeys fun k v => ?_
  change v ∈ m.lookup k ↔ v ∈ m'.lookup k
  rw [h k]

/-- What is collected is the same, in whatever order. -/
theorem collect_perm (h : Same m m') (f : κ → υ → List ο) :
    (collect f m).Perm (collect f m') := h.entries_perm.flatMap_right _

end Same

/-- The two maps hold related values under the same keys. -/
def Related (r : υ → υ' → Prop) (m : AssocMap κ υ) (m' : AssocMap κ υ') : Prop :=
  ∀ k, Option.Rel r (m.lookup k) (m'.lookup k)

namespace Related
variable {r : υ → υ' → Prop} {m : AssocMap κ υ} {m' : AssocMap κ υ'}

theorem lookup (h : Related r m m') {v : υ} (hlookup : m.lookup k = some v) :
    ∃ v', m'.lookup k = some v' ∧ r v v' := by
  have hk := h k
  rw [hlookup] at hk
  cases hk' : m'.lookup k with
  | none =>
    rw [hk'] at hk
    cases hk
  | some v' =>
    rw [hk'] at hk
    cases hk with
    | some hr => exact ⟨v', rfl, hr⟩

theorem lookup_none (h : Related r m m') (hlookup : m.lookup k = none) : m'.lookup k = none := by
  have hk := h k
  rw [hlookup] at hk
  cases hk' : m'.lookup k with
  | none => rfl
  | some v' =>
    rw [hk'] at hk
    cases hk

theorem of_same {r : υ → υ → Prop} {m m' : AssocMap κ υ} (h : Same m m') (hr : ∀ v, r v v) :
    Related r m m' := by
  intro k
  rw [h k]
  cases m'.lookup k with
  | none => exact .none
  | some v => exact .some (hr v)

theorem same {m m' : AssocMap κ υ} (h : Related Eq m m') : Same m m' := by
  intro k
  cases hk : m.lookup k with
  | none => rw [h.lookup_none hk]
  | some v =>
    obtain ⟨v', hv', rfl⟩ := h.lookup hk
    rw [hv']

theorem symm {r' : υ' → υ → Prop} (h : Related r m m') (hr : ∀ v v', r v v' → r' v' v) :
    Related r' m' m := fun k => (h k).symm hr

theorem trans {υ'' : Type*} {r' : υ' → υ'' → Prop} {r'' : υ → υ'' → Prop} {m'' : AssocMap κ υ''}
    (h : Related r m m') (h' : Related r' m' m'')
    (hr : ∀ v v' v'', r v v' → r' v' v'' → r'' v v'') : Related r'' m m'' :=
  fun k => (h k).trans (h' k) hr

theorem mem (h : Related r m m') (k : κ) : k ∈ m ↔ k ∈ m' := by
  rw [← AList.lookup_isSome, ← AList.lookup_isSome]
  cases hk : m.lookup k with
  | none => rw [h.lookup_none hk]; rfl
  | some v =>
    obtain ⟨v', hv', -⟩ := h.lookup hk
    rw [hv']
    rfl

theorem insert (h : Related r m m') (k : κ) {v : υ} {v' : υ'} (hr : r v v') :
    Related r (m.insert k v) (m'.insert k v') := by
  intro k'
  by_cases hk : k' = k
  · subst hk
    rw [AList.lookup_insert, AList.lookup_insert]
    exact .some hr
  · rw [AList.lookup_insert_ne hk, AList.lookup_insert_ne hk]
    exact h k'

theorem erase (h : Related r m m') (k : κ) : Related r (m.erase k) (m'.erase k) := by
  intro k'
  by_cases hk : k' = k
  · subst hk
    rw [AList.lookup_erase, AList.lookup_erase]
    exact .none
  · rw [AList.lookup_erase_ne hk, AList.lookup_erase_ne hk]
    exact h k'

theorem mapVals {q : ω → ω' → Prop} (h : Related r m m') {f : κ → υ → ω} {g : κ → υ' → ω'}
    (hfg : ∀ k v v', m.lookup k = some v → r v v' → q (f k v) (g k v')) :
    Related q (AssocMap.mapVals f m) (AssocMap.mapVals g m') := by
  intro k
  rw [lookup_mapVals, lookup_mapVals]
  cases hk : m.lookup k with
  | none =>
    rw [h.lookup_none hk]
    exact .none
  | some v =>
    obtain ⟨v', hv', hr⟩ := h.lookup hk
    rw [hv']
    exact .some (hfg k v v' hk hr)

theorem modify (h : Related r m m') (k : κ) {f : υ → υ} {g : υ' → υ'}
    (hfg : ∀ v v', m.lookup k = some v → r v v' → r (f v) (g v')) :
    Related r (AssocMap.modify k f m) (AssocMap.modify k g m') := by
  refine h.mapVals fun k' v v' hv hr => ?_
  by_cases hk : k' = k
  · subst hk
    rw [if_pos rfl, if_pos rfl]
    exact hfg v v' hv hr
  · rw [if_neg hk, if_neg hk]
    exact hr

end Related

end AssocMap

namespace Machine
variable {σ ι ο : Type*}

/-- The transitions lead from `s₀` to `s`, where the state may change its form at any time. -/
inductive RunUpTo (M : Machine σ ι ο) (R : σ → σ → Prop) (s₀ : σ) :
    List (Transition σ ι ο) → σ → Prop
  | nil : RunUpTo M R s₀ [] s₀
  | change : RunUpTo M R s₀ ts s → R s u → RunUpTo M R s₀ ts u
  | snoc : RunUpTo M R s₀ ts s → M.step s i = some (s', o) →
      RunUpTo M R s₀ (ts ++ [⟨s, i, o, s'⟩]) s'

/-- Related states take related steps, and show related outputs, on the inputs of a kind `p`. -/
structure Congruence (M : Machine σ ι ο) (I : σ → Prop) (p : ι → Prop) (R : σ → σ → Prop)
    (Q : ο → ο → Prop) : Prop where
  equivalence : Equivalence R
  step : ∀ {s u i u' o}, I s → R s u → p i → M.step u i = some (u', o) →
    ∃ s' o', M.step s i = some (s', o') ∧ R s' u' ∧ Q o' o

/-- **The form of the states does not matter**: a run up to `R` has the inputs of a plain run that
shows the same. -/
theorem RunUpTo.plain {M : Machine σ ι ο} {I : σ → Prop} {p : ι → Prop} {R : σ → σ → Prop}
    {Q : ο → ο → Prop} {s₀ s : σ} {ts : List (Transition σ ι ο)}
    (hcongruence : Congruence M I p R Q)
    (invariant : ∀ us u, M.Run s₀ us u → I u) (h : RunUpTo M R s₀ ts s)
    (hinputs : ∀ t ∈ ts, p t.input) :
    ∃ us u, M.Run s₀ us u ∧ R u s ∧
      List.Forall₂ (fun t' t => t'.input = t.input ∧ Q t'.output t.output) us ts := by
  induction h with
  | nil => exact ⟨[], s₀, .nil, hcongruence.equivalence.refl s₀, .nil⟩
  | change _ hform ih =>
    obtain ⟨us, v, hrun, hrel, hshows⟩ := ih hinputs
    exact ⟨us, v, hrun, hcongruence.equivalence.trans hrel hform, hshows⟩
  | @snoc ts s i s' o _ hstep ih =>
    obtain ⟨hbefore, hinput⟩ := List.forall_mem_append.mp hinputs
    have hinput := List.forall_mem_singleton.mp hinput
    obtain ⟨us, v, hrun, hrel, hshows⟩ := ih hbefore
    obtain ⟨v', o', hstep', hrel', houtput⟩ :=
      hcongruence.step (invariant us v hrun) hrel hinput hstep
    refine ⟨us ++ [⟨v, i, o', v'⟩], v', .snoc hrun hstep', hrel', ?_⟩
    exact List.rel_append hshows (.cons ⟨rfl, houtput⟩ .nil)

theorem RunUpTo.append {M : Machine σ ι ο} {R : σ → σ → Prop} {s₀ s s' : σ}
    {ts us : List (Transition σ ι ο)} (h : RunUpTo M R s₀ ts s) (h' : M.Run s us s') :
    RunUpTo M R s₀ (ts ++ us) s' := by
  induction h' with
  | nil => rwa [List.append_nil]
  | snoc _ hstep ih =>
    rw [← List.append_assoc]
    exact .snoc ih hstep

end Machine
