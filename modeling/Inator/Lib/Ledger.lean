import Mathlib.Data.List.Nodup

/-! # Names that are issued, held and gone

Names are issued, each of them new, and every name is held until it is gone. `Ledger.perm` is the
balance: the names that are held and those that are gone are, together, the names issued. -/

/-- Every name that was issued is held or gone, and not both. -/
structure Ledger {α : Type*} (issued : List α) (Held : α → Prop) (gone : List α) : Prop where
  held : ∀ a ∈ issued, Held a ∨ a ∈ gone
  gone : ∀ a ∈ gone, a ∈ issued ∧ ¬Held a

namespace Ledger
variable {α : Type*} {issued gone : List α} {Held Held' : α → Prop} {a : α}

theorem nil (Held : α → Prop) : Ledger [] Held [] where
  held _ h := absurd h List.not_mem_nil
  gone _ h := absurd h List.not_mem_nil

theorem congr (h : Ledger issued Held gone) (hheld : ∀ a, Held' a ↔ Held a) :
    Ledger issued Held' gone where
  held a ha := (h.held a ha).imp_left (hheld a).mpr
  gone a ha := (h.gone a ha).imp_right fun hnot hheld' => hnot ((hheld a).mp hheld')

theorem issue (h : Ledger issued Held gone) (hfresh : a ∉ issued)
    (hheld : ∀ b, Held' b ↔ b = a ∨ Held b) : Ledger (a :: issued) Held' gone where
  held b hb := by
    rw [hheld]
    rcases List.mem_cons.mp hb with heq | hold
    · exact .inl (.inl heq)
    · exact (h.held b hold).imp_left .inr
  gone b hb := by
    obtain ⟨hissued, hnot⟩ := h.gone b hb
    refine ⟨List.mem_cons_of_mem _ hissued, fun hnow => ?_⟩
    rcases (hheld b).mp hnow with rfl | hbefore
    · exact hfresh hissued
    · exact hnot hbefore

theorem remove (h : Ledger issued Held gone) (hissued : a ∈ issued)
    (hheld : ∀ b, Held' b ↔ Held b ∧ b ≠ a) : Ledger issued Held' (gone ++ [a]) where
  held b hb := by
    rw [hheld, List.mem_append, List.mem_singleton]
    by_cases heq : b = a
    · exact .inr (.inr heq)
    · exact (h.held b hb).imp (⟨·, heq⟩) .inl
  gone b hb := by
    rw [hheld]
    rcases List.mem_append.mp hb with hbefore | hnew
    · exact (h.gone b hbefore).imp_right fun hnot hnow => hnot hnow.1
    · cases List.mem_singleton.mp hnew
      exact ⟨hissued, fun hnow => hnow.2 rfl⟩

/-- **The balance.** -/
theorem perm (h : Ledger issued Held gone) {held : List α} (hmem : ∀ a, a ∈ held ↔ Held a)
    (hknown : ∀ a, Held a → a ∈ issued) (hissued : issued.Nodup) (hheld : held.Nodup)
    (hgone : gone.Nodup) : (held ++ gone).Perm issued := by
  have hnodup : (held ++ gone).Nodup := by
    refine List.nodup_append.mpr ⟨hheld, hgone, ?_⟩
    rintro a ha _ hb rfl
    exact (h.gone a hb).2 ((hmem a).mp ha)
  refine (List.perm_ext_iff_of_nodup hnodup hissued).mpr fun a => ?_
  rw [List.mem_append, hmem]
  constructor
  · rintro (hheld | hgone)
    · exact hknown a hheld
    · exact (h.gone a hgone).1
  · exact h.held a

end Ledger
