import Mathlib.Data.List.Basic

/-! # A gate that opens between batches

Items come in batches. While the gate is closed an item gets through if it passes; an item that
enters opens the gate, but only for the batches after its own. So what gets through depends on
how the items are cut into batches, and `through_eq_iff` says by what: the items that are held
back behind the first one that enters, in its own batch. -/

namespace Batches
variable {α β : Type*} (passes enters : α → Bool)

/-- What gets through. -/
def through (opened : Bool) : List (List α) → List α
  | [] => []
  | batch :: rest =>
    batch.filter (opened || passes ·) ++ through (opened || batch.any enters) rest

/-- How many items are held back in the batch of the first that enters, from that one on. -/
def heldBack (opened : Bool) : List (List α) → ℕ
  | [] => 0
  | batch :: rest =>
    if opened then 0
    else if batch.any enters then (batch.dropWhile (!enters ·)).countP (!passes ·)
    else heldBack opened rest

variable {passes enters} {batches batches' : List (List α)} {opened : Bool}

/-- An open gate lets everything through. -/
@[simp] theorem through_true (batches : List (List α)) :
    through passes enters true batches = batches.flatten := by
  induction batches with
  | nil => rfl
  | cons batch rest ih => simpa [through] using ih

@[simp] theorem heldBack_true (batches : List (List α)) :
    heldBack passes enters true batches = 0 := by
  cases batches <;> rfl

/-- What gets through is what came in, in order, less what is held back. -/
theorem through_sublist (batches : List (List α)) :
    (through passes enters opened batches).Sublist batches.flatten := by
  induction batches generalizing opened with
  | nil => exact List.Sublist.slnil
  | cons batch rest ih => exact List.filter_sublist.append ih

/-- A closed gate filters up to the end of some batch. -/
theorem exists_cut (passes enters : α → Bool) (batches : List (List α)) :
    ∃ before after, batches.flatten = before ++ after ∧
      through passes enters false batches = before.filter passes ++ after := by
  induction batches with
  | nil => exact ⟨[], [], rfl, rfl⟩
  | cons batch rest ih =>
    obtain ⟨before, after, hflatten, hthrough⟩ := ih
    cases hany : batch.any enters with
    | true => exact ⟨batch, rest.flatten, rfl, by simp [through, hany]⟩
    | false =>
      refine ⟨batch ++ before, after, by simp [hflatten], ?_⟩
      simp [through, hany, hthrough]

theorem takeWhile_append_of_any {batch rest : List α} (h : batch.any enters = true) :
    (batch ++ rest).takeWhile (!enters ·) = batch.takeWhile (!enters ·) := by
  induction batch with
  | nil => cases h
  | cons a batch ih =>
    cases ha : enters a with
    | true => simp [ha]
    | false => simpa [ha] using ih (by simpa [ha] using h)

/-- The items that get through, and those held back before and from the first that enters, are
all there are. -/
theorem length_through (passes enters : α → Bool) (batches : List (List α)) :
    (through passes enters false batches).length + heldBack passes enters false batches +
      (batches.flatten.takeWhile (!enters ·)).countP (!passes ·) = batches.flatten.length := by
  induction batches with
  | nil => rfl
  | cons batch rest ih =>
    have hbatch : batch.length = batch.countP (passes ·) + batch.countP (!passes ·) := by
      simpa using batch.length_eq_countP_add_countP passes
    cases hany : batch.any enters with
    | true =>
      have hheld : batch.countP (!passes ·) = (batch.takeWhile (!enters ·)).countP (!passes ·) +
          (batch.dropWhile (!enters ·)).countP (!passes ·) := by
        rw [← List.countP_append, List.takeWhile_append_dropWhile]
      rw [List.flatten_cons, takeWhile_append_of_any hany]
      simp only [through, heldBack, hany, Bool.false_or, through_true, Bool.false_eq_true, if_false,
        if_true, List.length_append, ← List.countP_eq_length_filter]
      omega
    | false =>
      have hnone : ∀ a ∈ batch, (!enters a) = true := by
        intro a ha
        simpa using List.any_eq_false.mp hany a ha
      rw [List.flatten_cons, List.takeWhile_append_of_pos hnone, List.countP_append]
      simp only [through, heldBack, hany, Bool.false_or, Bool.false_eq_true, if_false,
        List.length_append, ← List.countP_eq_length_filter]
      omega

/-- Filtering further lets less through. -/
theorem filter_append_sublist (before more after : List α) :
    ((before ++ more).filter passes ++ after).Sublist
      (before.filter passes ++ (more ++ after)) := by
  rw [List.filter_append, List.append_assoc]
  exact (List.filter_sublist.append_right after).append_left _

/-- Of two ways to cut the items into batches, one lets through what the other does and more. -/
theorem through_sublist_or (passes enters : α → Bool)
    (hsame : batches.flatten = batches'.flatten) :
    (through passes enters false batches).Sublist (through passes enters false batches') ∨
      (through passes enters false batches').Sublist (through passes enters false batches) := by
  obtain ⟨before, after, hflatten, hthrough⟩ :=
    exists_cut passes enters batches
  obtain ⟨before', after', hflatten', hthrough'⟩ :=
    exists_cut passes enters batches'
  rw [hthrough, hthrough']
  rcases List.append_eq_append_iff.mp (hflatten.symm.trans (hsame.trans hflatten')) with
    ⟨more, rfl, rfl⟩ | ⟨more, rfl, rfl⟩
  · exact .inr (filter_append_sublist before more after')
  · exact .inl (filter_append_sublist before' more after)

/-- They let the same number through when they hold back the same number. -/
theorem length_through_eq_iff (hsame : batches.flatten = batches'.flatten) :
    (through passes enters opened batches).length =
        (through passes enters opened batches').length ↔
      heldBack passes enters opened batches = heldBack passes enters opened batches' := by
  cases opened with
  | true => simp [hsame]
  | false =>
    have hlength := length_through passes enters batches
    have hlength' := length_through passes enters batches'
    rw [hsame] at hlength
    omega

/-- **When two ways to cut the items into batches let the same through.** -/
theorem through_eq_iff (hsame : batches.flatten = batches'.flatten) :
    through passes enters opened batches = through passes enters opened batches' ↔
      heldBack passes enters opened batches = heldBack passes enters opened batches' := by
  rw [← length_through_eq_iff hsame]
  constructor
  · exact congrArg List.length
  · intro hlength
    cases opened with
    | true => simp [hsame]
    | false =>
      rcases through_sublist_or passes enters hsame with hsub | hsub
      · exact hsub.eq_of_length hlength
      · exact (hsub.eq_of_length hlength.symm).symm

end Batches
