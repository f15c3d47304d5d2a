import Mathlib.Data.List.Basic

/-! # Computations that may panic

A panic carries its text and ends the computation. `forEach` is a loop whose turns queue
outputs; `forEach_eq` says what a loop gives none of whose turns panics, `forEach_ok` that a
loop that ends normally had no turn that panics. -/

universe u

/-- A computation that may panic, with the text of the panic. -/
abbrev Panicking (α : Type*) := Except String α

namespace Panicking
variable {α β : Type*}

/-- `Result::expect`. -/
def expect (text : String) : Except String α → Panicking α
  | .ok a => .ok a
  | .error e => .error (text ++ ": " ++ e)

/-- `Option::expect`. -/
def expectSome (text : String) : Option α → Panicking α
  | some a => .ok a
  | none => .error text

/-- Run `f` on each item in order and queue what each turn gives. -/
def forEach (f : α → Panicking (List β)) : List α → Panicking (List β)
  | [] => .ok []
  | a :: as => do
    let b ← f a
    let bs ← forEach f as
    return b ++ bs

theorem bind_eq_ok {α β : Type u} {x : Panicking α} {f : α → Panicking β} {b : β} :
    x >>= f = .ok b ↔ ∃ a, x = .ok a ∧ f a = .ok b := by
  cases x <;> simp [bind, Except.bind]

theorem map_eq_ok {α β : Type u} {x : Panicking α} {f : α → β} {b : β} :
    x.map f = .ok b ↔ ∃ a, x = .ok a ∧ f a = b := by
  cases x <;> simp [Except.map]

/-- A computation that only returns after `x` panics if `x` does. -/
theorem error_of_bind {α β : Type u} {x : Panicking α} {f : α → β} {text : String}
    (h : (x >>= fun a => pure (f a)) = .error text) : x = .error text := by
  cases x with
  | error text' =>
    cases h
    rfl
  | ok a => cases h

variable {f : α → Panicking (List β)} {as : List α}

theorem forEach_cons {a : α} {out : List β} :
    forEach f (a :: as) = .ok out ↔
      ∃ b bs, f a = .ok b ∧ forEach f as = .ok bs ∧ b ++ bs = out := by
  simp only [forEach, bind_eq_ok, pure, Except.pure, Except.ok.injEq, exists_and_left]

@[simp] theorem forEach_singleton (a : α) : forEach f [a] = f a := by
  cases h : f a with
  | error e => simp [forEach, h, bind, Except.bind]
  | ok b => exact forEach_cons.mpr ⟨b, [], h, rfl, List.append_nil b⟩

/-- A loop none of whose turns panics queues the outputs of the turns, in order. -/
theorem forEach_eq {g : α → List β} (h : ∀ a ∈ as, f a = .ok (g a)) :
    forEach f as = .ok (as.flatMap g) := by
  induction as with
  | nil => rfl
  | cons a as ih =>
    obtain ⟨ha, has⟩ := List.forall_mem_cons.mp h
    exact forEach_cons.mpr ⟨g a, as.flatMap g, ha, ih has, rfl⟩

/-- A loop that ends normally has no turn that panics. -/
theorem forEach_ok {out : List β} (h : forEach f as = .ok out) :
    ∀ a ∈ as, ∃ b, f a = .ok b := by
  induction as generalizing out with
  | nil => exact fun _ ha => absurd ha List.not_mem_nil
  | cons a as ih =>
    obtain ⟨b, bs, ha, has, -⟩ := forEach_cons.mp h
    exact List.forall_mem_cons.mpr ⟨⟨b, ha⟩, ih has⟩

/-- A loop none of whose turns panics ends normally. -/
theorem forEach_total (h : ∀ a ∈ as, ∃ b, f a = .ok b) : ∃ out, forEach f as = .ok out := by
  induction as with
  | nil => exact ⟨[], rfl⟩
  | cons a as ih =>
    obtain ⟨⟨b, ha⟩, has⟩ := List.forall_mem_cons.mp h
    obtain ⟨bs, hbs⟩ := ih has
    exact ⟨b ++ bs, forEach_cons.mpr ⟨b, bs, ha, hbs, rfl⟩⟩

/-- A loop that panics has a turn that panics so. -/
theorem forEach_error {text : String} (h : forEach f as = .error text) :
    ∃ a ∈ as, f a = .error text := by
  induction as with
  | nil => cases h
  | cons a as ih =>
    cases ha : f a with
    | error text' =>
      rw [forEach, ha] at h
      cases h
      exact ⟨a, List.mem_cons_self, ha⟩
    | ok b =>
      cases has : forEach f as with
      | error text' =>
        rw [forEach, ha, has] at h
        cases h
        obtain ⟨a', ha', herror⟩ := ih has
        exact ⟨a', List.mem_cons_of_mem _ ha', herror⟩
      | ok bs =>
        rw [forEach, ha, has] at h
        cases h

/-- Every output of a loop comes from one of its turns. -/
theorem mem_of_forEach {out : List β} (h : forEach f as = .ok out) {o : β} (ho : o ∈ out) :
    ∃ a ∈ as, ∃ b, f a = .ok b ∧ o ∈ b := by
  induction as generalizing out with
  | nil =>
    cases h
    exact absurd ho List.not_mem_nil
  | cons a as ih =>
    obtain ⟨b, bs, ha, has, rfl⟩ := forEach_cons.mp h
    rcases List.mem_append.mp ho with hb | hbs
    · exact ⟨a, List.mem_cons_self, b, ha, hb⟩
    · obtain ⟨a', ha', found⟩ := ih has hbs
      exact ⟨a', List.mem_cons_of_mem _ ha', found⟩

end Panicking
