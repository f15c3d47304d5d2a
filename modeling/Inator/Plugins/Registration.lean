import Mathlib.Data.List.Induction
import Inator.Plugins.Messaging

/-! # What the plugins register (`ConnectionPlugin::build` of `plugins/connection.rs`,
`AuthenticationPlugin::build` of `plugins/authentication.rs`)

`build` calls `register_message` for the types of the crate, the program then for its own. Which
types those of the crate are depends on the target: `AuthenticationPlugin` has two versions. -/

namespace Inator
variable {τ : Type} [DecidableEq τ] [UserMessages τ] [Ciborium τ]

/-- What `cfg(target_arch = "wasm32")` tells apart. -/
inductive Target
  | native
  | wasm32
  deriving DecidableEq, Repr

/-- The registry after these calls of `register_message`, from `MessagingPlugin::build` on. -/
def MessagesRegistry.registered (types : List (MessageType τ)) : MessagesRegistry τ :=
  types.foldl (fun registry t => registry.registerMessage t) .default

/-- The types that `AuthenticationPlugin::build` registers. On a native target it is generic, and
`ConnectionPlugin` puts `AuthenticationMessage` for its parameter. -/
def AuthenticationPlugin.build {τ : Type} : Target → List (MessageType τ)
  | .native => [.authenticationMessage, .authenticatedUuid]
  | .wasm32 => [.authenticatedUuid]

/-- The types that `ConnectionPlugin::build` registers. Its server is cut out on `wasm32`. -/
def ConnectionPlugin.build {τ : Type} : Target → NetworkSide → List (MessageType τ)
  | .native, .server => AuthenticationPlugin.build .native
  | .native, .client => AuthenticationPlugin.build .native
  | .wasm32, .server => []
  | .wasm32, .client => AuthenticationPlugin.build .wasm32

/-- The types an app has registered once the program has registered its own. -/
def ConnectionPlugin.registers {τ : Type} (target : Target) (networkSide : NetworkSide)
    (users : List τ) : List (MessageType τ) :=
  build target networkSide ++ users.map .user

namespace MessagesRegistry
variable {types : List (MessageType τ)} {t : MessageType τ} {id : BitVec 32}

/-- One of the calls enters the type under that id. -/
def Assigns (types : List (MessageType τ)) (t : MessageType τ) (id : BitVec 32) : Prop :=
  ∃ before after, types = before ++ t :: after ∧
    id = ((registered before).registerMessage t).count

theorem registered_snoc (types : List (MessageType τ)) (t : MessageType τ) :
    registered (types ++ [t]) = (registered types).registerMessage t :=
  List.foldl_concat ..

/-- The counter counts the calls. -/
theorem count_registered (types : List (MessageType τ)) :
    (registered types).count = .ofNat 32 types.length := by
  induction types using List.reverseRecOn with
  | nil => rfl
  | append_singleton types t ih =>
    rw [registered_snoc, List.length_append, BitVec.ofNat_add, ← ih]
    rfl

/-- **The ids are the positions** of the calls. -/
theorem assigns_iff : Assigns types t id ↔
    ∃ k, types[k]? = some t ∧ id = .ofNat 32 (k + 1) := by
  have hcount : ∀ before : List (MessageType τ),
      ((registered before).registerMessage t).count = .ofNat 32 (before.length + 1) := by
    intro before
    rw [← registered_snoc, count_registered, List.length_append, List.length_singleton]
  constructor
  · intro h
    obtain ⟨before, after, rfl, rfl⟩ := h
    refine ⟨before.length, ?_, hcount before⟩
    rw [List.getElem?_append_right (Nat.le_refl _), Nat.sub_self]
    rfl
  · intro h
    obtain ⟨k, hk, rfl⟩ := h
    obtain ⟨hlt, rfl⟩ := List.getElem?_eq_some_iff.mp hk
    refine ⟨types.take k, types.drop (k + 1), ?_, ?_⟩
    · rw [← List.drop_eq_getElem_cons hlt, List.take_append_drop]
    · rw [hcount, List.length_take, Nat.min_eq_left (Nat.le_of_lt hlt)]

end MessagesRegistry

end Inator
