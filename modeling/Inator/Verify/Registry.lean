import Inator.Plugins.Registration
import Inator.Verify.Messaging

/-! # What the registry holds

As long as the counter does not wrap, the `k`-th call of `register_message` enters its type under
the id `k`, and nothing else is ever entered there. What an entry decodes is of the entry's own
type, so none of its downcasts fails. -/

namespace Inator
variable {τ : Type} [DecidableEq τ] [UserMessages τ] [Ciborium τ]

namespace MessagesRegistry
variable {types : List (MessageType τ)} {t : MessageType τ} {id : BitVec 32}

/-- **What a registry holds** after fewer calls than there are ids. -/
theorem lookup_registered (h : types.length < 2 ^ 32) :
    (registered types).types.lookup id =
      if id.toNat = 0 then none else types[id.toNat - 1]? := by
  induction types using List.reverseRecOn with
  | nil =>
    rw [List.getElem?_nil, ite_self]
    rfl
  | append_singleton types t ih =>
    rw [List.length_append, List.length_singleton] at h
    have hbefore := ih (Nat.lt_of_succ_lt h)
    have hcount : (registered types).count + 1 = .ofNat 32 (types.length + 1) := by
      rw [count_registered, BitVec.ofNat_add]
      rfl
    have hnew : (BitVec.ofNat 32 (types.length + 1)).toNat = types.length + 1 := by
      rw [BitVec.toNat_ofNat, Nat.mod_eq_of_lt h]
    rw [registered_snoc, registerMessage]
    by_cases hid : id = (registered types).count + 1
    · rw [hid, AList.lookup_insert, hcount, hnew, if_neg (Nat.succ_ne_zero _),
        Nat.add_sub_cancel, List.getElem?_concat_length]
    · rw [AList.lookup_insert_ne hid, hbefore]
      have hne : id.toNat ≠ types.length + 1 := by
        intro heq
        apply hid
        rw [hcount]
        exact BitVec.eq_of_toNat_eq (heq.trans hnew.symm)
      split
      · rfl
      · rename_i hpos
        rcases Nat.lt_or_ge (id.toNat - 1) types.length with hlt | hge
        · rw [List.getElem?_append_left hlt]
        · rw [List.getElem?_eq_none hge, List.getElem?_eq_none]
          rw [List.length_append, List.length_singleton]
          omega

theorem lookup_registered_succ (h : types.length < 2 ^ 32) {k : Nat} (hk : types[k]? = some t) :
    (registered types).types.lookup (.ofNat 32 (k + 1)) = some t := by
  obtain ⟨hlt, -⟩ := List.getElem?_eq_some_iff.mp hk
  have hid : (BitVec.ofNat 32 (k + 1)).toNat = k + 1 := by
    rw [BitVec.toNat_ofNat, Nat.mod_eq_of_lt (Nat.lt_of_le_of_lt hlt h)]
  rw [lookup_registered h, hid, if_neg (Nat.succ_ne_zero k), Nat.add_sub_cancel, hk]

/-- An id has an entry if and only if it has a type. -/
theorem mem_functions_iff {registry : MessagesRegistry τ} :
    id ∈ registry.functions ↔ (registry.types.lookup id).isSome := by
  rw [← AList.lookup_isSome, registry.erased, Option.isSome_map]

theorem mem_registered (h : types.length < 2 ^ 32) :
    id ∈ (registered types).functions ↔ 1 ≤ id.toNat ∧ id.toNat ≤ types.length := by
  rw [mem_functions_iff, lookup_registered h]
  split
  · exact iff_of_false Bool.false_ne_true (by omega)
  · rw [isSome_getElem?]
    omega

/-- What an entry decodes is of the type the entry is of. -/
theorem message_of_deserialize {registry : MessagesRegistry τ} {functions : MessageFunctions τ}
    {payload : List UInt8} {message : AnyMessage τ}
    (hentry : registry.functions.lookup id = some functions)
    (h : functions.deserialize payload = .ok message) :
    ∃ t m, functions = messageFunctions t ∧ message = ⟨t, m⟩ := by
  rw [registry.erased] at hentry
  obtain ⟨t, -, rfl⟩ := Option.map_eq_some_iff.mp hentry
  obtain ⟨m, -, heq⟩ := Panicking.bind_eq_ok.mp h
  cases heq
  exact ⟨t, m, rfl, rfl⟩

end MessagesRegistry

/-! ## The panics of the read systems -/

section Panics
variable {messagesRegistry : MessagesRegistry τ} {bytes : List UInt8} {text : String}

/-- The text of the `expect` in `deserialize_message`. -/
def DecodePanic (text : String) : Prop := ∃ e, text = "Failed to decode message: " ++ e

/-- A loop panics for want of a message that decodes, if what it does with the others does not
panic. -/
theorem readMessage_panics
    {queue : MessageFunctions τ → AnyMessage τ → Panicking (List (Command τ))}
    (h : readMessage messagesRegistry bytes queue = .error text)
    (hqueue : ¬messagesRegistry.Undecodable bytes →
      ∃ out, readMessage messagesRegistry bytes queue = .ok out) : DecodePanic text := by
  by_cases hbytes : messagesRegistry.Undecodable bytes
  · obtain ⟨e, he⟩ := readMessage_error queue hbytes
    exact ⟨e, Except.error.inj (h.symm.trans he)⟩
  · obtain ⟨out, hout⟩ := hqueue hbytes
    cases h.symm.trans hout

theorem readMessagesServer_panics {serverConnections : NetworkConnections ServerConnection}
    (h : readMessagesServer messagesRegistry serverConnections = .error text) :
    DecodePanic text := by
  have hloop := Panicking.error_of_bind h
  obtain ⟨entry, -, hturn⟩ := Panicking.forEach_error hloop
  obtain ⟨message, -, hmessage⟩ := Panicking.forEach_error hturn
  exact readMessage_panics hmessage fun hbytes =>
    ⟨_, readMessageServer_ok entry.2 message.2 hbytes⟩

theorem readMessagesClient_panics {clientConnections : NetworkConnections ClientConnection}
    (h : readMessagesClient messagesRegistry clientConnections = .error text) :
    DecodePanic text := by
  have hloop := Panicking.error_of_bind h
  obtain ⟨entry, -, hturn⟩ := Panicking.forEach_error hloop
  obtain ⟨bytes, -, hbytes⟩ := Panicking.forEach_error hturn
  exact readMessage_panics hbytes fun hbytes => ⟨_, readMessageClient_ok entry.2 hbytes⟩

omit [DecidableEq τ] [Ciborium τ] in
/-- Commands that dispatch can all be applied. -/
theorem applyCommands_total {commands : List (Command τ)}
    (h : ∀ command ∈ commands, ∃ message, command = .ok message) :
    ∃ written, applyCommands commands = .ok written := by
  apply Panicking.forEach_total
  intro command hcommand
  obtain ⟨message, rfl⟩ := h command hcommand
  exact ⟨[message], rfl⟩

end Panics

/-! ## The registry of an app -/

open MessagesRegistry

/-- What is to hold of the registry after the calls of `register_message`. -/
structure RegistrySound (types : List (MessageType τ)) : Prop where
  keys : ∀ id, id ∈ (registered types).functions ↔ 1 ≤ id.toNat ∧ id.toNat ≤ types.length
  kept : ∀ before t after, types = before ++ t :: after →
    (registered before).count + 1 ∉ (registered before).functions
  entries : ∀ k t, types[k]? = some t →
    (registered types).functions.lookup (.ofNat 32 (k + 1)) = some (messageFunctions t)
  positions : ∀ id, (registered types).types.lookup id =
    if id.toNat = 0 then none else types[id.toNat - 1]?
  downcasts : ∀ id functions, (registered types).functions.lookup id = some functions →
    ∀ payload message, functions.deserialize payload = .ok message →
      (∃ answer, functions.isAuthenticationMessage message = .ok answer) ∧
      ∀ networkSide portType portNumber connectionName sender, ∃ written,
        functions.dispatch message networkSide portType portNumber connectionName sender =
          .ok written
  server : ∀ connections,
    (∀ text, readMessagesServer (registered types) connections = .error text →
      DecodePanic text) ∧
    ∀ left commands, readMessagesServer (registered types) connections = .ok (left, commands) →
      ∃ written, applyCommands commands = .ok written
  client : ∀ connections,
    (∀ text, readMessagesClient (registered types) connections = .error text →
      DecodePanic text) ∧
    ∀ left commands, readMessagesClient (registered types) connections = .ok (left, commands) →
      ∃ written, applyCommands commands = .ok written

/-- **The registry is sound** after fewer calls than there are ids. -/
theorem registry_sound (types : List (MessageType τ)) (h : types.length < 2 ^ 32) :
    RegistrySound types where
  keys id := mem_registered h
  kept before t after heq := by
    rw [heq, List.length_append, List.length_cons] at h
    have hbefore : before.length < 2 ^ 32 := by omega
    have hcount : (registered before).count + 1 = .ofNat 32 (before.length + 1) := by
      rw [count_registered, BitVec.ofNat_add]
      rfl
    rw [mem_registered hbefore, hcount, BitVec.toNat_ofNat, Nat.mod_eq_of_lt (by omega)]
    omega
  entries k t hk := by
    rw [(registered types).erased, lookup_registered_succ h hk]
    rfl
  positions id := lookup_registered h
  downcasts id functions hentry payload message hmessage := by
    obtain ⟨t, m, rfl, rfl⟩ := message_of_deserialize hentry hmessage
    refine ⟨⟨t.asAuthentication m, isAuthenticationMessage_mk t m⟩, ?_⟩
    intro networkSide portType portNumber connectionName sender
    cases networkSide with
    | server => exact ⟨_, dispatchMessage_server t m portType portNumber connectionName sender⟩
    | client => exact ⟨_, dispatchMessage_client t m portType portNumber connectionName sender⟩
  server connections := by
    refine ⟨fun text => readMessagesServer_panics, fun left commands hread => ?_⟩
    apply applyCommands_total
    intro command hcommand
    obtain ⟨_, _, -, t, m, sender, -, hdispatch⟩ := mem_of_readMessagesServer hread hcommand
    exact ⟨_, hdispatch⟩
  client connections := by
    refine ⟨fun text => readMessagesClient_panics, fun left commands hread => ?_⟩
    apply applyCommands_total
    intro command hcommand
    obtain ⟨_, _, _, t, m, -, -, -, hdispatch⟩ := mem_of_readMessagesClient hread hcommand
    exact ⟨_, hdispatch⟩

theorem registry_sound_sample :
    RegistrySound (ConnectionPlugin.registers .native .server [Sample.ticket]) :=
  registry_sound _ (by decide)

/-! ## The registries of the targets -/

/-- A server, a native client and a client in a browser whose programs register the same types
get the same ids for them, and for `AuthenticatedUuid`. -/
def MessageIdsAgree (users : List τ) : Prop :=
  ∀ t : MessageType τ, (t = .authenticatedUuid ∨ ∃ user ∈ users, t = .user user) → ∀ id,
    (Assigns (ConnectionPlugin.registers .native .server users) t id ↔
      Assigns (ConnectionPlugin.registers .native .client users) t id) ∧
    (Assigns (ConnectionPlugin.registers .native .client users) t id ↔
      Assigns (ConnectionPlugin.registers .wasm32 .client users) t id)

/-- On a native target `AuthenticatedUuid` comes after `AuthenticationMessage`. -/
theorem assigns_native (networkSide : NetworkSide) (users : List τ) :
    Assigns (ConnectionPlugin.registers .native networkSide users) .authenticatedUuid 2 := by
  rw [assigns_iff]
  cases networkSide with
  | server => exact ⟨1, rfl, rfl⟩
  | client => exact ⟨1, rfl, rfl⟩

/-- In a browser it comes first, and only once. -/
theorem eq_one_of_assigns_wasm32 {users : List τ} {id : BitVec 32}
    (h : Assigns (ConnectionPlugin.registers .wasm32 .client users) .authenticatedUuid id) :
    id = 1 := by
  obtain ⟨k, hk, rfl⟩ := assigns_iff.mp h
  cases k with
  | zero => rfl
  | succ k =>
    have huser : (users.map MessageType.user)[k]? = some .authenticatedUuid := hk
    rw [List.getElem?_map] at huser
    obtain ⟨user, -, heq⟩ := Option.map_eq_some_iff.mp huser
    cases heq

/-- **The ids never agree**, whatever the program registers. -/
theorem messageIds_disagree (users : List τ) : ¬MessageIdsAgree users := by
  intro h
  have hnative := assigns_native .client users
  have hwasm := (h .authenticatedUuid (.inl rfl) 2).2.mp hnative
  have heq := eq_one_of_assigns_wasm32 hwasm
  cases heq

/-- Not even those of the crate do. -/
theorem crateIds_disagree : ¬∀ users : List Sample, MessageIdsAgree users := by
  intro h
  have hnative := assigns_native .client ([] : List Sample)
  have hwasm := (h [] .authenticatedUuid (.inl rfl) 2).2.mp hnative
  cases eq_one_of_assigns_wasm32 hwasm

end Inator
