import Inator.Lib.AssocMap
import Inator.Lib.Panic
import Inator.Plugins.Options

/-! # Messages and their registry (`plugins/messaging.rs`, `plugins/authentication.rs`)

A program's message types are the two of the crate and its own. The codec is a parameter.
`MessageFunctions` erases the type of a message, as `Box<dyn Any>` does in the source; the
registry is built so that every entry is the erasure of one type. -/

namespace Inator

abbrev Uuid := BitVec 128

-- how a UUID is looked for among those that were given out
instance (uuid : Uuid) (uuids : List Uuid) : Decidable (uuid ∈ uuids) := inferInstance

inductive PortTypes
  | tcp
  | wasm
  | udp
  deriving DecidableEq, Repr

structure AuthenticationMessage where
  username : String
  password : String
  deriving DecidableEq, Repr

structure AuthenticatedUuid where
  uuid : Uuid
  deriving DecidableEq, Repr

/-- The message types a program defines, with `MessageTrait::as_authentication` on each. -/
class UserMessages (τ : Type) where
  Message : τ → Type
  asAuthentication : {t : τ} → Message t → Bool

/-- The types a program can register. -/
inductive MessageType (τ : Type)
  | authenticationMessage
  | authenticatedUuid
  | user (t : τ)
  deriving DecidableEq

namespace MessageType
variable {τ : Type} [UserMessages τ]

/-- The values of a message type. -/
def Message : MessageType τ → Type
  | .authenticationMessage => AuthenticationMessage
  | .authenticatedUuid => AuthenticatedUuid
  | .user t => UserMessages.Message t

/-- `#[connection_message(authentication = true)]` is on `AuthenticationMessage` only. -/
def asAuthentication : (t : MessageType τ) → t.Message → Bool
  | .authenticationMessage, _ => true
  | .authenticatedUuid, _ => false
  | .user _, m => UserMessages.asAuthentication m

end MessageType

structure MessageInfos where
  messageId : BitVec 32
  message : List UInt8
  deriving DecidableEq, Repr

/-- `ciborium` at the types of a program. -/
class Ciborium (τ : Type) [UserMessages τ] where
  intoWriter : {t : MessageType τ} → t.Message → Except String (List UInt8)
  fromReader : (t : MessageType τ) → List UInt8 → Except String t.Message
  fromReaderMessageInfos : List UInt8 → Except String MessageInfos

variable {τ : Type} [DecidableEq τ] [UserMessages τ]

/-- `Box<dyn Any>` holding a message. -/
structure AnyMessage (τ : Type) [UserMessages τ] where
  type : MessageType τ
  message : type.Message

/-- `downcast_ref`. -/
def AnyMessage.downcast (any : AnyMessage τ) (t : MessageType τ) : Option t.Message :=
  if h : any.type = t then some (h ▸ any.message) else none

@[simp] theorem AnyMessage.downcast_mk (t : MessageType τ) (m : t.Message) :
    (AnyMessage.mk t m).downcast t = some m := by
  simp [AnyMessage.downcast]

structure MessageReceivedFromServer (τ : Type) [UserMessages τ] (t : MessageType τ) where
  message : t.Message
  portType : PortTypes
  connectionName : String
  portNumber : Nat

structure MessageReceivedFromClient (τ : Type) [UserMessages τ] (t : MessageType τ) where
  message : t.Message
  portType : PortTypes
  sender : Option Uuid
  connectionName : String
  portNumber : Nat

/-- What `world.write_message` writes. -/
inductive WorldMessage (τ : Type) [UserMessages τ]
  | fromServer (t : MessageType τ) (ev : MessageReceivedFromServer τ t)
  | fromClient (t : MessageType τ) (ev : MessageReceivedFromClient τ t)

structure MessageFunctions (τ : Type) [UserMessages τ] where
  deserialize : List UInt8 → Panicking (AnyMessage τ)
  dispatch : AnyMessage τ → NetworkSide → PortTypes → Nat → String → Option Uuid →
    Panicking (WorldMessage τ)
  isAuthenticationMessage : AnyMessage τ → Panicking Bool

def isAuthenticationMessage (t : MessageType τ) (message : AnyMessage τ) : Panicking Bool := do
  let messageDowncast ← Panicking.expectSome "Failed to downcast" (message.downcast t)
  return t.asAuthentication messageDowncast

def dispatchMessage (t : MessageType τ) (message : AnyMessage τ) (networkSide : NetworkSide)
    (portType : PortTypes) (portNumber : Nat) (connectionName : String) (sender : Option Uuid) :
    Panicking (WorldMessage τ) := do
  let messageDowncast ← Panicking.expectSome "Failed to downcast" (message.downcast t)
  match networkSide with
  | .server => return .fromClient t ⟨messageDowncast, portType, sender, connectionName, portNumber⟩
  | .client => return .fromServer t ⟨messageDowncast, portType, connectionName, portNumber⟩

@[simp] theorem isAuthenticationMessage_mk (t : MessageType τ) (m : t.Message) :
    isAuthenticationMessage t ⟨t, m⟩ = .ok (t.asAuthentication m) := by
  simp only [isAuthenticationMessage, AnyMessage.downcast_mk]
  rfl

@[simp] theorem dispatchMessage_server (t : MessageType τ) (m : t.Message) (portType : PortTypes)
    (portNumber : Nat) (connectionName : String) (sender : Option Uuid) :
    dispatchMessage t ⟨t, m⟩ .server portType portNumber connectionName sender =
      .ok (.fromClient t ⟨m, portType, sender, connectionName, portNumber⟩) := by
  simp only [dispatchMessage, AnyMessage.downcast_mk]
  rfl

@[simp] theorem dispatchMessage_client (t : MessageType τ) (m : t.Message) (portType : PortTypes)
    (portNumber : Nat) (connectionName : String) (sender : Option Uuid) :
    dispatchMessage t ⟨t, m⟩ .client portType portNumber connectionName sender =
      .ok (.fromServer t ⟨m, portType, connectionName, portNumber⟩) := by
  simp only [dispatchMessage, AnyMessage.downcast_mk]
  rfl

variable [Ciborium τ]

def deserializeMessage (t : MessageType τ) (bytes : List UInt8) : Panicking (AnyMessage τ) := do
  let msg ← Panicking.expect "Failed to decode message" (Ciborium.fromReader t bytes)
  return ⟨t, msg⟩

/-- The functions `register_message::<T>` enters. -/
def messageFunctions (t : MessageType τ) : MessageFunctions τ where
  deserialize := deserializeMessage t
  dispatch := dispatchMessage t
  isAuthenticationMessage := isAuthenticationMessage t

/-- `MessagesRegistry`. The types behind the entries are kept beside them: nothing but
`register_message` writes to the registry, so every entry is the erasure of its type. -/
structure MessagesRegistry (τ : Type) [DecidableEq τ] [UserMessages τ] [Ciborium τ] where
  count : BitVec 32
  functions : AssocMap (BitVec 32) (MessageFunctions τ)
  types : AssocMap (BitVec 32) (MessageType τ)
  erased : ∀ id, functions.lookup id = (types.lookup id).map messageFunctions

namespace MessagesRegistry

/-- `MessagesRegistry::default`. -/
def default : MessagesRegistry τ where
  count := 0
  functions := ∅
  types := ∅
  erased _ := by simp

/-- `register_message`. The counter wraps, as in a release build. -/
def registerMessage (t : MessageType τ) (registry : MessagesRegistry τ) : MessagesRegistry τ where
  count := registry.count + 1
  functions := registry.functions.insert (registry.count + 1) (messageFunctions t)
  types := registry.types.insert (registry.count + 1) t
  erased id := by
    by_cases h : id = registry.count + 1
    · subst h
      rw [AList.lookup_insert, AList.lookup_insert, Option.map_some]
    · rw [AList.lookup_insert_ne h, AList.lookup_insert_ne h, registry.erased]

end MessagesRegistry

omit [DecidableEq τ] in
theorem deserializeMessage_ok {t : MessageType τ} {bytes : List UInt8} {m : t.Message}
    (h : Ciborium.fromReader t bytes = .ok m) : deserializeMessage t bytes = .ok ⟨t, m⟩ := by
  simp only [deserializeMessage, h]
  rfl

omit [DecidableEq τ] in
theorem deserializeMessage_error {t : MessageType τ} {bytes : List UInt8} {e : String}
    (h : Ciborium.fromReader t bytes = .error e) :
    deserializeMessage t bytes = .error ("Failed to decode message: " ++ e) := by
  simp only [deserializeMessage, h]
  rfl

end Inator
