import Inator.Plugins.Messaging
import Inator.Plugins.Server

/-! # Authentication (`plugins/authentication.rs`)

`authentication_message_server` hands each message of its type to the handler of the type, and
enters the sender of a message that the handler accepts. A handler may keep state of its own,
so its answer may depend on which call it is. -/

namespace Inator
variable {τ : Type} [DecidableEq τ] [UserMessages τ] [Ciborium τ] {t : MessageType τ}

/-- `AuthenticationTrait::authenticate` of a message type, on the `n`-th message of a run of the
system. -/
structure AuthenticationTrait (t : MessageType τ) where
  authenticate : Nat → t.Message → ServerConnection → Bool × String

/-- `AuthenticationMessage::can_authenticate` and `authenticate`. -/
def AuthenticationMessage.authenticationTrait :
    AuthenticationTrait (.authenticationMessage : MessageType τ) where
  authenticate _ _ _ := (true, "Success")

namespace ServerConnection

/-- What the system does for a client its handler accepts. -/
def acceptClient (τ : Type) [UserMessages τ] [Ciborium τ] (serverConnection : ServerConnection)
    (uuid : Uuid) (portNumber : Nat) : ServerConnection :=
  let authenticated := serverConnection.authenticateClient uuid portNumber
  if portNumber = 0 then
    authenticated.onMainPort fun mainPort runtime =>
      (mainPort, mainPort.sendMessage (τ := τ) (t := .authenticatedUuid) ⟨uuid⟩ uuid runtime)
  else authenticated

end ServerConnection

/-- A message the handler was asked about, with its answer. -/
structure AuthenticateCall (τ : Type) [UserMessages τ] where
  type : MessageType τ
  event : MessageReceivedFromClient τ type
  answer : Bool

/-- The loop of `authentication_message_server`, from its `n`-th message on. -/
def authenticationLoop (handler : AuthenticationTrait t) (n : Nat)
    (serverConnections : ServerConnections) :
    List (MessageReceivedFromClient τ t) →
      Panicking (ServerConnections × List (AuthenticateCall τ))
  | [] => return (serverConnections, [])
  | ev :: evs => do
    let uuid ← Panicking.expectSome "called `Option::unwrap()` on a `None` value" ev.sender
    match serverConnections.lookup ev.connectionName with
    | none => authenticationLoop handler (n + 1) serverConnections evs
    | some serverConnection =>
      let (can, _) := handler.authenticate n ev.message serverConnection
      let entered :=
        if can then
          AssocMap.modify ev.connectionName
            (fun _ => serverConnection.acceptClient τ uuid ev.portNumber) serverConnections
        else serverConnections
      let (left, calls) ← authenticationLoop handler (n + 1) entered evs
      return (left, ⟨t, ev, can⟩ :: calls)

def authenticationMessageServer (handler : AuthenticationTrait t)
    (serverConnections : ServerConnections)
    (messageReceivedFromClient : List (MessageReceivedFromClient τ t)) :
    Panicking (ServerConnections × List (AuthenticateCall τ)) :=
  authenticationLoop handler 0 serverConnections messageReceivedFromClient

/-- What a call does to the connection of that name: the handler's answer counts. -/
def ServerConnection.settleCall (name : String) (serverConnection : ServerConnection)
    (call : AuthenticateCall τ) : ServerConnection :=
  if call.answer ∧ call.event.connectionName = name then
    match call.event.sender with
    | none => serverConnection
    | some uuid => serverConnection.acceptClient τ uuid call.event.portNumber
  else serverConnection

omit [DecidableEq τ] in
/-- **The loop settles its calls**, for each connection in order, and asks the handler about
nothing but its messages. -/
theorem authenticationLoop_spec {handler : AuthenticationTrait t} {n : Nat}
    {serverConnections left : ServerConnections} {evs : List (MessageReceivedFromClient τ t)}
    {calls : List (AuthenticateCall τ)}
    (h : authenticationLoop handler n serverConnections evs = .ok (left, calls)) :
    (∀ name, left.lookup name = (serverConnections.lookup name).map
      fun serverConnection => calls.foldl (ServerConnection.settleCall name) serverConnection) ∧
    ∀ call ∈ calls, ∃ ev ∈ evs, ∃ answer, call = ⟨t, ev, answer⟩ ∧ ev.sender.isSome := by
  induction evs generalizing n serverConnections left calls with
  | nil =>
    cases h
    refine ⟨fun name => ?_, nofun⟩
    exact Option.map_id'.symm
  | cons ev evs ih =>
    obtain ⟨uuid, huuid, h⟩ := Panicking.bind_eq_ok.mp h
    have hsender : ev.sender = some uuid := by
      cases hs : ev.sender with
      | none =>
        rw [hs] at huuid
        cases huuid
      | some uuid' =>
        rw [hs] at huuid
        cases huuid
        rfl
    cases hlookup : serverConnections.lookup ev.connectionName with
    | none =>
      simp only [hlookup] at h
      obtain ⟨hleft, hcalls⟩ := ih h
      refine ⟨hleft, fun call hcall => ?_⟩
      obtain ⟨ev', hev', found⟩ := hcalls call hcall
      exact ⟨ev', List.mem_cons_of_mem _ hev', found⟩
    | some serverConnection =>
      simp only [hlookup] at h
      obtain ⟨⟨left', calls'⟩, hloop, heq⟩ := Panicking.bind_eq_ok.mp h
      cases heq
      obtain ⟨hleft, hcalls⟩ := ih hloop
      refine ⟨fun name => ?_, fun call hcall => ?_⟩
      · rw [hleft]
        by_cases hname : name = ev.connectionName
        · subst hname
          cases hcan : (handler.authenticate n ev.message serverConnection).1 <;>
            simp [ServerConnection.settleCall, hsender, hlookup]
        · cases hcan : (handler.authenticate n ev.message serverConnection).1 <;>
            simp [ServerConnection.settleCall, AssocMap.lookup_modify_ne _ _ hname, Ne.symm hname]
      · rcases List.mem_cons.mp hcall with rfl | hcall
        · exact ⟨ev, List.mem_cons_self, _, rfl, by rw [hsender]; rfl⟩
        · obtain ⟨ev', hev', found⟩ := hcalls call hcall
          exact ⟨ev', List.mem_cons_of_mem _ hev', found⟩

/-- `authentication_message_client`, for one message. -/
def authenticationMessageClient (clientConnections : NetworkConnections ClientConnection)
    (ev : MessageReceivedFromServer τ .authenticatedUuid) : NetworkConnections ClientConnection :=
  AssocMap.modify ev.connectionName
    (fun clientConnection => { clientConnection with
      localUuid := some (AuthenticatedUuid.uuid ev.message) }) clientConnections

end Inator
