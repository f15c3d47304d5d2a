import Inator.Verify.Reading

/-! # Whether a listener ends with its stream

The listeners of the native WebSocket ports go on after an error, and when the stream has ended
they ask it again for ever, so neither of them ends on any stream (`listeners_go_on`). The
listener of the browser's client, given the same items, ends with each of them
(`WasmClient.listen_ends`). The last section ties the loops to the events of the ports. -/

namespace Inator
open Loop

variable {ε : Type} {received : List UInt8 → ε} {down : ε} {items : List WebSocketItem}

/-- The payloads that come before the first error, or before the end. -/
def WebSocketItem.payloads : List WebSocketItem → List (List UInt8)
  | .binary bytes :: rest => bytes :: payloads rest
  | .other :: rest => payloads rest
  | .error :: _ | [] => []

/-- The loop ends on the stream, having forwarded the payloads and sent one notification. -/
def EndsWithStream (turn : List WebSocketItem → Turn (List WebSocketItem) ε Unit)
    (received : List UInt8 → ε) (down : ε) (items : List WebSocketItem) : Prop :=
  Ends turn items ((WebSocketItem.payloads items).map received ++ [down]) ()

/-! ## The native listeners -/

/-- What an item makes a native listener send. -/
def WebSocketItem.sends (received : List UInt8 → ε) (down : ε) : WebSocketItem → List ε
  | .binary bytes => [received bytes]
  | .error => [down]
  | .other => []

theorem WebSocketItem.turn_cons (item : WebSocketItem) (rest : List WebSocketItem) :
    turn received down (item :: rest) = .next (item.sends received down) rest := by
  cases item <;> rfl

/-- No turn leaves the loop. -/
theorem WebSocketItem.turn_goes_on (received : List UInt8 → ε) (down : ε)
    (items : List WebSocketItem) :
    ∃ sent rest, turn received down items = .next sent rest := by
  cases items with
  | nil => exact ⟨[], [], rfl⟩
  | cons item rest => exact ⟨_, rest, turn_cons item rest⟩

theorem WebSocketItem.not_ends {sent : List ε} {result : Unit} :
    ¬Ends (turn received down) items sent result := by
  refine Loop.not_ends (fun _ => True) (fun items _ => ?_) trivial
  obtain ⟨sent, rest, hturn⟩ := turn_goes_on received down items
  exact ⟨sent, rest, hturn, trivial⟩

/-- A native listener comes to the end of every stream, with a notification for each error and
none for the end, and then sends nothing more. -/
theorem WebSocketItem.arrives_end (items : List WebSocketItem) :
    Arrives (turn received down) items (items.flatMap (sends received down)) [] ∧
      ∀ sent rest, Arrives (turn received down) [] sent rest → sent = [] ∧ rest = [] := by
  constructor
  · induction items with
    | nil => exact .here
    | cons item rest ih => exact .next (turn_cons item rest) ih
  · exact fun sent rest h => h.stays rfl

/-- **A native WebSocket listener never ends**, on no stream, at either end of a connection. -/
theorem listeners_go_on (items : List WebSocketItem) :
    ¬EndsWithStream ClientWebSocket.listenTurn .messageReceived .connectionDown items ∧
      ∀ target, ¬EndsWithStream (ServerWebSocket.listenTurn target) (.messageReceived · target)
        (.clientDisconnected target true) items :=
  ⟨WebSocketItem.not_ends, fun _ => WebSocketItem.not_ends⟩

/-- A connection that is closed at once: the client's listener has sent nothing and goes on. -/
theorem closed_goes_on :
    ClientWebSocket.listenTurn [] = .next [] [] ∧
      ¬EndsWithStream ClientWebSocket.listenTurn .messageReceived .connectionDown [] :=
  ⟨rfl, WebSocketItem.not_ends⟩

/-! ## The browser's listener -/

/-- **The listener of a `WasmClient` ends with its stream.** -/
theorem WasmClient.listen_ends (items : List WebSocketItem) :
    EndsWithStream WasmClient.listenTurn .messageReceived .connectionDown items := by
  unfold EndsWithStream
  induction items with
  | nil => exact .last rfl
  | cons item rest ih =>
    cases item with
    | binary bytes =>
      have hturn : listenTurn (.binary bytes :: rest) = .next [.messageReceived bytes] rest := rfl
      exact (ends_next hturn).mpr ⟨_, ih, rfl⟩
    | other =>
      have hturn : listenTurn (.other :: rest) = .next [] rest := rfl
      exact (ends_next hturn).mpr ⟨_, ih, rfl⟩
    | error => exact .last rfl

/-! ## The events of the ports -/

/-- What a turn sends is what the task may send, and it has returned after that exactly when the
turn leaves the loop. -/
structure Follows {σ ρ : Type} (settings : ClientSettings) (task : ClientTask)
    (turn : σ → Turn σ ClientEvent ρ) : Prop where
  next : ∀ {s sent s'}, turn s = .next sent s' →
    ∀ event ∈ sent, event.By settings task ∧ event.returns settings task = false
  exit : ∀ {s sent result}, turn s = .exit sent result →
    ∀ event ∈ sent, event.By settings task ∧ event.returns settings task = true

variable {stream : Stream} {framing : StreamFraming}

theorem ClientTcp.readTurn_follows (settings : TcpSettingsClient) (memory : Allocator)
    (kind : StreamKind) :
    Follows (.tcp settings) (.read stream framing)
      (ClientTcp.readTurn memory kind settings.bytes settings.order) where
  next := by
    intro s sent s' h event hevent
    obtain ⟨head, body, -, -, -, -, rfl⟩ := turn_next h
    cases List.mem_singleton.mp hevent
    exact ⟨trivial, rfl⟩
  exit := by
    intro s sent result h event hevent
    rcases turn_exit h with ⟨rfl, -⟩ | ⟨rfl, -⟩
    · cases List.mem_singleton.mp hevent
      exact ⟨trivial, rfl⟩
    · cases hevent

theorem ClientWebSocket.listenTurn_follows (settings : WebSocketSettingsClient) :
    Follows (.webSocket settings) (.read stream framing) ClientWebSocket.listenTurn where
  next := by
    intro items sent rest h event hevent
    cases items with
    | nil =>
      cases h
      cases hevent
    | cons item items =>
      rw [ClientWebSocket.listenTurn, WebSocketItem.turn_cons] at h
      cases h
      cases item with
      | binary bytes =>
        cases List.mem_singleton.mp hevent
        exact ⟨trivial, rfl⟩
      | error =>
        cases List.mem_singleton.mp hevent
        exact ⟨trivial, rfl⟩
      | other => cases hevent
  exit := by
    intro items sent result h
    obtain ⟨sent', rest, hturn⟩ :=
      WebSocketItem.turn_goes_on ClientEvent.messageReceived .connectionDown items
    cases hturn.symm.trans h

theorem WasmClient.listenTurn_follows (settings : WasmSettingsClient) :
    Follows (.wasm settings) (.read stream framing) WasmClient.listenTurn where
  next := by
    intro items sent rest h event hevent
    cases items with
    | nil => cases h
    | cons item items =>
      cases item with
      | binary bytes =>
        cases h
        cases List.mem_singleton.mp hevent
        exact ⟨trivial, rfl⟩
      | other =>
        cases h
        cases hevent
      | error => cases h
  exit := by
    intro items sent result h event hevent
    have hsent : sent = [.connectionDown] := by
      cases items with
      | nil =>
        cases h
        rfl
      | cons item items => cases item <;> cases h; rfl
    subst hsent
    cases List.mem_singleton.mp hevent
    exact ⟨trivial, rfl⟩

end Inator
