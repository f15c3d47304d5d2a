import Inator.Ports.Listeners

/-! # What a peer can do to a TCP reader

The loop of `ReadType::read` against the grammar of frames. A header ends the task without its
notification exactly when the cast of its value to `usize` is a size that no buffer can have
(`readValueToUsize_ofSpelled`), or one for which the allocator has none. On a stream without such a
header the loop forwards the bodies of the complete frames, and then sends its one notification
(`reads_frames`). -/

namespace Inator
open Framing Loop Tokio

variable {memory : Allocator} {bytes : BytesOptions} {order : OrderOptions} {s : List UInt8}
  {m : Nat}

/-! ## The value of a header -/

/-- The number that the bytes of a header spell. -/
def Header.spelled (order : OrderOptions) (head : List UInt8) : Nat :=
  match order with
  | .littleEndian => Endian.ofLittle head
  | .bigEndian => Endian.ofBig head

/-- The value of a header whose bytes spell `n`. -/
def ReadValue.ofSpelled (n : Nat) : BytesOptions → ReadValue
  | .u8 => .u8 (BitVec.ofNat 8 n)
  | .u16 => .u16 (BitVec.ofNat 16 n)
  | .u32 => .u32 (BitVec.ofNat 32 n)
  | .u64 => .u64 (BitVec.ofNat 64 n)
  | .u128 => .u128 (BitVec.ofNat 128 n)
  | .i8 => .i8 (BitVec.ofNat 8 n)
  | .i16 => .i16 (BitVec.ofNat 16 n)
  | .i32 => .i32 (BitVec.ofNat 32 n)
  | .i64 => .i64 (BitVec.ofNat 64 n)
  | .i128 => .i128 (BitVec.ofNat 128 n)
  | .f32 => .f32 (Ieee.Binary.ofBits (BitVec.ofNat 32 n))
  | .f64 => .f64 (Ieee.Binary.ofBits (BitVec.ofNat 64 n))

/-- The numbers that a peer may put in a header of an integer option: not negative, and below
`2 ^ 63` once the high bits of a 128-bit header are cut off. -/
def BytesOptions.Sized (n : Nat) : BytesOptions → Prop
  | .i8 => n < 2 ^ 7
  | .i16 => n < 2 ^ 15
  | .i32 => n < 2 ^ 31
  | .u64 | .i64 => n < 2 ^ 63
  | .u128 | .i128 => n % 2 ^ 64 < 2 ^ 63
  | .u8 | .u16 | .u32 | .f32 | .f64 => True

theorem Header.spelled_lt (order : OrderOptions) (head : List UInt8) :
    Header.spelled order head < 256 ^ head.length := by
  cases order with
  | littleEndian => exact Endian.ofLittle_lt head
  | bigEndian => exact Endian.ofBig_lt head

theorem Header.readFromSettings_spelled (order : OrderOptions) {head : List UInt8}
    (hw : head.length = bytes.width) :
    Header.readFromSettings bytes order head =
      some (.ofSpelled (Header.spelled order head) bytes, []) := by
  -- one byte spells the same number in both orders
  have hone : bytes.width = 1 → Endian.ofBig head = Header.spelled order head := by
    intro h1
    obtain ⟨b, rfl⟩ := List.length_eq_one_iff.mp (hw.trans h1)
    cases order <;> rfl
  cases bytes with
  | u8 | i8 =>
    simp only [BytesOptions.width] at hw
    rw [Header.readFromSettings, readBe_head hw, hone rfl]
    rfl
  | u16 | u32 | u64 | u128 | i16 | i32 | i64 | i128 | f32 | f64 =>
    simp only [BytesOptions.width] at hw
    cases order with
    | littleEndian =>
      rw [Header.readFromSettings, readLe_head hw]
      rfl
    | bigEndian =>
      rw [Header.readFromSettings, readBe_head hw]
      rfl

/-- A signed header is sign-extended, so that a negative one is a size above `isize::MAX`. -/
theorem toNat_signExtend_ofNat {w n : Nat} (hw : 0 < w) (h : w ≤ 64) (hn : n < 2 ^ w) :
    ((BitVec.ofNat w n).signExtend 64).toNat ≤ isizeMax ↔ n < 2 ^ (w - 1) := by
  have hmax : isizeMax = 2 ^ 63 - 1 := rfl
  have hle : 2 ^ (w - 1) ≤ 2 ^ 63 := Nat.pow_le_pow_right (by decide) (by omega)
  have htwo := Nat.two_pow_pred_add_two_pow_pred hw
  rw [BitVec.toNat_signExtend, BitVec.msb_eq_decide, BitVec.toNat_setWidth, BitVec.toNat_ofNat,
    Nat.mod_eq_of_lt hn]
  by_cases hneg : 2 ^ (w - 1) ≤ n
  · simp only [hneg, decide_true, if_true]
    omega
  · simp only [hneg, decide_false, Bool.false_eq_true, if_false]
    omega

/-- **The cast of a header to `usize`**, for the ten integer options. -/
theorem readValueToUsize_ofSpelled {n : Nat} (hint : bytes.intMax = some m)
    (hn : n < 256 ^ bytes.width) :
    (Header.readValueToUsize (.ofSpelled n bytes)).toNat ≤ isizeMax ↔ bytes.Sized n := by
  have hmax : isizeMax = 2 ^ 63 - 1 := rfl
  cases bytes with
  | u8 | u16 | u32 | u64 | u128 =>
    simp only [BytesOptions.width] at hn
    simp only [ReadValue.ofSpelled, Header.readValueToUsize, BitVec.toNat_setWidth,
      BitVec.toNat_ofNat, BytesOptions.Sized, iff_true]
    omega
  | i8 => exact toNat_signExtend_ofNat (by decide) (by decide) hn
  | i16 => exact toNat_signExtend_ofNat (by decide) (by decide) hn
  | i32 => exact toNat_signExtend_ofNat (by decide) (by decide) hn
  | i64 => exact toNat_signExtend_ofNat (by decide) (by decide) hn
  | i128 =>
    simp only [BytesOptions.width] at hn
    -- the cast of a 128-bit value keeps its low 64 bits, signed or not
    have htrunc : (BitVec.ofNat 128 n).signExtend 64 = (BitVec.ofNat 128 n).setWidth 64 :=
      BitVec.signExtend_eq_setWidth_of_le _ (by decide)
    simp only [ReadValue.ofSpelled, Header.readValueToUsize, htrunc, BitVec.toNat_setWidth,
      BitVec.toNat_ofNat, BytesOptions.Sized]
    omega
  | f32 | f64 => cases hint

theorem size_ofSpelled {head : List UInt8} (hw : head.length = bytes.width) :
    (frameHeader bytes order).size head =
      (Header.readValueToUsize (.ofSpelled (Header.spelled order head) bytes)).toNat := by
  simp only [frameHeader, Header.readFromSettings_spelled order hw, Option.map_some,
    Option.getD_some]

/-- The size of a frame is one that a buffer can have exactly when its header is such. -/
theorem size_le_iff (hint : bytes.intMax = some m) {head : List UInt8}
    (hw : head.length = bytes.width) :
    (frameHeader bytes order).size head ≤ isizeMax ↔ bytes.Sized (Header.spelled order head) := by
  rw [size_ofSpelled hw, readValueToUsize_ofSpelled hint (hw ▸ Header.spelled_lt order head)]

/-! ## A turn of the loop -/

section Turn
variable {ε : Type} {received : List UInt8 → ε} {down : ε} {side : NetworkSide}
  {kind : StreamKind}

theorem readFromSettings_frameIo (side : NetworkSide) (kind : StreamKind) :
    (frameIo side kind).readFromSettings = Header.readFromSettings := by
  rw [frameIo_eq]
  rfl

theorem readValueToUsize_frameIo (side : NetworkSide) (kind : StreamKind) :
    (frameIo side kind).readValueToUsize = Header.readValueToUsize := by
  rw [frameIo_eq]
  rfl

/-- A header is read, with the size of its frame. -/
theorem readFromSettings_append (order : OrderOptions) {head : List UInt8}
    (hw : head.length = bytes.width) (t : List UInt8) :
    ∃ value, Header.readFromSettings bytes order (head ++ t) = some (value, t) ∧
      (frameHeader bytes order).size head = (Header.readValueToUsize value).toNat := by
  have hlen : ¬(head ++ t).length < bytes.width := by
    rw [List.length_append]
    omega
  have h := readFromSettings_head order hlen
  rwa [List.take_left' hw, List.drop_left' hw] at h

/-- The turn that meets a header, in terms of its frame. -/
theorem turn_head (memory : Allocator) (order : OrderOptions) (received : List UInt8 → ε) (down : ε)
    (side : NetworkSide) (kind : StreamKind) {head : List UInt8} (hw : head.length = bytes.width)
    (t : List UInt8) :
    ReadType.turn memory (frameIo side kind) bytes order received down (head ++ t) =
      if isizeMax < (frameHeader bytes order).size head then .exit [] .panicked
      else if !memory.gives ((frameHeader bytes order).size head) then .exit [] .aborted
      else if t.length < (frameHeader bytes order).size head then .exit [down] .notified
      else .next [received (t.take ((frameHeader bytes order).size head))]
        (t.drop ((frameHeader bytes order).size head)) := by
  obtain ⟨value, hv, hsize⟩ := readFromSettings_append order hw t
  rw [ReadType.turn, readFromSettings_frameIo, hv, readValueToUsize_frameIo, hsize]

theorem turn_short (h : s.length < bytes.width) :
    ReadType.turn memory (frameIo side kind) bytes order received down s =
      .exit [down] .notified := by
  rw [ReadType.turn, readFromSettings_frameIo, Header.readFromSettings_short order h]

/-- A turn that goes on has taken a whole frame from the stream, and forwarded its body. -/
theorem turn_next {sent : List ε} {t : List UInt8}
    (h : ReadType.turn memory (frameIo side kind) bytes order received down s = .next sent t) :
    ∃ head body, head.length = bytes.width ∧ (frameHeader bytes order).size head = body.length ∧
      body.length ≤ isizeMax ∧ s = head ++ (body ++ t) ∧ sent = [received body] := by
  by_cases hw : s.length < bytes.width
  · rw [turn_short hw] at h
    cases h
  have hhead : (s.take bytes.width).length = bytes.width := by rw [List.length_take]; omega
  have hturn := turn_head memory order received down side kind hhead (s.drop bytes.width)
  rw [List.take_append_drop, h] at hturn
  split at hturn
  · cases hturn
  split at hturn
  · cases hturn
  split at hturn
  · cases hturn
  rename_i hl _ hs
  cases hturn
  have hbody : ((s.drop bytes.width).take
      ((frameHeader bytes order).size (s.take bytes.width))).length =
        (frameHeader bytes order).size (s.take bytes.width) := by
    rw [List.length_take]
    omega
  refine ⟨s.take bytes.width, _, hhead, hbody.symm, by omega, ?_, rfl⟩
  rw [List.take_append_drop, List.take_append_drop]

/-- A turn that leaves the loop sends its notification, or has met a size that no buffer can
have, or one for which there is no memory. -/
theorem turn_exit {sent : List ε} {result : ReadExit}
    (h : ReadType.turn memory (frameIo side kind) bytes order received down s = .exit sent result) :
    sent = [down] ∧ result = .notified ∨
      sent = [] ∧ ∃ head t, head.length = bytes.width ∧ s = head ++ t ∧
        (result = .panicked ∧ isizeMax < (frameHeader bytes order).size head ∨
          result = .aborted ∧ memory.gives ((frameHeader bytes order).size head) = false) := by
  by_cases hw : s.length < bytes.width
  · rw [turn_short hw] at h
    cases h
    exact .inl ⟨rfl, rfl⟩
  have hhead : (s.take bytes.width).length = bytes.width := by rw [List.length_take]; omega
  have hturn := turn_head memory order received down side kind hhead (s.drop bytes.width)
  rw [List.take_append_drop, h] at hturn
  split at hturn
  · rename_i hl
    cases hturn
    exact .inr ⟨rfl, _, _, hhead, (List.take_append_drop ..).symm, .inl ⟨rfl, hl⟩⟩
  split at hturn
  · rename_i hgives
    cases hturn
    exact .inr ⟨rfl, _, _, hhead, (List.take_append_drop ..).symm,
      .inr ⟨rfl, Bool.not_eq_true' _ ▸ hgives⟩⟩
  split at hturn
  · cases hturn
    exact .inl ⟨rfl, rfl⟩
  · cases hturn

/-- What the loop has sent on a stream that it reads so. -/
def ReadOutcome.sent (received : List UInt8 → ε) (down : ε) (o : ReadOutcome) : List ε :=
  match o.ending with
  | .disconnected _ => o.messages.map received ++ [down]
  | .panicked | .aborted => o.messages.map received

def ReadOutcome.exit (o : ReadOutcome) : ReadExit :=
  match o.ending with
  | .disconnected _ => .notified
  | .panicked => .panicked
  | .aborted => .aborted

/-- **Turn by turn, the loop is the function that reads the whole stream.** -/
theorem ends_read (bytes : BytesOptions) (order : OrderOptions) (received : List UInt8 → ε)
    (down : ε) (side : NetworkSide) (kind : StreamKind) (s : List UInt8) :
    Ends (ReadType.turn memory (frameIo side kind) bytes order received down) s
      ((ReadType.read memory (frameIo side kind) bytes order s).sent received down)
      (ReadType.read memory (frameIo side kind) bytes order s).exit := by
  induction s using ReadType.read.induct memory (frameIo side kind) bytes order with
  | case1 s h =>
    rw [read_none h]
    refine .last ?_
    rw [ReadType.turn, h]
    rfl
  | case2 s value rest h hl =>
    rw [read_some h, if_pos hl]
    refine .last ?_
    rw [ReadType.turn, h]
    simp only [if_pos hl]
    rfl
  | case3 s value rest h hl hg =>
    rw [read_some h, if_neg hl, if_pos hg]
    refine .last ?_
    rw [ReadType.turn, h]
    simp only [if_neg hl, if_pos hg]
    rfl
  | case4 s value rest h hl hg hs =>
    rw [read_some h, if_neg hl, if_neg hg, if_pos hs]
    refine .last ?_
    rw [ReadType.turn, h]
    simp only [if_neg hl, if_neg hg, if_pos hs]
    rfl
  | case5 s value rest h hl hg hs ih =>
    rw [read_some h, if_neg hl, if_neg hg, if_neg hs]
    have hturn : ReadType.turn memory (frameIo side kind) bytes order received down s =
        .next [received (rest.take ((frameIo side kind).readValueToUsize value).toNat)]
          (rest.drop ((frameIo side kind).readValueToUsize value).toNat) := by
      rw [ReadType.turn, h]
      simp only [if_neg hl, if_neg hg, if_neg hs]
    have hends := Ends.next hturn ih
    revert hends
    simp only [ReadOutcome.sent, ReadOutcome.exit]
    cases (ReadType.read memory (frameIo side kind) bytes order
      (rest.drop ((frameIo side kind).readValueToUsize value).toNat)).ending with
    | disconnected cut => exact id
    | panicked | aborted => exact id

end Turn

/-! ## Complete frames -/

section Server
variable {kind : StreamKind} {target : Uuid}

/-- A reader of an authenticated client does nothing with the channel. -/
theorem ServerTcp.simulates_authenticated :
    Simulates (fun (s : List UInt8) (p : List UInt8 × List (List Uuid)) => p.1 = s)
      (ReadType.turn memory (frameIo .server kind) bytes order (.messageReceived · target)
        (.clientDisconnected target true))
      (ServerTcp.readTurn memory kind bytes order target true) where
  next := by
    intro s p sent t hp h
    obtain ⟨s, channel⟩ := p
    cases hp
    refine ⟨(t, channel.tail), ?_, rfl⟩
    simp only [ServerTcp.readTurn, if_true, Bool.false_eq_true, if_false, h, List.nil_append]
  exit := by
    intro s p sent result hp h
    obtain ⟨s, channel⟩ := p
    cases hp
    simp only [ServerTcp.readTurn, if_true, Bool.false_eq_true, if_false, h, List.nil_append]

/-- Nor does one whose channel stays empty. -/
theorem ServerTcp.simulates_nil (isAuthenticated : Bool) :
    Simulates (fun (s : List UInt8) (p : List UInt8 × List (List Uuid)) => p = (s, []))
      (ReadType.turn memory (frameIo .server kind) bytes order (.messageReceived · target)
        (.clientDisconnected target isAuthenticated))
      (ServerTcp.readTurn memory kind bytes order target isAuthenticated) where
  next := by
    intro s p sent t hp h
    subst hp
    refine ⟨(t, []), ?_, rfl⟩
    simp only [ServerTcp.readTurn, List.headD_nil, ServerTcp.drain, ite_self, Bool.false_eq_true,
      if_false, h, List.nil_append, List.tail_nil]
  exit := by
    intro s p sent result hp h
    subst hp
    simp only [ServerTcp.readTurn, List.headD_nil, ServerTcp.drain, ite_self, Bool.false_eq_true,
      if_false, h, List.nil_append]

end Server

/-- The readers at both ends end on this stream, having forwarded these payloads and then sent
one notification. -/
structure Forwards (memory : Allocator) (kind : StreamKind) (bytes : BytesOptions)
    (order : OrderOptions) (s : List UInt8) (bodies : List (List UInt8)) : Prop where
  client : ∀ sent result, Ends (ClientTcp.readTurn memory kind bytes order) s sent result ↔
    sent = bodies.map ClientEvent.messageReceived ++ [.connectionDown] ∧ result = .notified
  server : ∀ target channel sent result,
    Ends (ServerTcp.readTurn memory kind bytes order target true) (s, channel) sent result ↔
      sent = (bodies.map fun body => TaskEvent.messageReceived body target) ++
        [.clientDisconnected target true] ∧ result = .notified

theorem ends_iff_of_ends {σ ε ρ : Type} {turn : σ → Turn σ ε ρ} {s : σ} {out : List ε} {r : ρ}
    (h : Ends turn s out r) {sent : List ε} {result : ρ} :
    Ends turn s sent result ↔ sent = out ∧ result = r := by
  constructor
  · exact fun hends => h.unique hends
  · intro heq
    obtain ⟨rfl, rfl⟩ := heq
    exact h

theorem Forwards.of_parse {bodies : List (List UInt8)} {rest : List UInt8}
    (h : parse (frameHeader bytes order) s = ⟨bodies, .cut rest⟩)
    (hmemory : ∀ head, Met (frameHeader bytes order) s head →
      memory.gives ((frameHeader bytes order).size head) = true) (kind : StreamKind) :
    Forwards memory kind bytes order s bodies := by
  constructor
  · intro sent result
    have hends : Ends (ReadType.turn memory (frameIo .client kind) bytes order
        ClientEvent.messageReceived .connectionDown) s _ _ := ends_read bytes order _ _ _ _ s
    rw [read_eq_parse .client kind hmemory, h] at hends
    exact ends_iff_of_ends hends
  · intro target channel sent result
    have hends : Ends (ReadType.turn memory (frameIo .server kind) bytes order
        (TaskEvent.messageReceived · target) (.clientDisconnected target true)) s _ _ :=
      ends_read bytes order _ _ _ _ s
    rw [read_eq_parse .server kind hmemory, h] at hends
    exact ends_iff_of_ends (hends.simulate ServerTcp.simulates_authenticated rfl)

/-- **The reader loop parses the frame grammar.** On a finite stream none of whose headers
states a size above `isize::MAX`, or one for which there is no memory, the loop at either end,
plain or TLS, forwards the bodies of the frames the stream is divided into, whatever is left of a
frame behind them, and ends with one notification; and what is forwarded of a beginning of the
stream is a beginning of what is forwarded of all of it. -/
theorem reads_frames (memory : Allocator) (kind : StreamKind) (bytes : BytesOptions)
    (order : OrderOptions) (s : List UInt8)
    (hsize : ∀ head, Met (frameHeader bytes order) s head →
      (frameHeader bytes order).size head ≤ isizeMax)
    (hmemory : ∀ head, Met (frameHeader bytes order) s head →
      memory.gives ((frameHeader bytes order).size head) = true) :
    (∃ bodies t rest, s = t ++ rest ∧ Frames (frameHeader bytes order) bodies t ∧
      Cut (frameHeader bytes order) rest) ∧
    (∀ bodies t rest, s = t ++ rest → Frames (frameHeader bytes order) bodies t →
      Cut (frameHeader bytes order) rest → Forwards memory kind bytes order s bodies) ∧
    ∀ p, p <+: s → ∃ part whole, Forwards memory kind bytes order p part ∧
      Forwards memory kind bytes order s whole ∧ part <+: whole := by
  refine ⟨exists_frames _ s, ?_, ?_⟩
  · intro bodies t rest hs hframes hcut
    subst hs
    exact .of_parse (parse_of_frames hframes hcut hsize) hmemory kind
  · intro p hp
    obtain ⟨q, rfl⟩ := hp
    obtain ⟨rest, hpart⟩ := parse_of_met fun head hmet => hsize head (hmet.append q)
    obtain ⟨rest', hwhole⟩ := parse_of_met hsize
    exact ⟨_, _, .of_parse hpart (fun head hmet => hmemory head (hmet.append q)) kind,
      .of_parse hwhole hmemory kind, parse_prefix p q⟩

/-- Two frames, the second one empty, and a body cut short. -/
theorem reads_frames_u8 :
    Forwards (.ofBits 16) .tlsStream .u8 .bigEndian [2, 7, 8, 0, 3, 1] [[7, 8], []] := by
  have hframes : Frames (frameHeader .u8 .bigEndian) [[7, 8], []]
      ([2] ++ ([7, 8] ++ ([0] ++ ([] ++ [])))) := .cons rfl rfl (.cons rfl rfl .nil)
  have hsize : ∀ head, Met (frameHeader .u8 .bigEndian) [2, 7, 8, 0, 3, 1] head →
      (frameHeader .u8 .bigEndian).size head < 2 ^ 16 := by
    intro head hmet
    have hw : head.length = BytesOptions.u8.width := hmet.width
    simp only [size_ofSpelled hw, ReadValue.ofSpelled, Header.readValueToUsize,
      BitVec.toNat_setWidth, BitVec.toNat_ofNat]
    omega
  exact (reads_frames (.ofBits 16) .tlsStream .u8 .bigEndian [2, 7, 8, 0, 3, 1]
    (fun _ hmet => (size_le_iff rfl hmet.width).mpr trivial)
    fun head hmet => decide_eq_true (hsize head hmet)).2.1 [[7, 8], []] _ [3, 1] rfl hframes
      (.inr (by decide))

/-- A header of eight bytes that states `2 ^ 62`, with the addresses of a process in 47 bits: the
process is aborted, and nothing has been sent. -/
theorem unallocated_u64 :
    ¬∀ memory kind bytes order s, (∀ head, Met (frameHeader bytes order) s head →
        (frameHeader bytes order).size head ≤ isizeMax) →
      ∀ bodies t rest, s = t ++ rest → Frames (frameHeader bytes order) bodies t →
        Cut (frameHeader bytes order) rest → Forwards memory kind bytes order s bodies := by
  intro h
  have hsize : (frameHeader .u64 .bigEndian).size [64, 0, 0, 0, 0, 0, 0, 0] = 2 ^ 62 := by decide
  have hmet : ∀ head, Met (frameHeader .u64 .bigEndian) [64, 0, 0, 0, 0, 0, 0, 0] head →
      (frameHeader .u64 .bigEndian).size head ≤ isizeMax := by
    intro head hmet
    cases hmet.eq_of_length_le (by decide)
    rw [hsize]
    decide
  have hforwards := h (.ofBits 47) .stream .u64 .bigEndian _ hmet [] [] _ rfl .nil
    (.inr (by decide))
  have hturn : ClientTcp.readTurn (.ofBits 47) .stream .u64 .bigEndian
      [64, 0, 0, 0, 0, 0, 0, 0] = .exit [] .aborted := by decide
  exact ReadExit.noConfusion ((hforwards.client [] .aborted).mp (.last hturn)).2

/-! ## Headers no buffer can have -/

/-- A loop withstands a stream if every size that it reads is one that a buffer can have, and if
it ends in its notification unless its client has been handed over. -/
structure Withstands {σ ε : Type} (turn : σ → Turn σ ε ReadExit) (down : ε) (io : FrameIo)
    (bytes : BytesOptions) (order : OrderOptions) (unread : σ → List UInt8) (start : σ) :
    Prop where
  size : ∀ sent s value rest, Arrives turn start sent s →
    io.readFromSettings bytes order (unread s) = some (value, rest) →
      (io.readValueToUsize value).toNat ≤ isizeMax
  ends : ∀ sent result, Ends turn start sent result → result = .handedOver ∨
    result = .notified ∧ ∃ before, sent = before ++ [down]

/-- The client's reader withstands the stream. -/
def ClientTcp.Withstands (memory : Allocator) (kind : StreamKind) (bytes : BytesOptions)
    (order : OrderOptions) (s : List UInt8) : Prop :=
  Inator.Withstands (readTurn memory kind bytes order) .connectionDown (frameIo .client kind) bytes
    order id s

/-- The server's reader does, whatever it finds in the `client_authenticated` channel. -/
def ServerTcp.Withstands (memory : Allocator) (kind : StreamKind) (bytes : BytesOptions)
    (order : OrderOptions) (target : Uuid) (isAuthenticated : Bool) (s : List UInt8) : Prop :=
  ∀ channel, Inator.Withstands (readTurn memory kind bytes order target isAuthenticated)
    (.clientDisconnected target isAuthenticated) (frameIo .server kind) bytes order Prod.fst
    (s, channel)

/-- Every header of the stream spells a number that a peer may put there, and states a size for
which there is memory. -/
def AllSized (memory : Allocator) (bytes : BytesOptions) (order : OrderOptions)
    (s : List UInt8) : Prop :=
  ∀ head, Met (frameHeader bytes order) s head → bytes.Sized (Header.spelled order head) ∧
    memory.gives ((frameHeader bytes order).size head) = true

section Withstands
variable {ε : Type} {received : List UInt8 → ε} {down : ε} {side : NetworkSide}
  {kind : StreamKind}

theorem AllSized.next (h : AllSized memory bytes order s) {sent : List ε} {t : List UInt8}
    (hturn : ReadType.turn memory (frameIo side kind) bytes order received down s =
      .next sent t) : AllSized memory bytes order t := by
  obtain ⟨head, body, hw, hs, -, rfl, -⟩ := turn_next hturn
  exact fun later hmet => h later (.later hw hs hmet)

/-- The size that a turn reads from such a stream. -/
theorem AllSized.size (hint : bytes.intMax = some m) (h : AllSized memory bytes order s)
    {value : ReadValue} {rest : List UInt8}
    (hread : (frameIo side kind).readFromSettings bytes order s = some (value, rest)) :
    ((frameIo side kind).readValueToUsize value).toNat ≤ isizeMax := by
  rw [readFromSettings_frameIo] at hread
  rw [readValueToUsize_frameIo]
  have hlen := (Header.readFromSettings_rest hread).1
  obtain ⟨value', hv, hsize⟩ := readFromSettings_head order (Nat.not_lt.mpr hlen)
  cases hread.symm.trans hv
  have hmet : Met (frameHeader bytes order) s (s.take bytes.width) := .of_take (Nat.not_lt.mpr hlen)
  rw [← hsize]
  exact (size_le_iff hint hmet.width).mpr (h _ hmet).1

/-- A turn that leaves the loop on such a stream sends the notification. -/
theorem AllSized.exit (hint : bytes.intMax = some m) (h : AllSized memory bytes order s)
    {sent : List ε} {result : ReadExit}
    (hturn : ReadType.turn memory (frameIo side kind) bytes order received down s =
      .exit sent result) : sent = [down] ∧ result = .notified := by
  rcases turn_exit hturn with hexit | ⟨-, head, t, hw, rfl, ⟨-, hlt⟩ | ⟨-, hnone⟩⟩
  · exact hexit
  · have hle : (frameHeader bytes order).size head ≤ isizeMax :=
      (size_le_iff hint hw).mpr (h head (.first hw)).1
    omega
  · cases hnone.symm.trans (h head (.first hw)).2

/-- The headers of a stream of whose turns none reads a size that is too large, and none ends the
process. -/
theorem allSized_of_arrives (hint : bytes.intMax = some m)
    (h : ∀ sent t value rest,
      Arrives (ReadType.turn memory (frameIo side kind) bytes order received down) s sent t →
        (frameIo side kind).readFromSettings bytes order t = some (value, rest) →
          ((frameIo side kind).readValueToUsize value).toNat ≤ isizeMax)
    (hends : ∀ sent, ¬Ends (ReadType.turn memory (frameIo side kind) bytes order received down) s
      sent .aborted) :
    AllSized memory bytes order s := by
  intro head hmet
  induction hmet with
  | @first head t hw =>
    obtain ⟨value, hv, hsize⟩ := readFromSettings_append order hw t
    have hle : (frameHeader bytes order).size head ≤ isizeMax := by
      rw [hsize, ← readValueToUsize_frameIo side kind]
      exact h [] _ value _ .here (by rw [readFromSettings_frameIo]; exact hv)
    refine ⟨(size_le_iff hint hw).mp hle, ?_⟩
    by_contra hnone
    have hturn := turn_head memory order received down side kind hw t
    rw [if_neg (Nat.not_lt.mpr hle), if_pos (by rw [Bool.eq_false_iff.mpr hnone]; rfl)] at hturn
    exact hends [] (.last hturn)
  | @later first t head body hw hs _ ih =>
    obtain ⟨value, hv, hsize⟩ := readFromSettings_append order hw (body ++ t)
    have hle : (frameHeader bytes order).size first ≤ isizeMax := by
      rw [hsize, ← readValueToUsize_frameIo side kind]
      exact h [] _ value _ .here (by rw [readFromSettings_frameIo]; exact hv)
    have hturn := turn_head memory order received down side kind hw (body ++ t)
    rw [if_neg (Nat.not_lt.mpr hle)] at hturn
    split at hturn
    · exact absurd (.last hturn) (hends [])
    · rw [if_neg (by rw [List.length_append]; omega), hs, List.drop_left] at hturn
      exact ih (fun sent u value rest harrives => h _ u value rest (.next hturn harrives))
        fun sent hlater => hends _ (.next hturn hlater)

end Withstands

namespace ServerTcp
variable {kind : StreamKind} {target : Uuid} {isAuthenticated : Bool}
  {p p' : List UInt8 × List (List Uuid)} {sent : List TaskEvent} {result : ReadExit}

/-- A turn that goes on has read what a turn without a channel reads. -/
theorem readTurn_next
    (h : readTurn memory kind bytes order target isAuthenticated p = .next sent p') :
    ∃ read, ReadType.turn memory (frameIo .server kind) bytes order
      (TaskEvent.messageReceived · target) (.clientDisconnected target isAuthenticated) p.1 =
        .next read p'.1 := by
  obtain ⟨s, channel⟩ := p
  rw [readTurn] at h
  generalize (if isAuthenticated = true then ([], false) else drain target (channel.headD [])) =
    drained at h
  split at h
  · cases h
  split at h
  · rename_i read rest hturn
    cases h
    exact ⟨read, hturn⟩
  · cases h

theorem readTurn_exit
    (h : readTurn memory kind bytes order target isAuthenticated p = .exit sent result) :
    result = .handedOver ∨ ∃ popped last, sent = popped ++ last ∧
      ReadType.turn memory (frameIo .server kind) bytes order (TaskEvent.messageReceived · target)
        (.clientDisconnected target isAuthenticated) p.1 = .exit last result := by
  obtain ⟨s, channel⟩ := p
  rw [readTurn] at h
  generalize (if isAuthenticated = true then ([], false) else drain target (channel.headD [])) =
    drained at h
  split at h
  · cases h
    exact .inl rfl
  split at h
  · cases h
  · rename_i last result' hturn
    cases h
    exact .inr ⟨_, last, rfl, hturn⟩

theorem withstands_iff (hint : bytes.intMax = some m) :
    ServerTcp.Withstands memory kind bytes order target isAuthenticated s ↔
      AllSized memory bytes order s := by
  constructor
  · intro h
    refine @allSized_of_arrives memory bytes order s m _ (TaskEvent.messageReceived · target)
      (.clientDisconnected target isAuthenticated) .server kind hint ?_ ?_
    · intro sent t value rest harrives hread
      obtain ⟨_, harrives', rfl⟩ := harrives.simulate (simulates_nil isAuthenticated) rfl
      exact (h []).size sent (t, []) value rest harrives' hread
    · intro sent hends
      rcases (h []).ends sent .aborted (hends.simulate (simulates_nil isAuthenticated) rfl) with
        hover | ⟨hnotified, -⟩
      · cases hover
      · cases hnotified
  · intro h channel
    have hsized : ∀ sent p, Arrives (readTurn memory kind bytes order target isAuthenticated)
        (s, channel) sent p → AllSized memory bytes order p.1 := by
      intro sent p harrives
      refine harrives.invariant (fun p => AllSized memory bytes order p.1) h ?_
      intro p sent p' hp hturn
      obtain ⟨read, hread⟩ := readTurn_next hturn
      exact hp.next hread
    constructor
    · exact fun sent p value rest harrives hread => (hsized sent p harrives).size hint hread
    · intro sent result hends
      obtain ⟨before, last, p, harrives, hlast, rfl⟩ := hends.exists_arrives
      rcases readTurn_exit hlast with hover | ⟨popped, last, rfl, hturn⟩
      · exact .inl hover
      · obtain ⟨rfl, rfl⟩ := (hsized _ _ harrives).exit hint hturn
        exact .inr ⟨rfl, before ++ popped, (List.append_assoc ..).symm⟩

end ServerTcp

theorem ClientTcp.withstands_iff {kind : StreamKind} (hint : bytes.intMax = some m) :
    ClientTcp.Withstands memory kind bytes order s ↔ AllSized memory bytes order s := by
  constructor
  · intro h
    refine allSized_of_arrives hint h.size fun sent hends => ?_
    rcases h.ends sent .aborted hends with hover | ⟨hnotified, -⟩
    · cases hover
    · cases hnotified
  · intro h
    have hsized : ∀ sent t, Arrives (ClientTcp.readTurn memory kind bytes order) s sent t →
        AllSized memory bytes order t := fun sent t harrives =>
      harrives.invariant (AllSized memory bytes order) h fun _ _ _ ht hturn => ht.next hturn
    constructor
    · exact fun sent t value rest harrives hread => (hsized sent t harrives).size hint hread
    · intro sent result hends
      obtain ⟨before, last, t, harrives, hlast, rfl⟩ := hends.exists_arrives
      obtain ⟨rfl, rfl⟩ := (hsized _ _ harrives).exit hint hlast
      exact .inr ⟨rfl, before, rfl⟩

/-- **When a peer cannot kill a TCP reader**: exactly when no header that it sends at the
beginning of a frame is negative, or states `2 ^ 63` or more in its low 64 bits, or states a size
for which there is no memory. This is so of the client's reader and of the server's, before and
after authentication, plain and TLS. -/
theorem withstands_iff_allSized (memory : Allocator) (kind : StreamKind) (bytes : BytesOptions)
    (order : OrderOptions) (m : Nat) (hint : bytes.intMax = some m) (s : List UInt8) :
    (ClientTcp.Withstands memory kind bytes order s ↔ AllSized memory bytes order s) ∧
      ∀ target isAuthenticated,
        (ServerTcp.Withstands memory kind bytes order target isAuthenticated s ↔
          AllSized memory bytes order s) :=
  ⟨ClientTcp.withstands_iff hint, fun _ _ => ServerTcp.withstands_iff hint⟩

theorem withstands_iff_allSized_i8 :
    ClientTcp.Withstands (.ofBits 16) .stream .i8 .bigEndian [2, 7, 8] ↔
      AllSized (.ofBits 16) .i8 .bigEndian [2, 7, 8] :=
  (withstands_iff_allSized (.ofBits 16) .stream .i8 .bigEndian (2 ^ 7 - 1) rfl [2, 7, 8]).1

/-- A header of one byte, `0xFF`: the task of an authenticated client's reader ends in a panic,
and has sent nothing. -/
theorem negative_i8_kills :
    Ends (ServerTcp.readTurn (.ofBits 47) .stream .i8 .bigEndian 7 true) ([255], []) []
        .panicked ∧
      ¬ServerTcp.Withstands (.ofBits 47) .stream .i8 .bigEndian 7 true [255] ∧
      ¬ClientTcp.Withstands (.ofBits 47) .stream .i8 .bigEndian [255] := by
  have hserver : ServerTcp.readTurn (.ofBits 47) .stream .i8 .bigEndian 7 true ([255], []) =
      .exit [] .panicked := rfl
  have hclient : ClientTcp.readTurn (.ofBits 47) .stream .i8 .bigEndian [255] =
      .exit [] .panicked := rfl
  refine ⟨.last hserver, fun h => ?_, fun h => ?_⟩
  · rcases (h []).ends [] .panicked (.last hserver) with hover | ⟨hnotified, -⟩
    · cases hover
    · cases hnotified
  · rcases h.ends [] .panicked (.last hclient) with hover | ⟨hnotified, -⟩
    · cases hover
    · cases hnotified

end Inator
