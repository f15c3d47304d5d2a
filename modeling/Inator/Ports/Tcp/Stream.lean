import Inator.Lib.Framing
import Inator.Ports.Tcp.ReaderWriter

/-! # One writer, one reader (`ReadType::read`, `WriteType::write` of `ports/tcp`)

The body of a writer task puts the header and the payload on the stream. The body of a reader
task turns a finite stream into the payloads it forwards; it ends by sending its disconnect
notification, by a panic when a header states more than `isize::MAX` bytes, or with the whole
process when there is no memory for as many as it states. Both come in four copies, one for each
end and each kind of stream, which `frameIo` tells apart. -/

namespace Inator
open Ieee

/-- `isize::MAX`: `vec![0u8; size]` panics above it. -/
def isizeMax : Nat := 2 ^ 63 - 1

/-- The allocator, by the sizes of which it gives a buffer. Where it gives none
`handle_alloc_error` aborts the process. -/
structure Allocator where
  gives : Nat → Bool
  /-- An empty `Vec` needs no memory. -/
  empty : gives 0 = true

/-- It has memory for the sizes below `2 ^ bits`. -/
def Allocator.ofBits (bits : Nat) : Allocator := ⟨fun size => size < 2 ^ bits, by simp⟩

inductive StreamKind
  | stream
  | tlsStream
  deriving DecidableEq, Repr

/-- The functions one copy of the reader and the writer is built from. -/
structure FrameIo where
  valueFromNumber : F64 → BytesOptions → ReadValue
  writeFromSettings : ReadValue → OrderOptions → List UInt8
  readFromSettings : BytesOptions → OrderOptions → List UInt8 → Option (ReadValue × List UInt8)
  readValueToUsize : ReadValue → Usize
  shrinks : ∀ {bytes order s value rest},
    readFromSettings bytes order s = some (value, rest) → rest.length < s.length

theorem Header.readFromSettings_shrinks
    (h : Header.readFromSettings bytes order s = some (value, rest)) : rest.length < s.length := by
  obtain ⟨hlen, rfl⟩ := Header.readFromSettings_rest h
  have := bytes.width_pos
  rw [List.length_drop]
  omega

/-- The functions called at each end (`server.rs`, `client.rs`) on each kind of stream. -/
def frameIo : NetworkSide → StreamKind → FrameIo
  | .server, .stream => {
      valueFromNumber := ReaderWriter.valueFromNumber
      writeFromSettings := ReaderWriter.writeFromSettings
      readFromSettings := ReaderWriter.readFromSettings
      readValueToUsize := ReaderWriter.readValueToUsize
      shrinks := Header.readFromSettings_shrinks }
  | .server, .tlsStream => {
      valueFromNumber := ReaderWriter.valueFromNumber
      writeFromSettings := ReaderWriter.writeFromSettingsNotOwned
      readFromSettings := ReaderWriter.readFromSettingsNotOwned
      readValueToUsize := ReaderWriter.readValueToUsize
      shrinks := Header.readFromSettings_shrinks }
  | .client, .stream => {
      valueFromNumber := ReadWritterClient.valueFromNumber
      writeFromSettings := ReadWritterClient.writeFromSettings
      readFromSettings := ReadWritterClient.readFromSettings
      readValueToUsize := ReadWritterClient.readValueToUsize
      shrinks := Header.readFromSettings_shrinks }
  | .client, .tlsStream => {
      valueFromNumber := ReadWritterClient.valueFromNumber
      writeFromSettings := ReadWritterClient.writeFromSettingsNotOwned
      readFromSettings := ReadWritterClient.readFromSettingsNotOwned
      readValueToUsize := ReadWritterClient.readValueToUsize
      shrinks := Header.readFromSettings_shrinks }

/-- How a reader task ends: with its notification, having met the end of the stream after the
bytes `cut` of a frame, with a panic, or with the process. -/
inductive ReadEnd
  | disconnected (cut : List UInt8)
  | panicked
  | aborted
  deriving DecidableEq

structure ReadOutcome where
  messages : List (List UInt8)
  ending : ReadEnd
  deriving DecidableEq

/-- The loop of `ReadType::read` on a finite stream. -/
def ReadType.read (memory : Allocator) (io : FrameIo) (bytes : BytesOptions)
    (order : OrderOptions) (s : List UInt8) : ReadOutcome :=
  match _h : io.readFromSettings bytes order s with
  | none => ⟨[], .disconnected s⟩
  | some (value, rest) =>
    -- `vec![0u8; size]`
    if isizeMax < (io.readValueToUsize value).toNat then ⟨[], .panicked⟩
    else if !memory.gives (io.readValueToUsize value).toNat then ⟨[], .aborted⟩
    else if rest.length < (io.readValueToUsize value).toNat then ⟨[], .disconnected s⟩
    else
      let tail := ReadType.read memory io bytes order (rest.drop (io.readValueToUsize value).toNat)
      ⟨rest.take (io.readValueToUsize value).toNat :: tail.messages, tail.ending⟩
termination_by s.length
decreasing_by
  have := io.shrinks _h
  rw [List.length_drop]
  omega

/-- The bytes a task of `WriteType::write` puts on the stream. -/
def WriteType.write (io : FrameIo) (bytes : BytesOptions) (order : OrderOptions)
    (buf : List UInt8) : List UInt8 :=
  io.writeFromSettings (io.valueFromNumber (Binary.ofNat buf.length) bytes) order ++ buf

/-! ## The four copies agree -/

theorem frameIo_eq (side : NetworkSide) (kind : StreamKind) :
    frameIo side kind = frameIo .server .stream := by
  cases side <;> cases kind <;> rfl

/-- The frames of a port, as a header format. -/
def frameHeader (bytes : BytesOptions) (order : OrderOptions) : Framing.Header UInt8 where
  width := bytes.width
  width_pos := bytes.width_pos
  size head := ((Header.readFromSettings bytes order head).map
    fun r => (Header.readValueToUsize r.1).toNat).getD 0
  limit := isizeMax

/-- The header a writer makes for a payload of `n` bytes. -/
def headerOf (bytes : BytesOptions) (order : OrderOptions) (n : Nat) : List UInt8 :=
  Header.writeFromSettings (Header.valueFromNumber (Binary.ofNat n) bytes) order

variable {bytes : BytesOptions} {order : OrderOptions}

theorem length_headerOf (n : Nat) :
    (headerOf bytes order n).length = (frameHeader bytes order).width := by
  rw [headerOf, Header.length_writeFromSettings, Header.valueFromNumber_bytes]
  rfl

theorem write_eq (side : NetworkSide) (kind : StreamKind) (buf : List UInt8) :
    WriteType.write (frameIo side kind) bytes order buf =
      headerOf bytes order buf.length ++ buf := by
  rw [frameIo_eq]
  rfl

/-- The reader gets from a written header the size `Header.sizeOfHeader`. -/
theorem size_headerOf (n : Nat) :
    (frameHeader bytes order).size (headerOf bytes order n) =
      (Header.sizeOfHeader n bytes).toNat := by
  have h := Header.readFromSettings_writeFromSettings
    (Header.valueFromNumber (Binary.ofNat n) bytes) order []
  rw [Header.valueFromNumber_bytes, List.append_nil] at h
  simp [frameHeader, headerOf, h, Header.sizeOfHeader]

/-- The outcome of a reader that cuts the stream so. -/
def ReadOutcome.ofParsed (p : Framing.Parsed UInt8) : ReadOutcome where
  messages := p.frames
  ending := match p.ending with
    | .cut rest => .disconnected rest
    | .refused => .panicked

/-- A complete header is read, with the size the frame format gives it. -/
theorem readFromSettings_head (order : OrderOptions) {s : List UInt8}
    (h : ¬s.length < bytes.width) :
    ∃ value, Header.readFromSettings bytes order s = some (value, s.drop bytes.width) ∧
      (frameHeader bytes order).size (s.take bytes.width) =
        (Header.readValueToUsize value).toNat := by
  obtain ⟨decode, hdecode⟩ := Header.readFromSettings_spec bytes order
  refine ⟨decode (s.take bytes.width), by rw [hdecode, if_neg h], ?_⟩
  have hhead : Header.readFromSettings bytes order (s.take bytes.width) =
      some (decode (s.take bytes.width), (s.take bytes.width).drop bytes.width) := by
    rw [hdecode, if_neg (by rw [List.length_take]; omega), List.take_take, Nat.min_self]
  simp [frameHeader, hhead]

section Read
variable {memory : Allocator} {io : FrameIo} {s : List UInt8}

theorem read_none (h : io.readFromSettings bytes order s = none) :
    ReadType.read memory io bytes order s = ⟨[], .disconnected s⟩ := by
  rw [ReadType.read]
  split
  · rfl
  · rename_i hsome
    rw [h] at hsome
    cases hsome

theorem read_some (h : io.readFromSettings bytes order s = some (value, rest)) :
    ReadType.read memory io bytes order s =
      if isizeMax < (io.readValueToUsize value).toNat then ⟨[], .panicked⟩
      else if !memory.gives (io.readValueToUsize value).toNat then ⟨[], .aborted⟩
      else if rest.length < (io.readValueToUsize value).toNat then ⟨[], .disconnected s⟩
      else
        let tail := ReadType.read memory io bytes order
          (rest.drop (io.readValueToUsize value).toNat)
        ⟨rest.take (io.readValueToUsize value).toNat :: tail.messages, tail.ending⟩ := by
  rw [ReadType.read]
  split
  · rename_i hnone
    rw [h] at hnone
    cases hnone
  · rename_i hsome
    rw [h] at hsome
    cases hsome
    rfl

/-- The loop at a complete header, in terms of its frame. -/
theorem read_head (side : NetworkSide) (kind : StreamKind) (h : ¬s.length < bytes.width) :
    ReadType.read memory (frameIo side kind) bytes order s =
      if isizeMax < (frameHeader bytes order).size (s.take bytes.width) then ⟨[], .panicked⟩
      else if !memory.gives ((frameHeader bytes order).size (s.take bytes.width)) then
        ⟨[], .aborted⟩
      else if (s.drop bytes.width).length <
        (frameHeader bytes order).size (s.take bytes.width) then ⟨[], .disconnected s⟩
      else
        let tail := ReadType.read memory (frameIo side kind) bytes order
          ((s.drop bytes.width).drop ((frameHeader bytes order).size (s.take bytes.width)))
        ⟨(s.drop bytes.width).take ((frameHeader bytes order).size (s.take bytes.width)) ::
          tail.messages, tail.ending⟩ := by
  obtain ⟨value, hv, heq⟩ := readFromSettings_head order h
  have hread : (frameIo side kind).readFromSettings = Header.readFromSettings := by
    rw [frameIo_eq]
    rfl
  have hsize : (frameIo side kind).readValueToUsize = Header.readValueToUsize := by
    rw [frameIo_eq]
    rfl
  rw [read_some (hread ▸ hv), hsize, ← heq]

theorem read_short (side : NetworkSide) (kind : StreamKind) (h : s.length < bytes.width) :
    ReadType.read memory (frameIo side kind) bytes order s = ⟨[], .disconnected s⟩ := by
  apply read_none
  rw [frameIo_eq]
  exact Header.readFromSettings_short order h

/-- **The reader loop is the parser** of the frames of its port, as long as there is memory for
the sizes that it meets. -/
theorem read_eq_parse (side : NetworkSide) (kind : StreamKind)
    (hmemory : ∀ head, Framing.Met (frameHeader bytes order) s head →
      memory.gives ((frameHeader bytes order).size head) = true) :
    ReadType.read memory (frameIo side kind) bytes order s =
      .ofParsed (Framing.parse (frameHeader bytes order) s) := by
  induction s using Framing.parse.induct (frameHeader bytes order) with
  | case1 s h =>
    rw [read_short side kind h, Framing.parse_short h]
    rfl
  | case2 s h hl =>
    rw [read_head side kind h, Framing.parse, if_neg h, if_pos hl]
    change isizeMax < (frameHeader bytes order).size (s.take bytes.width) at hl
    rw [if_pos hl]
    rfl
  | case3 s h hl hs =>
    have hgives := hmemory _ (Framing.Met.of_take h)
    rw [read_head side kind h, Framing.parse, if_neg h, if_neg hl, if_pos hs]
    change ¬isizeMax < (frameHeader bytes order).size (s.take bytes.width) at hl
    change (s.drop bytes.width).length < (frameHeader bytes order).size (s.take bytes.width) at hs
    change memory.gives ((frameHeader bytes order).size (s.take bytes.width)) = true at hgives
    rw [if_neg hl, if_neg (by rw [hgives]; exact Bool.false_ne_true), if_pos hs]
    rfl
  | case4 s h hl hs ih =>
    have hgives := hmemory _ (Framing.Met.of_take h)
    have hrest := ih fun head hmet => hmemory head (Framing.Met.of_drop h hs hmet)
    rw [read_head side kind h, Framing.parse, if_neg h, if_neg hl, if_neg hs]
    change ¬isizeMax < (frameHeader bytes order).size (s.take bytes.width) at hl
    change ¬(s.drop bytes.width).length < (frameHeader bytes order).size (s.take bytes.width) at hs
    change memory.gives ((frameHeader bytes order).size (s.take bytes.width)) = true at hgives
    change ReadType.read memory _ bytes order ((s.drop bytes.width).drop
      ((frameHeader bytes order).size (s.take bytes.width))) = _ at hrest
    rw [if_neg hl, if_neg (by rw [hgives]; exact Bool.false_ne_true), if_neg hs, hrest]
    rfl

/-- Whatever memory there is, what the loop forwards begins the frames of its stream. -/
theorem read_messages_prefix (side : NetworkSide) (kind : StreamKind) (s : List UInt8) :
    (ReadType.read memory (frameIo side kind) bytes order s).messages <+:
      (Framing.parse (frameHeader bytes order) s).frames := by
  induction s using Framing.parse.induct (frameHeader bytes order) with
  | case1 s h =>
    rw [read_short side kind h]
    exact List.nil_prefix
  | case2 s h hl =>
    change isizeMax < (frameHeader bytes order).size (s.take bytes.width) at hl
    rw [read_head side kind h, if_pos hl]
    exact List.nil_prefix
  | case3 s h hl hs =>
    change ¬isizeMax < (frameHeader bytes order).size (s.take bytes.width) at hl
    change (s.drop bytes.width).length < (frameHeader bytes order).size (s.take bytes.width) at hs
    rw [read_head side kind h, if_neg hl, if_pos hs]
    split <;> exact List.nil_prefix
  | case4 s h hl hs ih =>
    rw [read_head side kind h, Framing.parse, if_neg h, if_neg hl, if_neg hs]
    change ¬isizeMax < (frameHeader bytes order).size (s.take bytes.width) at hl
    change ¬(s.drop bytes.width).length < (frameHeader bytes order).size (s.take bytes.width) at hs
    rw [if_neg hl, if_neg hs]
    split
    · exact List.nil_prefix
    · exact List.cons_prefix_cons.mpr ⟨rfl, ih⟩

end Read

end Inator
