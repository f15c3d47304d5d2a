import Inator.Ports.Tcp.Stream

/-! # TCP framing: the round trip, and what an oversized message does to it

A payload is framed correctly when its header states its length, that is, when its length is
still itself after the cast to `f64` and the saturating cast to the header type. On such
payloads the reader inverts the writer (`read_write_fits`). A payload that does not fit is
written all the same, behind a header that states another length. -/

namespace Inator
open Ieee

variable {memory : Allocator} {bytes : BytesOptions} {order : OrderOptions} {m : Nat}
  {msgs : List (List UInt8)}

/-- A length the header type, whose largest value is `m`, states as it is. -/
def FitsHeader (m n : Nat) : Prop := min (Binary.nearest 52 n) m = n

instance : Decidable (FitsHeader m n) := inferInstanceAs (Decidable (_ = _))

theorem FitsHeader.le (h : FitsHeader m n) : n ≤ m := by
  unfold FitsHeader at h
  omega

/-- Every length up to `2 ^ 53` that the header type can hold fits. -/
theorem FitsHeader.of_le (hm : n ≤ m) (hn : n ≤ 2 ^ 53) : FitsHeader m n := by
  rw [FitsHeader, Binary.nearest_of_le hn, Nat.min_eq_left hm]

/-- The size a reader takes from the header of a payload of `n` bytes. -/
theorem size_eq (hint : bytes.intMax = some m) (hn : n < 2 ^ 63) :
    (frameHeader bytes order).size (headerOf bytes order n) = min (Binary.nearest 52 n) m := by
  rw [size_headerOf, Header.sizeOfHeader_toNat hint hn]

/-- The bytes the writer tasks put on the stream, one task after the other. -/
def writeAll (io : FrameIo) (bytes : BytesOptions) (order : OrderOptions)
    (msgs : List (List UInt8)) : List UInt8 :=
  (msgs.map (WriteType.write io bytes order)).flatten

theorem writeAll_eq (side : NetworkSide) (kind : StreamKind) :
    writeAll (frameIo side kind) bytes order msgs =
      (msgs.map fun b => headerOf bytes order b.length ++ b).flatten := by
  simp only [writeAll, funext (write_eq side kind)]

/-- **Payloads that fit are delivered, whatever follows them on the stream.** -/
theorem parse_fits (order : OrderOptions) (hint : bytes.intMax = some m)
    (hlen : ∀ b ∈ msgs, b.length < 2 ^ 63) (hfit : ∀ b ∈ msgs, FitsHeader m b.length)
    (s : List UInt8) :
    Framing.parse (frameHeader bytes order)
        ((msgs.map fun b => headerOf bytes order b.length ++ b).flatten ++ s) =
      ⟨msgs ++ (Framing.parse (frameHeader bytes order) s).frames,
        (Framing.parse (frameHeader bytes order) s).ending⟩ := by
  have hsize : ∀ b ∈ msgs, (frameHeader bytes order).size (headerOf bytes order b.length) =
      b.length := fun b hb => (size_eq hint (hlen b hb)).trans (hfit b hb)
  refine Framing.parse_frames s (fun b _ => length_headerOf _) (fun b hb => ?_) hsize
  have := hlen b hb
  rw [hsize b hb]
  show b.length ≤ 2 ^ 63 - 1
  omega

theorem parse_nil : Framing.parse (frameHeader bytes order) [] = ⟨[], .cut []⟩ :=
  Framing.parse_short (frameHeader bytes order).width_pos

/-- The headers of payloads that fit state the lengths of these. -/
theorem met_fits (hint : bytes.intMax = some m) (hlen : ∀ b ∈ msgs, b.length < 2 ^ 63)
    (hfit : ∀ b ∈ msgs, FitsHeader m b.length) {head : List UInt8}
    (hmet : Framing.Met (frameHeader bytes order)
      (msgs.map fun b => headerOf bytes order b.length ++ b).flatten head) :
    ∃ b ∈ msgs, (frameHeader bytes order).size head = b.length := by
  induction msgs with
  | nil =>
    have hpos := (frameHeader bytes order).width_pos
    rw [← hmet.width] at hpos
    have hnil := hmet.length_le
    rw [List.map_nil, List.flatten_nil, List.length_nil] at hnil
    omega
  | cons b msgs ih =>
    obtain ⟨hb, hlen⟩ := List.forall_mem_cons.mp hlen
    obtain ⟨hfits, hfit⟩ := List.forall_mem_cons.mp hfit
    have hsize : (frameHeader bytes order).size (headerOf bytes order b.length) = b.length :=
      (size_eq hint hb).trans hfits
    rw [List.map_cons, List.flatten_cons, List.append_assoc] at hmet
    rcases hmet.cases (length_headerOf _) hsize with rfl | hlater
    · exact ⟨b, List.mem_cons_self, hsize⟩
    · obtain ⟨b', hb', hsize'⟩ := ih hlen hfit hlater
      exact ⟨b', List.mem_cons_of_mem _ hb', hsize'⟩

theorem read_write_fits (order : OrderOptions) (hint : bytes.intMax = some m)
    (hlen : ∀ b ∈ msgs, b.length < 2 ^ 63) (hfit : ∀ b ∈ msgs, FitsHeader m b.length)
    (hmemory : ∀ b ∈ msgs, memory.gives b.length = true)
    (writer reader : NetworkSide) (writeKind readKind : StreamKind) :
    ReadType.read memory (frameIo reader readKind) bytes order
        (writeAll (frameIo writer writeKind) bytes order msgs) =
      ⟨msgs, .disconnected []⟩ := by
  have h := parse_fits order hint hlen hfit []
  rw [List.append_nil, parse_nil, List.append_nil] at h
  rw [writeAll_eq, read_eq_parse, h]
  · rfl
  · intro head hmet
    obtain ⟨b, hb, hsize⟩ := met_fits hint hlen hfit hmet
    rw [hsize]
    exact hmemory b hb

/-- **Framing round trip.** For each of the ten integer options and both orders, whichever end
and kind of stream writes and whichever reads, messages whose lengths the header type holds
exactly are delivered as they were sent, and the stream ends between two frames. The reader has
memory for messages of these lengths. -/
theorem framing_roundTrip (writer reader : NetworkSide) (writeKind readKind : StreamKind)
    (bytes : BytesOptions) (order : OrderOptions) (m : Nat) (hint : bytes.intMax = some m)
    (msgs : List (List UInt8)) (hlen : ∀ b ∈ msgs, b.length ≤ m ∧ b.length ≤ 2 ^ 53)
    (memory : Allocator) (hmemory : ∀ b ∈ msgs, memory.gives b.length = true) :
    ReadType.read memory (frameIo reader readKind) bytes order
        (writeAll (frameIo writer writeKind) bytes order msgs) =
      ⟨msgs, .disconnected []⟩ :=
  read_write_fits order hint (fun b hb => by have := (hlen b hb).2; omega)
    (fun b hb => .of_le (hlen b hb).1 (hlen b hb).2) hmemory writer reader writeKind readKind

theorem framing_roundTrip_i8 :
    ReadType.read (.ofBits 16) (frameIo .client .tlsStream) .i8 .bigEndian
        (writeAll (frameIo .server .stream) .i8 .bigEndian [[7, 8], [], [255]]) =
      ⟨[[7, 8], [], [255]], .disconnected []⟩ :=
  framing_roundTrip .server .client .stream .tlsStream .i8 .bigEndian (2 ^ 7 - 1) rfl
    [[7, 8], [], [255]] (by decide) (.ofBits 16) (by decide)

/-! ## Oversized messages -/

/-- What a sender that rejects oversized messages guarantees: every payload delivered was sent,
the messages that fit are delivered intact and in order, and a message longer than the largest
header value puts no byte on the stream. -/
structure RejectsOversized (memory : Allocator) (writer reader : NetworkSide)
    (writeKind readKind : StreamKind) (bytes : BytesOptions) (order : OrderOptions) (m : Nat)
    (msgs : List (List UInt8)) : Prop where
  sent : ∀ p ∈ (ReadType.read memory (frameIo reader readKind) bytes order
    (writeAll (frameIo writer writeKind) bytes order msgs)).messages, p ∈ msgs
  intact : (ReadType.read memory (frameIo reader readKind) bytes order
    (writeAll (frameIo writer writeKind) bytes order msgs)).messages =
      msgs.filter fun b => b.length ≤ m
  silent : ∀ b ∈ msgs, m < b.length →
    WriteType.write (frameIo writer writeKind) bytes order b = []

theorem write_ne_nil (side : NetworkSide) (kind : StreamKind) (buf : List UInt8) :
    WriteType.write (frameIo side kind) bytes order buf ≠ [] := by
  rw [write_eq]
  intro h
  have hlen := congrArg List.length h
  have hpos := bytes.width_pos
  rw [List.length_append, length_headerOf] at hlen
  change bytes.width + buf.length = 0 at hlen
  omega

/-- A payload whose header states another length is never delivered at its place. -/
theorem parse_misfit (hint : bytes.intMax = some m) {pre post : List (List UInt8)}
    {b : List UInt8} (hlen : ∀ c ∈ pre ++ b :: post, c.length < 2 ^ 63)
    (hfit : ∀ c ∈ pre, FitsHeader m c.length) (hb : ¬FitsHeader m b.length) :
    ¬pre ++ b :: post <+: (Framing.parse (frameHeader bytes order)
      ((pre ++ b :: post).map fun c => headerOf bytes order c.length ++ c).flatten).frames := by
  intro h
  rw [List.map_append, List.flatten_append, List.map_cons, List.flatten_cons,
    parse_fits order hint (fun c hc => hlen c (List.mem_append_left _ hc)) hfit,
    List.append_assoc, List.prefix_append_right_inj] at h
  obtain ⟨rest, hframes⟩ := h
  have hhead := Framing.length_of_parse (length_headerOf b.length) hframes.symm
  rw [size_eq hint (hlen b (by simp))] at hhead
  exact hb hhead.symm

/-- Payloads that all fit but one are cut at the first that does not. -/
theorem exists_first_misfit (h : ¬∀ b ∈ msgs, FitsHeader m b.length) :
    ∃ pre b post, msgs = pre ++ b :: post ∧ (∀ c ∈ pre, FitsHeader m c.length) ∧
      ¬FitsHeader m b.length := by
  induction msgs with
  | nil => exact absurd (fun _ hb => nomatch hb) h
  | cons a msgs ih =>
    by_cases ha : FitsHeader m a.length
    · have hrest : ¬∀ b ∈ msgs, FitsHeader m b.length := fun hall =>
        h (List.forall_mem_cons.mpr ⟨ha, hall⟩)
      obtain ⟨pre, b, post, rfl, hpre, hb⟩ := ih hrest
      exact ⟨a :: pre, b, post, rfl, List.forall_mem_cons.mpr ⟨ha, hpre⟩, hb⟩
    · exact ⟨[], a, msgs, rfl, List.forall_mem_nil _, ha⟩

/-- **When oversized messages do no harm**: exactly when there are none. The header of each
message must state its length, which every length up to `2 ^ 53` within the header type
meets (`FitsHeader.of_le`) and no length beyond the header type does (`FitsHeader.le`). -/
theorem rejectsOversized_iff (writer reader : NetworkSide) (writeKind readKind : StreamKind)
    (bytes : BytesOptions) (order : OrderOptions) (m : Nat) (hint : bytes.intMax = some m)
    (msgs : List (List UInt8)) (hlen : ∀ b ∈ msgs, b.length < 2 ^ 63) (memory : Allocator)
    (hmemory : ∀ b ∈ msgs, memory.gives b.length = true) :
    RejectsOversized memory writer reader writeKind readKind bytes order m msgs ↔
      ∀ b ∈ msgs, FitsHeader m b.length := by
  constructor
  · intro h
    have hle : ∀ b ∈ msgs, b.length ≤ m := fun b hb =>
      Nat.le_of_not_lt fun hlt => write_ne_nil _ _ _ (h.silent b hb hlt)
    have hall : msgs.filter (fun b => b.length ≤ m) = msgs :=
      List.filter_eq_self.mpr fun b hb => decide_eq_true (hle b hb)
    by_contra hmis
    obtain ⟨pre, b, post, rfl, hpre, hb⟩ := exists_first_misfit hmis
    have hprefix : pre ++ b :: post <+: (Framing.parse (frameHeader bytes order)
        ((pre ++ b :: post).map fun c => headerOf bytes order c.length ++ c).flatten).frames := by
      have hgot := h.intact
      rw [hall, writeAll_eq] at hgot
      calc pre ++ b :: post = _ := hgot.symm
        _ <+: _ := read_messages_prefix reader readKind _
    exact parse_misfit hint hlen hpre hb hprefix
  · intro hfit
    have hread := read_write_fits order hint hlen hfit hmemory writer reader writeKind readKind
    refine ⟨?_, ?_, fun b hb hlt => absurd (hfit b hb).le (Nat.not_le.mpr hlt)⟩
    · rw [hread]
      exact fun p hp => hp
    · rw [hread]
      exact (List.filter_eq_self.mpr fun b hb => decide_eq_true (hfit b hb).le).symm

theorem rejectsOversized_u8 :
    RejectsOversized (.ofBits 16) .client .server .stream .stream .u8 .littleEndian (2 ^ 8 - 1)
        [[1], [2, 3]] ↔
      ∀ b ∈ [[1], [2, 3]], FitsHeader (2 ^ 8 - 1) (b : List UInt8).length :=
  rejectsOversized_iff .client .server .stream .stream .u8 .littleEndian (2 ^ 8 - 1) rfl
    [[1], [2, 3]] (by decide) (.ofBits 16) (by decide)

/-- A message of 256 bytes behind a one-byte header: the reader delivers its first 255 bytes
as a message, and takes the last one for a header. -/
theorem oversized_u8 :
    (ReadType.read (.ofBits 16) (frameIo .server .stream) .u8 .littleEndian
        (writeAll (frameIo .client .stream) .u8 .littleEndian [List.replicate 256 0])).messages =
          [List.replicate 255 0, []] ∧
      ¬RejectsOversized (.ofBits 16) .client .server .stream .stream .u8 .littleEndian (2 ^ 8 - 1)
        [List.replicate 256 0] := by
  have hwire : writeAll (frameIo .client .stream) .u8 .littleEndian [List.replicate 256 0] =
      [255] ++ (List.replicate 255 0 ++ ([0] ++ ([] ++ []))) := by
    rw [writeAll_eq, List.map_singleton, List.flatten_singleton, List.length_replicate,
      show headerOf .u8 .littleEndian 256 = [255] by decide, List.append_nil, List.append_nil]
    exact congrArg _ List.replicate_succ'
  have hsize : (frameHeader .u8 .littleEndian).size [255] = 255 := by decide
  have hzero : (frameHeader .u8 .littleEndian).size [0] = ([] : List UInt8).length := by decide
  have hread : (ReadType.read (.ofBits 16) (frameIo .server .stream) .u8 .littleEndian
      (writeAll (frameIo .client .stream) .u8 .littleEndian [List.replicate 256 0])).messages =
        [List.replicate 255 0, []] := by
    rw [hwire, read_eq_parse,
      Framing.parse_cons rfl (hsize.trans_le (show 255 ≤ 2 ^ 63 - 1 by omega))
        (hsize.trans List.length_replicate.symm),
      Framing.parse_cons rfl (hzero.trans_le (Nat.zero_le _)) hzero, parse_nil]
    · rfl
    · intro head hmet
      rcases hmet.cases rfl (hsize.trans List.length_replicate.symm) with rfl | hmet
      · rw [hsize]
        rfl
      · rcases hmet.cases rfl hzero with rfl | hmet
        · rw [hzero]
          rfl
        · exact absurd hmet.length_le (by rw [hmet.width]; decide)
  refine ⟨hread, fun h => ?_⟩
  have hmem := h.sent (List.replicate 255 0) (by rw [hread]; exact List.mem_cons_self)
  have hlength := congrArg List.length (List.mem_singleton.mp hmem)
  rw [List.length_replicate, List.length_replicate] at hlength
  omega

end Inator
