import Inator.Lib.Endian
import Inator.Plugins.Options

/-! # Frame headers (`ports/tcp/reader_writer.rs`, `ports/tcp/read_writter_client.rs`)

The two files hold the same six functions, for the server's and for the client's TLS stream; in
each file the functions ending in `NotOwned` differ from the others in the stream type only. Each
body is given once, and each function of the source is an instance of it.

The stream is the list of bytes still to be read. `tokio`'s fixed-width methods are the
encoders of `Endian`; a read that meets the end of the stream fails. -/

namespace Inator

/-- `usize` on a 64-bit target. -/
abbrev Usize := BitVec 64

namespace Tokio

def writeLe (k : Nat) (v : BitVec w) : List UInt8 := Endian.littleBytes k v.toNat

def writeBe (k : Nat) (v : BitVec w) : List UInt8 := Endian.bigBytes k v.toNat

def readLe (k w : Nat) (s : List UInt8) : Option (BitVec w × List UInt8) :=
  if s.length < k then none else some (BitVec.ofNat w (Endian.ofLittle (s.take k)), s.drop k)

def readBe (k w : Nat) (s : List UInt8) : Option (BitVec w × List UInt8) :=
  if s.length < k then none else some (BitVec.ofNat w (Endian.ofBig (s.take k)), s.drop k)

theorem readLe_writeLe {k w : Nat} (hw : w = 8 * k) (v : BitVec w) (s : List UInt8) :
    readLe k w (writeLe k v ++ s) = some (v, s) := by
  simp [readLe, writeLe, Endian.ofNat_ofLittle hw]

theorem readBe_writeBe {k w : Nat} (hw : w = 8 * k) (v : BitVec w) (s : List UInt8) :
    readBe k w (writeBe k v ++ s) = some (v, s) := by
  simp [readBe, writeBe, Endian.ofNat_ofBig hw]

theorem readLe_head {k w : Nat} {head : List UInt8} (hw : head.length = k) :
    readLe k w head = some (BitVec.ofNat w (Endian.ofLittle head), []) := by
  subst hw
  rw [readLe, if_neg (Nat.lt_irrefl _), List.take_length, List.drop_length]

theorem readBe_head {k w : Nat} {head : List UInt8} (hw : head.length = k) :
    readBe k w head = some (BitVec.ofNat w (Endian.ofBig head), []) := by
  subst hw
  rw [readBe, if_neg (Nat.lt_irrefl _), List.take_length, List.drop_length]

/-- The reader takes `k` bytes, or fails for want of them; nothing after them is touched. -/
def Takes {α : Type} (k : Nat) (read : List UInt8 → Option (α × List UInt8)) : Prop :=
  ∃ decode : List UInt8 → α, ∀ s,
    read s = if s.length < k then none else some (decode (s.take k), s.drop k)

theorem takes_readLe (k w : Nat) : Takes k (readLe k w) :=
  ⟨fun head => BitVec.ofNat w (Endian.ofLittle head), fun _ => rfl⟩

theorem takes_readBe (k w : Nat) : Takes k (readBe k w) :=
  ⟨fun head => BitVec.ofNat w (Endian.ofBig head), fun _ => rfl⟩

theorem Takes.map {α β : Type} {k : Nat} {read : List UInt8 → Option (α × List UInt8)}
    (h : Takes k read) (f : α → β) : Takes k fun s => (read s).map (Prod.map f id) := by
  obtain ⟨decode, hdecode⟩ := h
  refine ⟨f ∘ decode, fun s => ?_⟩
  dsimp only
  rw [hdecode]
  split
  · rfl
  · rfl

end Tokio

namespace Header
open Tokio Ieee

/-- The body of `read_value_to_usize`. -/
def readValueToUsize : ReadValue → Usize
  | .u8 v => v.setWidth 64
  | .u16 v => v.setWidth 64
  | .u32 v => v.setWidth 64
  | .u64 v => v.setWidth 64
  | .u128 v => v.setWidth 64
  | .i8 v => v.signExtend 64
  | .i16 v => v.signExtend 64
  | .i32 v => v.signExtend 64
  | .i64 v => v.signExtend 64
  | .i128 v => v.signExtend 64
  | .f32 v => v.toUnsigned 64
  | .f64 v => v.toUnsigned 64

/-- The body of `value_from_number`. -/
def valueFromNumber (number : F64) : BytesOptions → ReadValue
  | .u8 => .u8 (number.toUnsigned 8)
  | .u16 => .u16 (number.toUnsigned 16)
  | .u32 => .u32 (number.toUnsigned 32)
  | .u64 => .u64 (number.toUnsigned 64)
  | .u128 => .u128 (number.toUnsigned 128)
  | .i8 => .i8 (number.toSigned 8)
  | .i16 => .i16 (number.toSigned 16)
  | .i32 => .i32 (number.toSigned 32)
  | .i64 => .i64 (number.toSigned 64)
  | .i128 => .i128 (number.toSigned 128)
  | .f32 => .f32 number.cast
  | .f64 => .f64 number

/-- The body of `write_from_settings` and `write_from_settings_not_owned`. -/
def writeFromSettings (value : ReadValue) (order : OrderOptions) : List UInt8 :=
  match value, order with
  | .u8 v, _ => writeBe 1 v
  | .u16 v, .littleEndian => writeLe 2 v
  | .u16 v, .bigEndian => writeBe 2 v
  | .u32 v, .littleEndian => writeLe 4 v
  | .u32 v, .bigEndian => writeBe 4 v
  | .u64 v, .littleEndian => writeLe 8 v
  | .u64 v, .bigEndian => writeBe 8 v
  | .u128 v, .littleEndian => writeLe 16 v
  | .u128 v, .bigEndian => writeBe 16 v
  | .i8 v, _ => writeBe 1 v
  | .i16 v, .littleEndian => writeLe 2 v
  | .i16 v, .bigEndian => writeBe 2 v
  | .i32 v, .littleEndian => writeLe 4 v
  | .i32 v, .bigEndian => writeBe 4 v
  | .i64 v, .littleEndian => writeLe 8 v
  | .i64 v, .bigEndian => writeBe 8 v
  | .i128 v, .littleEndian => writeLe 16 v
  | .i128 v, .bigEndian => writeBe 16 v
  | .f32 v, .littleEndian => writeLe 4 (v.toBits 32)
  | .f32 v, .bigEndian => writeBe 4 (v.toBits 32)
  | .f64 v, .littleEndian => writeLe 8 (v.toBits 64)
  | .f64 v, .bigEndian => writeBe 8 (v.toBits 64)

/-- The body of `read_from_settings` and `read_from_settings_not_owned`. -/
def readFromSettings (bytes : BytesOptions) (order : OrderOptions) (s : List UInt8) :
    Option (ReadValue × List UInt8) :=
  match bytes, order with
  | .u8, _ => (readBe 1 8 s).map (Prod.map .u8 id)
  | .u16, .littleEndian => (readLe 2 16 s).map (Prod.map .u16 id)
  | .u16, .bigEndian => (readBe 2 16 s).map (Prod.map .u16 id)
  | .u32, .littleEndian => (readLe 4 32 s).map (Prod.map .u32 id)
  | .u32, .bigEndian => (readBe 4 32 s).map (Prod.map .u32 id)
  | .u64, .littleEndian => (readLe 8 64 s).map (Prod.map .u64 id)
  | .u64, .bigEndian => (readBe 8 64 s).map (Prod.map .u64 id)
  | .u128, .littleEndian => (readLe 16 128 s).map (Prod.map .u128 id)
  | .u128, .bigEndian => (readBe 16 128 s).map (Prod.map .u128 id)
  | .i8, _ => (readBe 1 8 s).map (Prod.map .i8 id)
  | .i16, .littleEndian => (readLe 2 16 s).map (Prod.map .i16 id)
  | .i16, .bigEndian => (readBe 2 16 s).map (Prod.map .i16 id)
  | .i32, .littleEndian => (readLe 4 32 s).map (Prod.map .i32 id)
  | .i32, .bigEndian => (readBe 4 32 s).map (Prod.map .i32 id)
  | .i64, .littleEndian => (readLe 8 64 s).map (Prod.map .i64 id)
  | .i64, .bigEndian => (readBe 8 64 s).map (Prod.map .i64 id)
  | .i128, .littleEndian => (readLe 16 128 s).map (Prod.map .i128 id)
  | .i128, .bigEndian => (readBe 16 128 s).map (Prod.map .i128 id)
  | .f32, .littleEndian => (readLe 4 32 s).map (Prod.map (.f32 ∘ Binary.ofBits) id)
  | .f32, .bigEndian => (readBe 4 32 s).map (Prod.map (.f32 ∘ Binary.ofBits) id)
  | .f64, .littleEndian => (readLe 8 64 s).map (Prod.map (.f64 ∘ Binary.ofBits) id)
  | .f64, .bigEndian => (readBe 8 64 s).map (Prod.map (.f64 ∘ Binary.ofBits) id)

/-! ### Reading back what was written -/

theorem valueFromNumber_bytes (number : F64) (bytes : BytesOptions) :
    (valueFromNumber number bytes).bytes = bytes := by
  cases bytes <;> rfl

theorem length_writeFromSettings (value : ReadValue) (order : OrderOptions) :
    (writeFromSettings value order).length = value.bytes.width := by
  cases value <;> cases order <;>
    simp [writeFromSettings, writeLe, writeBe, ReadValue.bytes, BytesOptions.width]

/-- A header is read exactly when all its bytes are there, and nothing after it is touched. -/
theorem readFromSettings_spec (bytes : BytesOptions) (order : OrderOptions) :
    Takes bytes.width (readFromSettings bytes order) := by
  cases bytes <;> cases order
  all_goals
    first
    | exact (takes_readLe _ _).map _
    | exact (takes_readBe _ _).map _

theorem readFromSettings_short {bytes : BytesOptions} (order : OrderOptions) {s : List UInt8}
    (h : s.length < bytes.width) : readFromSettings bytes order s = none := by
  obtain ⟨decode, hdecode⟩ := readFromSettings_spec bytes order
  rw [hdecode, if_pos h]

theorem readFromSettings_rest {bytes : BytesOptions} {order : OrderOptions} {s rest : List UInt8}
    (h : readFromSettings bytes order s = some (value, rest)) :
    bytes.width ≤ s.length ∧ rest = s.drop bytes.width := by
  obtain ⟨decode, hdecode⟩ := readFromSettings_spec bytes order
  rw [hdecode] at h
  split at h
  · cases h
  · rename_i hlen
    cases h
    exact ⟨Nat.le_of_not_lt hlen, rfl⟩

/-- **Round trip of one header**, for each of the twelve options and both orders. -/
theorem readFromSettings_writeFromSettings (value : ReadValue) (order : OrderOptions)
    (s : List UInt8) :
    readFromSettings value.bytes order (writeFromSettings value order ++ s) = some (value, s) := by
  cases value <;> cases order <;>
    simp [readFromSettings, writeFromSettings, ReadValue.bytes, readLe_writeLe, readBe_writeBe,
      Binary.ofBits_toBits]

/-! ### The size a header states -/

/-- The size the reader gets from the header the writer makes for a payload of `n` bytes. -/
def sizeOfHeader (n : Nat) (bytes : BytesOptions) : Usize :=
  readValueToUsize (valueFromNumber (Binary.ofNat n) bytes)

theorem toNat_signExtend_of_lt {v : BitVec w} (h : v.toNat < 2 ^ (w - 1)) :
    (v.signExtend 64).toNat = v.toNat % 2 ^ 64 := by
  have hmsb : v.msb = false := by
    rw [BitVec.msb_eq_decide, decide_eq_false_iff_not]
    omega
  rw [BitVec.signExtend_eq_setWidth_of_msb_false hmsb, BitVec.toNat_setWidth]

/-- For the integer options the stated size is the number of bytes rounded to an `f64` and
clamped to the header type. -/
theorem sizeOfHeader_toNat {n m : Nat} {bytes : BytesOptions} (hint : bytes.intMax = some m)
    (hn : n < 2 ^ 63) : (sizeOfHeader n bytes).toNat = min (Binary.nearest 52 n) m := by
  have hrange : n.log2 + 1 < 2 ^ (11 - 1) := by
    rcases eq_or_ne n 0 with rfl | h0
    · decide
    · have := (Nat.log2_lt h0).mpr hn
      omega
  have hle : Binary.nearest 52 n ≤ 2 ^ 63 := Binary.nearest_le hn
  have hu (w : Nat) : ((Binary.ofNat n : F64).toUnsigned w).toNat = _ :=
    Binary.toUnsigned_ofNat w hrange
  have hs (w : Nat) (hw : 0 < w) : (((Binary.ofNat n : F64).toSigned w).signExtend 64).toNat =
      min (Binary.nearest 52 n) (2 ^ (w - 1) - 1) % 2 ^ 64 := by
    have hsig := Binary.toSigned_ofNat (e := 11) (f := 52) hw hrange
    have hpos := Nat.two_pow_pos (w - 1)
    rw [toNat_signExtend_of_lt (by omega), hsig]
  cases bytes <;> cases hint <;>
    simp only [sizeOfHeader, valueFromNumber, readValueToUsize, BitVec.toNat_setWidth, hu, hs,
      Nat.zero_lt_succ] <;>
    omega

end Header

/-! ### `ports/tcp/reader_writer.rs` -/

namespace ReaderWriter

def readValueToUsize := Header.readValueToUsize
def valueFromNumber := Header.valueFromNumber
def writeFromSettingsNotOwned := Header.writeFromSettings
def writeFromSettings := Header.writeFromSettings
def readFromSettingsNotOwned := Header.readFromSettings
def readFromSettings := Header.readFromSettings

end ReaderWriter

/-! ### `ports/tcp/read_writter_client.rs` -/

namespace ReadWritterClient

def readValueToUsize := Header.readValueToUsize
def valueFromNumber := Header.valueFromNumber
def writeFromSettingsNotOwned := Header.writeFromSettings
def writeFromSettings := Header.writeFromSettings
def readFromSettingsNotOwned := Header.readFromSettings
def readFromSettings := Header.readFromSettings

end ReadWritterClient

end Inator
