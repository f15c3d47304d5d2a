import Inator.Lib.Ieee

/-! The header options of the framed TCP ports and the values a header can hold
(`plugins/mod.rs`), with the side a process plays (`lib.rs`). -/

namespace Inator

inductive NetworkSide
  | server
  | client
  deriving DecidableEq, Repr

inductive OrderOptions
  | littleEndian
  | bigEndian
  deriving DecidableEq, Repr

inductive BytesOptions
  | u8 | u16 | u32 | u64 | u128
  | i8 | i16 | i32 | i64 | i128
  | f32 | f64
  deriving DecidableEq, Repr

/-- The fixed-width integers of the source are bit vectors, signed and unsigned alike. -/
inductive ReadValue
  | u8 (v : BitVec 8)
  | u16 (v : BitVec 16)
  | u32 (v : BitVec 32)
  | u64 (v : BitVec 64)
  | u128 (v : BitVec 128)
  | i8 (v : BitVec 8)
  | i16 (v : BitVec 16)
  | i32 (v : BitVec 32)
  | i64 (v : BitVec 64)
  | i128 (v : BitVec 128)
  | f32 (v : Ieee.F32)
  | f64 (v : Ieee.F64)
  deriving DecidableEq

/-- The header option a value belongs to. -/
def ReadValue.bytes : ReadValue → BytesOptions
  | .u8 _ => .u8 | .u16 _ => .u16 | .u32 _ => .u32 | .u64 _ => .u64 | .u128 _ => .u128
  | .i8 _ => .i8 | .i16 _ => .i16 | .i32 _ => .i32 | .i64 _ => .i64 | .i128 _ => .i128
  | .f32 _ => .f32 | .f64 _ => .f64

namespace BytesOptions

/-- The number of bytes of a header. -/
def width : BytesOptions → Nat
  | .u8 | .i8 => 1
  | .u16 | .i16 => 2
  | .u32 | .i32 | .f32 => 4
  | .u64 | .i64 | .f64 => 8
  | .u128 | .i128 => 16

/-- The largest value of the ten integer options. -/
def intMax : BytesOptions → Option Nat
  | .u8 => some (2 ^ 8 - 1)
  | .u16 => some (2 ^ 16 - 1)
  | .u32 => some (2 ^ 32 - 1)
  | .u64 => some (2 ^ 64 - 1)
  | .u128 => some (2 ^ 128 - 1)
  | .i8 => some (2 ^ 7 - 1)
  | .i16 => some (2 ^ 15 - 1)
  | .i32 => some (2 ^ 31 - 1)
  | .i64 => some (2 ^ 63 - 1)
  | .i128 => some (2 ^ 127 - 1)
  | .f32 | .f64 => none

theorem width_pos (bytes : BytesOptions) : 0 < bytes.width := by
  cases bytes <;> decide

end BytesOptions

end Inator
