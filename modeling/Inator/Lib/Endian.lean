import Mathlib.Data.Nat.Basic
import Mathlib.Tactic.Ring

/-! # Fixed-width integers as bytes, in both byte orders

`littleBytes k n` and `bigBytes k n` are the `k` bytes of the low `8 * k` bits of `n`; reading
them back gives `n` modulo `256 ^ k`. Two's complement needs nothing more: a signed integer is
written as the bit vector that represents it. -/

namespace Endian

/-- The low `k` bytes of `n`, least significant first. -/
def littleBytes (k n : Nat) : List UInt8 := (List.range k).map fun i => UInt8.ofNat (n / 256 ^ i)

/-- The low `k` bytes of `n`, most significant first. -/
def bigBytes (k n : Nat) : List UInt8 := (littleBytes k n).reverse

def ofLittle (bytes : List UInt8) : Nat := bytes.foldr (fun b n => b.toNat + 256 * n) 0

def ofBig (bytes : List UInt8) : Nat := ofLittle bytes.reverse

@[simp] theorem length_littleBytes (k n : Nat) : (littleBytes k n).length = k := by
  simp [littleBytes]

@[simp] theorem length_bigBytes (k n : Nat) : (bigBytes k n).length = k := by
  simp [bigBytes]

theorem littleBytes_succ (k n : Nat) :
    littleBytes (k + 1) n = UInt8.ofNat n :: littleBytes k (n / 256) := by
  simp [littleBytes, List.range_succ_eq_map, Function.comp_def, Nat.pow_succ',
    Nat.div_div_eq_div_mul]

theorem ofLittle_littleBytes (k n : Nat) : ofLittle (littleBytes k n) = n % 256 ^ k := by
  induction k generalizing n with
  | zero => simp [littleBytes, ofLittle, Nat.mod_one]
  | succ k ih =>
    have hstep : ofLittle (littleBytes (k + 1) n) =
        (UInt8.ofNat n).toNat + 256 * ofLittle (littleBytes k (n / 256)) := by
      rw [littleBytes_succ]; rfl
    rw [hstep, ih, Nat.pow_succ', Nat.mod_mul]
    simp

theorem ofLittle_cons (b : UInt8) (bytes : List UInt8) :
    ofLittle (b :: bytes) = b.toNat + 256 * ofLittle bytes := rfl

theorem ofLittle_lt (bytes : List UInt8) : ofLittle bytes < 256 ^ bytes.length := by
  induction bytes with
  | nil => exact Nat.one_pos
  | cons b bytes ih =>
    have hb : b.toNat < 256 := b.toNat_lt
    rw [ofLittle_cons, List.length_cons, Nat.pow_succ']
    omega

theorem ofBig_lt (bytes : List UInt8) : ofBig bytes < 256 ^ bytes.length := by
  rw [ofBig, ← List.length_reverse]
  exact ofLittle_lt _

/-- A bit vector of `8 * k` bits survives its little-endian bytes. -/
theorem ofNat_ofLittle {k w : Nat} (hw : w = 8 * k) (v : BitVec w) :
    BitVec.ofNat w (ofLittle (littleBytes k v.toNat)) = v := by
  subst hw
  have hlt : v.toNat < 256 ^ k := by
    have := v.isLt
    rwa [Nat.pow_mul] at this
  rw [ofLittle_littleBytes, Nat.mod_eq_of_lt hlt, BitVec.ofNat_toNat, BitVec.setWidth_eq]

theorem ofNat_ofBig {k w : Nat} (hw : w = 8 * k) (v : BitVec w) :
    BitVec.ofNat w (ofBig (bigBytes k v.toNat)) = v := by
  rw [ofBig, bigBytes, List.reverse_reverse, ofNat_ofLittle hw]

end Endian
