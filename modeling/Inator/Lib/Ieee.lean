import Mathlib.Data.Nat.Log
import Mathlib.Tactic.Ring
import Mathlib.Tactic.Linarith

/-! # Binary floating-point formats and their casts to and from integers

`Binary e f` is the IEEE 754 binary interchange format with `e` exponent bits and `f` fraction
bits, as its sign and the remaining bits read as a number. `ofScaled` rounds `m * 2 ^ s` to
nearest, ties to even; `toUnsigned` and `toSigned` truncate towards zero and saturate, with
`NaN` going to zero. `truncAbs_ofNat` says which naturals survive the trip. -/

namespace Ieee

/-- The encodings of the format: all bits but the sign bit are kept as one number. -/
structure Binary (e f : Nat) where
  sign : Bool
  mag : Nat
  mag_lt : mag < 2 ^ (e + f)
  deriving DecidableEq

abbrev F32 := Binary 8 23
abbrev F64 := Binary 11 52

/-- The magnitude of infinity; a larger magnitude is a `NaN`. -/
def infMag (e f : Nat) : Nat := (2 ^ e - 1) * 2 ^ f

/-- The exponent of the last place of subnormal numbers. -/
def minUlp (e f : Nat) : Int := 2 - 2 ^ (e - 1) - f

theorem infMag_lt (e f : Nat) : infMag e f < 2 ^ (e + f) := by
  rw [infMag, Nat.pow_add]
  exact Nat.mul_lt_mul_of_pos_right (Nat.sub_lt (Nat.two_pow_pos e) Nat.one_pos)
    (Nat.two_pow_pos f)

/-- The magnitude of the quiet `NaN` without a payload. -/
def quietMag (e f : Nat) : Nat := infMag e f + 2 ^ f / 2

theorem quietMag_lt (e f : Nat) : quietMag e f < 2 ^ (e + f) :=
  calc infMag e f + 2 ^ f / 2 < infMag e f + 2 ^ f :=
        Nat.add_lt_add_left (Nat.div_lt_self (Nat.two_pow_pos f) Nat.one_lt_two) _
    _ = 2 ^ e * 2 ^ f := by
        rw [infMag, Nat.sub_mul, Nat.one_mul]
        exact Nat.sub_add_cancel (Nat.le_mul_of_pos_left _ (Nat.two_pow_pos e))
    _ = 2 ^ (e + f) := (Nat.pow_add 2 e f).symm

namespace Binary
variable {e f : Nat}

def isNan (x : Binary e f) : Bool := infMag e f < x.mag

def isInf (x : Binary e f) : Bool := x.mag == infMag e f

/-- The integer significand of a finite number, with the hidden bit of normal numbers. -/
def significand (x : Binary e f) : Nat :=
  if x.mag / 2 ^ f = 0 then x.mag else x.mag % 2 ^ f + 2 ^ f

/-- The exponent of the last place of a finite number. -/
def ulp (x : Binary e f) : Int := minUlp e f + ((x.mag / 2 ^ f - 1 : Nat) : Int)

/-- The absolute value of a finite number, truncated to an integer. -/
def truncAbs (x : Binary e f) : Nat :=
  if 0 ≤ x.ulp then x.significand * 2 ^ x.ulp.toNat else x.significand / 2 ^ (-x.ulp).toNat

/-- The saturating cast to an unsigned integer of `w` bits. -/
def toUnsigned (w : Nat) (x : Binary e f) : BitVec w :=
  if x.isNan || x.sign then 0
  else if x.isInf then BitVec.ofNat w (2 ^ w - 1)
  else BitVec.ofNat w (min x.truncAbs (2 ^ w - 1))

/-- The saturating cast to a signed integer of `w` bits. -/
def toSigned (w : Nat) (x : Binary e f) : BitVec w :=
  if x.isNan then 0
  else if x.sign then
    if x.isInf then BitVec.ofNat w (2 ^ (w - 1)) else -BitVec.ofNat w (min x.truncAbs (2 ^ (w - 1)))
  else if x.isInf then BitVec.ofNat w (2 ^ (w - 1) - 1)
  else BitVec.ofNat w (min x.truncAbs (2 ^ (w - 1) - 1))

/-- `m / 2 ^ k` rounded to nearest, ties to even. -/
def roundShift (m k : Nat) : Nat :=
  if m % 2 ^ k * 2 < 2 ^ k then m / 2 ^ k
  else if 2 ^ k < m % 2 ^ k * 2 then m / 2 ^ k + 1
  else m / 2 ^ k + m / 2 ^ k % 2

/-- The magnitude of `m * 2 ^ s` rounded to the format. The two summands overlap in the hidden
bit, so a carry out of the significand moves to the exponent by itself. -/
def scaledMag (e f m : Nat) (s : Int) : Nat :=
  if m = 0 then 0 else
    let u := max (Nat.log2 m + s - f) (minUlp e f)
    let q := if s ≤ u then roundShift m (u - s).toNat else m * 2 ^ (s - u).toNat
    min ((u - minUlp e f).toNat * 2 ^ f + q) (infMag e f)

/-- The number nearest to `m * 2 ^ s`. -/
def ofScaled (sign : Bool) (m : Nat) (s : Int) : Binary e f where
  sign
  mag := scaledMag e f m s
  mag_lt := by
    refine Nat.lt_of_le_of_lt ?_ (infMag_lt e f)
    unfold scaledMag
    split
    · exact Nat.zero_le _
    · exact Nat.min_le_right _ _

/-- The cast of an unsigned integer. -/
def ofNat (n : Nat) : Binary e f := ofScaled false n 0

/-- The cast between formats. A `NaN` becomes the quiet one without a payload. -/
def cast {e' f' : Nat} (x : Binary e f) : Binary e' f' :=
  if x.isNan then ⟨x.sign, quietMag e' f', quietMag_lt e' f'⟩
  else if x.isInf then ⟨x.sign, infMag e' f', infMag_lt e' f'⟩
  else ofScaled x.sign x.significand x.ulp

/-- The encoding as a bit vector of `w = 1 + e + f` bits. -/
def toBits (w : Nat) (x : Binary e f) : BitVec w :=
  BitVec.ofNat w (x.sign.toNat * 2 ^ (e + f) + x.mag)

def ofBits {w : Nat} (v : BitVec w) : Binary e f where
  sign := v.toNat / 2 ^ (e + f) % 2 == 1
  mag := v.toNat % 2 ^ (e + f)
  mag_lt := Nat.mod_lt _ (Nat.two_pow_pos _)

@[simp] theorem ofNat_sign (n : Nat) : (ofNat n : Binary e f).sign = false := rfl

/-- The encoding determines the number. -/
theorem ofBits_toBits {w : Nat} (hw : w = 1 + e + f) (x : Binary e f) :
    (ofBits (x.toBits w) : Binary e f) = x := by
  subst hw
  obtain ⟨sign, mag, hmag⟩ := x
  have hpos := Nat.two_pow_pos (e + f)
  have hsign : sign.toNat ≤ 1 := Bool.toNat_le sign
  have hlt : sign.toNat * 2 ^ (e + f) + mag < 2 ^ (1 + e + f) := by
    have hle := Nat.mul_le_mul_right (2 ^ (e + f)) hsign
    have hpow : 2 ^ (1 + e + f) = 2 * 2 ^ (e + f) := by rw [Nat.add_assoc, Nat.pow_add, Nat.pow_one]
    omega
  simp only [ofBits, toBits, BitVec.toNat_ofNat, Nat.mod_eq_of_lt hlt, mk.injEq]
  refine ⟨?_, ?_⟩
  · rw [Nat.add_comm, Nat.add_mul_div_right _ _ hpos, Nat.div_eq_of_lt hmag, Nat.zero_add]
    cases sign <;> rfl
  · rw [Nat.add_comm, Nat.add_mul_mod_self_right, Nat.mod_eq_of_lt hmag]

/-! ## Integers through the format -/

/-- The natural nearest to `n` among the multiples of its last place, ties to even. -/
def nearest (f n : Nat) : Nat := roundShift n (n.log2 - f) * 2 ^ (n.log2 - f)

theorem roundShift_zero (n : Nat) : roundShift n 0 = n := by
  simp [roundShift, Nat.mod_one]

theorem le_roundShift (m k : Nat) : m / 2 ^ k ≤ roundShift m k := by
  unfold roundShift
  split
  · exact Nat.le_refl _
  · split <;> omega

theorem roundShift_le (m k : Nat) : roundShift m k ≤ m / 2 ^ k + 1 := by
  unfold roundShift
  split
  · exact Nat.le_succ _
  · split
    · exact Nat.le_refl _
    · have := Nat.mod_lt (m / 2 ^ k) (show 0 < 2 by decide)
      omega

/-- The leading bit of `n`, shifted down by the places it has to spare, is the hidden bit. -/
theorem log2_bounds {n : Nat} (hn : n ≠ 0) : 2 ^ n.log2 ≤ n ∧ n < 2 ^ (n.log2 + 1) :=
  ⟨Nat.log2_self_le hn, Nat.lt_log2_self⟩

theorem significand_bounds {n f : Nat} (hn : n ≠ 0) (hf : f ≤ n.log2) :
    2 ^ f ≤ roundShift n (n.log2 - f) ∧ roundShift n (n.log2 - f) ≤ 2 ^ (f + 1) := by
  obtain ⟨hlo, hhi⟩ := log2_bounds hn
  have hpos := Nat.two_pow_pos (n.log2 - f)
  have hlow : 2 ^ f ≤ n / 2 ^ (n.log2 - f) := by
    rw [Nat.le_div_iff_mul_le hpos, ← Nat.pow_add]
    rwa [show f + (n.log2 - f) = n.log2 by omega]
  have hhigh : n / 2 ^ (n.log2 - f) < 2 ^ (f + 1) := by
    rw [Nat.div_lt_iff_lt_mul hpos, ← Nat.pow_add]
    rwa [show f + 1 + (n.log2 - f) = n.log2 + 1 by omega]
  exact ⟨hlow.trans (le_roundShift _ _), (roundShift_le _ _).trans hhigh⟩

/-- The two parts of a magnitude are read back, wherever the hidden bit is counted. -/
theorem decode {x : Binary e f} {a q : Nat} (hmag : x.mag = a * 2 ^ f + q)
    (hlo : 2 ^ f ≤ q) (hhi : q < 2 ^ (f + 1)) :
    x.significand = q ∧ x.ulp = minUlp e f + a := by
  have hpos := Nat.two_pow_pos f
  obtain ⟨r, rfl⟩ := Nat.exists_eq_add_of_le hlo
  have hr : r < 2 ^ f := by rw [Nat.pow_succ] at hhi; omega
  have hform : x.mag = (a + 1) * 2 ^ f + r := by rw [hmag]; ring
  have hdiv : x.mag / 2 ^ f = a + 1 := by
    rw [hform, Nat.add_comm, Nat.add_mul_div_right _ _ hpos, Nat.div_eq_of_lt hr, Nat.zero_add]
  have hmod : x.mag % 2 ^ f = r := by
    rw [hform, Nat.add_comm, Nat.add_mul_mod_self_right, Nat.mod_eq_of_lt hr]
  refine ⟨?_, ?_⟩
  · rw [significand, hdiv, if_neg (Nat.succ_ne_zero _), hmod, Nat.add_comm]
  · rw [ulp, hdiv, Nat.add_sub_cancel]

/-- The magnitude of a positive natural in range, before the hidden bit is carried. -/
theorem ofNat_mag {n : Nat} (hn : n ≠ 0) (hrange : n.log2 + 1 < 2 ^ (e - 1)) :
    (ofNat n : Binary e f).mag = (n.log2 + 2 ^ (e - 1) - 2) * 2 ^ f +
        (if n.log2 < f then n * 2 ^ (f - n.log2) else roundShift n (n.log2 - f)) ∧
      (ofNat n : Binary e f).mag < infMag e f := by
  have hu : max ((n.log2 : Int) + 0 - f) (minUlp e f) = n.log2 - f := by
    have : ((2 ^ (e - 1) : Nat) : Int) = (2 : Int) ^ (e - 1) := by push_cast; rfl
    simp only [minUlp, ← this]
    omega
  have ha : ((n.log2 : Int) - f - minUlp e f).toNat = n.log2 + 2 ^ (e - 1) - 2 := by
    have : ((2 ^ (e - 1) : Nat) : Int) = (2 : Int) ^ (e - 1) := by push_cast; rfl
    simp only [minUlp, ← this]
    omega
  have hq : (if (0 : Int) ≤ n.log2 - f then roundShift n ((n.log2 : Int) - f - 0).toNat
        else n * 2 ^ (0 - ((n.log2 : Int) - f)).toNat) =
      if n.log2 < f then n * 2 ^ (f - n.log2) else roundShift n (n.log2 - f) := by
    by_cases hf : n.log2 < f
    · rw [if_neg (by omega), if_pos hf]
      congr 2
      omega
    · rw [if_pos (by omega), if_neg hf]
      congr 1
      omega
  have hbound : (if n.log2 < f then n * 2 ^ (f - n.log2) else roundShift n (n.log2 - f)) ≤
      2 ^ (f + 1) := by
    split
    · rename_i hf
      have := Nat.mul_le_mul_right (2 ^ (f - n.log2)) (log2_bounds hn).2.le
      rwa [← Nat.pow_add, show n.log2 + 1 + (f - n.log2) = f + 1 by omega] at this
    · rename_i hf
      exact (significand_bounds hn (by omega)).2
  have htop : (n.log2 + 2 ^ (e - 1) - 2) * 2 ^ f + 2 ^ (f + 1) < infMag e f := by
    have he : e = e - 1 + 1 := by
      rcases Nat.eq_zero_or_pos e with rfl | he
      · simp at hrange
      · omega
    have hsum : (n.log2 + 2 ^ (e - 1) - 2) * 2 ^ f + 2 ^ (f + 1) =
        (n.log2 + 2 ^ (e - 1)) * 2 ^ f := by
      have : n.log2 + 2 ^ (e - 1) = n.log2 + 2 ^ (e - 1) - 2 + 2 := by omega
      rw [Nat.pow_succ]
      conv_rhs => rw [this]
      ring
    rw [hsum, infMag]
    refine Nat.mul_lt_mul_of_pos_right ?_ (Nat.two_pow_pos f)
    rw [he, Nat.pow_succ]
    simp only [Nat.add_sub_cancel]
    omega
  have hmag : (ofNat n : Binary e f).mag =
      min ((n.log2 + 2 ^ (e - 1) - 2) * 2 ^ f +
        (if n.log2 < f then n * 2 ^ (f - n.log2) else roundShift n (n.log2 - f))) (infMag e f) := by
    simp only [ofNat, ofScaled, scaledMag, if_neg hn, hu, ha, hq]
  rw [hmag]
  constructor <;> omega

/-- **A natural in the range of the format is rounded to its nearest representable one.** -/
theorem truncAbs_ofNat {n : Nat} (hrange : n.log2 + 1 < 2 ^ (e - 1)) :
    (ofNat n : Binary e f).truncAbs = nearest f n := by
  rcases eq_or_ne n 0 with rfl | hn
  · have hmag : (ofNat 0 : Binary e f).mag = 0 := by simp [ofNat, ofScaled, scaledMag]
    simp [truncAbs, significand, hmag, nearest, roundShift_zero]
  obtain ⟨hmag, -⟩ := ofNat_mag (f := f) hn hrange
  have hulp : minUlp e f + ((n.log2 + 2 ^ (e - 1) - 2 : Nat) : Int) = n.log2 - f := by
    have : ((2 ^ (e - 1) : Nat) : Int) = (2 : Int) ^ (e - 1) := by push_cast; rfl
    simp only [minUlp, ← this]
    omega
  by_cases hf : n.log2 < f
  · rw [if_pos hf] at hmag
    have hlo := Nat.mul_le_mul_right (2 ^ (f - n.log2)) (log2_bounds hn).1
    have hhi := Nat.mul_lt_mul_of_pos_right (log2_bounds hn).2 (Nat.two_pow_pos (f - n.log2))
    rw [← Nat.pow_add, show n.log2 + (f - n.log2) = f by omega] at hlo
    rw [← Nat.pow_add, show n.log2 + 1 + (f - n.log2) = f + 1 by omega] at hhi
    obtain ⟨hs, hu⟩ := decode hmag hlo hhi
    rw [hulp] at hu
    rw [truncAbs, hs, hu, if_neg (by omega), nearest, show n.log2 - f = 0 by omega,
      roundShift_zero, show (-((n.log2 : Int) - f)).toNat = f - n.log2 by omega,
      Nat.mul_div_cancel _ (Nat.two_pow_pos _), Nat.pow_zero, Nat.mul_one]
  · rw [if_neg hf] at hmag
    obtain ⟨hlo, hhi⟩ := significand_bounds hn (Nat.le_of_not_lt hf)
    rcases Nat.lt_or_eq_of_le hhi with hhi | heq
    · obtain ⟨hs, hu⟩ := decode hmag hlo hhi
      rw [hulp] at hu
      rw [truncAbs, hs, hu, if_pos (by omega), nearest,
        show ((n.log2 : Int) - f).toNat = n.log2 - f by omega]
    · have hcarry : (ofNat n : Binary e f).mag =
          (n.log2 + 2 ^ (e - 1) - 2 + 1) * 2 ^ f + 2 ^ f := by
        rw [hmag, heq, Nat.pow_succ]; ring
      obtain ⟨hs, hu⟩ := decode hcarry (Nat.le_refl _) (Nat.pow_lt_pow_succ (by decide))
      have hu' : (ofNat n : Binary e f).ulp = (n.log2 : Int) - f + 1 := by
        rw [hu]; push_cast at hulp ⊢; linarith
      rw [truncAbs, hs, hu', if_pos (by omega), nearest, heq,
        show ((n.log2 : Int) - f + 1).toNat = n.log2 - f + 1 by omega]
      ring

/-- A natural in range is neither infinite nor a `NaN`. -/
theorem ofNat_finite {n : Nat} (hrange : n.log2 + 1 < 2 ^ (e - 1)) :
    (ofNat n : Binary e f).isNan = false ∧ (ofNat n : Binary e f).isInf = false := by
  have hlt : (ofNat n : Binary e f).mag < infMag e f := by
    rcases eq_or_ne n 0 with rfl | hn
    · have he : 1 < 2 ^ e := by
        rcases Nat.eq_zero_or_pos e with rfl | he
        · simp at hrange
        · exact Nat.one_lt_two_pow he.ne'
      simpa [ofNat, ofScaled, scaledMag, infMag] using he
    · exact (ofNat_mag hn hrange).2
  constructor
  · simpa [isNan] using hlt.le
  · simpa [isInf] using hlt.ne

theorem nearest_of_le {n f : Nat} (h : n ≤ 2 ^ (f + 1)) : nearest f n = n := by
  rcases Nat.lt_or_eq_of_le h with hlt | rfl
  · have : n.log2 - f = 0 := by
      rcases eq_or_ne n 0 with rfl | hn
      · simp
      · have := (Nat.log2_lt hn).mpr hlt
        omega
    rw [nearest, this, roundShift_zero, Nat.pow_zero, Nat.mul_one]
  · have hdiv : 2 ^ (f + 1) / 2 ^ 1 = 2 ^ f := by rw [Nat.pow_succ]; simp
    have hmod : 2 ^ (f + 1) % 2 ^ 1 = 0 := by rw [Nat.pow_succ]; simp
    rw [nearest, Nat.log2_two_pow, Nat.add_sub_cancel_left, roundShift, hmod, hdiv]
    simp [Nat.pow_succ]

theorem nearest_le {n k f : Nat} (h : n < 2 ^ k) : nearest f n ≤ 2 ^ k := by
  rcases eq_or_ne n 0 with rfl | hn
  · simp [nearest, roundShift_zero]
  have hk : n.log2 + 1 ≤ k := (Nat.log2_lt hn).mpr h
  rcases Nat.lt_or_ge n.log2 f with hf | hf
  · rw [nearest, show n.log2 - f = 0 by omega, roundShift_zero, Nat.pow_zero, Nat.mul_one]
    exact h.le
  · have hs := Nat.mul_le_mul_right (2 ^ (n.log2 - f)) (significand_bounds hn hf).2
    rw [← Nat.pow_add, show f + 1 + (n.log2 - f) = n.log2 + 1 by omega] at hs
    exact hs.trans (Nat.pow_le_pow_right (by decide) hk)

theorem toUnsigned_ofNat {n : Nat} (w : Nat) (hrange : n.log2 + 1 < 2 ^ (e - 1)) :
    ((ofNat n : Binary e f).toUnsigned w).toNat = min (nearest f n) (2 ^ w - 1) := by
  obtain ⟨hnan, hinf⟩ := ofNat_finite (f := f) hrange
  have hpos := Nat.two_pow_pos w
  simp only [toUnsigned, hnan, ofNat_sign, hinf, Bool.or_self, Bool.false_eq_true, if_false,
    truncAbs_ofNat hrange, BitVec.toNat_ofNat]
  exact Nat.mod_eq_of_lt (by omega)

theorem toSigned_ofNat {n : Nat} {w : Nat} (hw : 0 < w) (hrange : n.log2 + 1 < 2 ^ (e - 1)) :
    ((ofNat n : Binary e f).toSigned w).toNat = min (nearest f n) (2 ^ (w - 1) - 1) := by
  obtain ⟨hnan, hinf⟩ := ofNat_finite (f := f) hrange
  have hlt : 2 ^ (w - 1) < 2 ^ w := Nat.pow_lt_pow_right (by decide) (by omega)
  have hmin := Nat.min_le_right (nearest f n) (2 ^ (w - 1) - 1)
  simp only [toSigned, hnan, ofNat_sign, hinf, Bool.false_eq_true, if_false,
    truncAbs_ofNat hrange, BitVec.toNat_ofNat]
  exact Nat.mod_eq_of_lt (Nat.lt_of_le_of_lt (hmin.trans (Nat.sub_le _ _)) hlt)

end Binary

end Ieee
