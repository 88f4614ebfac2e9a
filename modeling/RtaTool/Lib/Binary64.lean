import Mathlib.Data.Int.Log
import Mathlib.Data.Rat.Floor
import Mathlib.Tactic.Positivity

/-!
# Binary64 numbers

The finite numbers of the format, normalised, so that a number has one representation and the two
zeros are different. Rounding is to nearest, ties to even, of a magnitude given as a fraction.

## Main definitions

* `roundEven` -- a fraction to the nearest whole number, ties to even
* `Binary64`, `Binary64.magnitude`
* `Binary64.nearest` -- the number nearest to a magnitude, where there is one
* `Binary64Datum` -- with the infinities and what is not a number

## Main results

* `roundEven_eq_of_near` -- what lies within half of a whole number is rounded to it
* `Binary64.nearest_near` -- how far the nearest number is, below `2 ^ 20`
* `Binary64.nearest_natCast` -- whole numbers are exact
-/

namespace RtaTool

/-! ### Rounding -/

/-- The nearest whole number, the even one of two. -/
def roundEven (q : ℚ) : ℕ :=
  if q - ⌊q⌋₊ < 1 / 2 then ⌊q⌋₊
  else if 1 / 2 < q - ⌊q⌋₊ then ⌊q⌋₊ + 1
  else if ⌊q⌋₊ % 2 = 0 then ⌊q⌋₊ else ⌊q⌋₊ + 1

variable {q : ℚ} {n : ℕ}

theorem roundEven_near (hq : 0 ≤ q) : |(roundEven q : ℚ) - q| ≤ 1 / 2 := by
  have hle := Nat.floor_le hq
  have hlt := Nat.lt_floor_add_one q
  rw [roundEven, abs_le]
  split_ifs <;> push_cast <;> constructor <;> linarith

/-- Nothing else is as near. -/
theorem roundEven_eq_of_near (hq : 0 ≤ q) (h : |q - n| < 1 / 2) :
    roundEven q = n := by
  have hnear := roundEven_near hq
  have hdist : |(roundEven q : ℚ) - n| < 1 := by
    calc |(roundEven q : ℚ) - n| ≤ |(roundEven q : ℚ) - q| + |q - n| := abs_sub_le _ _ _
      _ < 1 := by linarith
  have hint : |((roundEven q : ℤ) - n : ℤ)| < 1 := by
    have : ((|((roundEven q : ℤ) - n : ℤ)| : ℤ) : ℚ) < 1 := by push_cast; exact hdist
    exact_mod_cast this
  have := Int.abs_lt_one_iff.mp hint
  omega

@[simp] theorem roundEven_natCast (n : ℕ) : roundEven n = n :=
  roundEven_eq_of_near (Nat.cast_nonneg n) (by norm_num)

/-- Rounding keeps to a whole bound. -/
theorem roundEven_le (h : q ≤ n) : roundEven q ≤ n := by
  rcases le_or_gt 0 q with hq | hq
  · have hnear := abs_le.mp (roundEven_near hq)
    by_contra! hlt
    have : (n : ℚ) + 1 ≤ roundEven q := by exact_mod_cast hlt
    linarith
  · have hfloor : ⌊q⌋₊ = 0 := Nat.floor_of_nonpos hq.le
    rw [roundEven, hfloor, if_pos (by push_cast; linarith)]
    exact Nat.zero_le n

theorem le_roundEven (h : (n : ℚ) ≤ q) : n ≤ roundEven q := by
  have hnear := abs_le.mp (roundEven_near ((Nat.cast_nonneg n).trans h))
  by_contra! hlt
  have : (roundEven q : ℚ) + 1 ≤ n := by exact_mod_cast hlt
  linarith

/-! ### The format -/

/-- A finite number: its sign, and `significand * 2 ^ exponent`. -/
structure Binary64 where
  negative : Bool
  significand : ℕ
  exponent : ℤ
  significand_lt : significand < 2 ^ 53
  exponent_ge : -1074 ≤ exponent
  exponent_le : exponent ≤ 971
  normal : exponent = -1074 ∨ 2 ^ 52 ≤ significand
  deriving DecidableEq

namespace Binary64

/-- The magnitude. -/
def magnitude (x : Binary64) : ℚ := x.significand * 2 ^ x.exponent

/-- The value. -/
def value (x : Binary64) : ℚ := if x.negative then -x.magnitude else x.magnitude

theorem magnitude_nonneg (x : Binary64) : 0 ≤ x.magnitude :=
  mul_nonneg (Nat.cast_nonneg _) (zpow_nonneg (by norm_num) _)

/-! ### The nearest number -/

/-- The exponent that a magnitude has. -/
def exponentFor (q : ℚ) : ℤ := if q < 2 ^ (-1022 : ℤ) then -1074 else Int.log 2 q - 52

theorem exponentFor_ge (q : ℚ) : -1074 ≤ exponentFor q := by
  rw [exponentFor]
  split_ifs with hsmall
  · exact le_rfl
  · have hpos : (0 : ℚ) < 2 ^ (-1022 : ℤ) := zpow_pos (by norm_num) _
    have hlog : -1022 ≤ Int.log 2 q :=
      (Int.zpow_le_iff_le_log one_lt_two (hpos.trans_le (not_lt.mp hsmall))).mp
        (by exact_mod_cast not_lt.mp hsmall)
    omega

/-- A magnitude is below the limit of its exponent. -/
theorem div_two_zpow_lt (q : ℚ) : q / 2 ^ exponentFor q < 2 ^ 53 := by
  rw [div_lt_iff₀ (zpow_pos (by norm_num) _), exponentFor]
  split_ifs with hsmall
  · refine hsmall.trans ?_
    rw [← zpow_natCast, ← zpow_add₀ (by norm_num)]
    exact zpow_lt_zpow_right₀ (by norm_num) (by norm_num)
  · have hlt := Int.lt_zpow_succ_log_self one_lt_two q
    have hexp : ((53 : ℕ) : ℤ) + (Int.log 2 q - 52) = Int.log 2 q + 1 := by omega
    rw [← zpow_natCast, ← zpow_add₀ (by norm_num), hexp]
    exact_mod_cast hlt

variable {q : ℚ}

/-- Above the least exponent a magnitude fills it. -/
theorem le_div_two_zpow (hq : ¬ q < 2 ^ (-1022 : ℤ)) :
    2 ^ 52 ≤ q / 2 ^ exponentFor q := by
  have hpos : 0 < q := (zpow_pos (by norm_num) _).trans_le (not_lt.mp hq)
  rw [le_div_iff₀ (zpow_pos (by norm_num) _), exponentFor, if_neg hq]
  have hle := Int.zpow_log_le_self one_lt_two hpos
  have hexp : ((52 : ℕ) : ℤ) + (Int.log 2 q - 52) = Int.log 2 q := by omega
  rw [← zpow_natCast, ← zpow_add₀ (by norm_num), hexp]
  exact_mod_cast hle

theorem roundEven_normal (q : ℚ) :
    exponentFor q = -1074 ∨ 2 ^ 52 ≤ roundEven (q / 2 ^ exponentFor q) := by
  by_cases hq : q < 2 ^ (-1022 : ℤ)
  · exact .inl (if_pos hq)
  · exact .inr (le_roundEven (by exact_mod_cast le_div_two_zpow hq))

theorem roundEven_le_two_pow (q : ℚ) : roundEven (q / 2 ^ exponentFor q) ≤ 2 ^ 53 :=
  roundEven_le (by exact_mod_cast (div_two_zpow_lt q).le)

/-- The number nearest to a magnitude; none where it would be past the greatest. A significand that
is rounded up to the next power has the next exponent. -/
def nearest (negative : Bool) (q : ℚ) : Option Binary64 :=
  if hfit : roundEven (q / 2 ^ exponentFor q) < 2 ^ 53 ∧ exponentFor q ≤ 971 then
    some
      { negative := negative
        significand := roundEven (q / 2 ^ exponentFor q)
        exponent := exponentFor q
        significand_lt := hfit.1
        exponent_ge := exponentFor_ge q
        exponent_le := hfit.2
        normal := roundEven_normal q }
  else if hnext : exponentFor q + 1 ≤ 971 then
    some
      { negative := negative
        significand := 2 ^ 52
        exponent := exponentFor q + 1
        significand_lt := Nat.pow_lt_pow_right (by decide) (by decide)
        exponent_ge := (exponentFor_ge q).trans (Int.le_add_one le_rfl)
        exponent_le := hnext
        normal := .inr le_rfl }
  else none

theorem nearest_spec (negative : Bool) (h : exponentFor q < 971) :
    ∃ x, nearest negative q = some x ∧ x.negative = negative ∧
      x.magnitude = roundEven (q / 2 ^ exponentFor q) * 2 ^ exponentFor q := by
  rw [nearest]
  split_ifs with hfit hnext
  · exact ⟨_, rfl, rfl, rfl⟩
  · refine ⟨_, rfl, rfl, ?_⟩
    have hfull : roundEven (q / 2 ^ exponentFor q) = 2 ^ 53 := by
      have := roundEven_le_two_pow q
      omega
    rw [magnitude, hfull, zpow_add₀ (by norm_num)]
    push_cast
    ring
  · omega

theorem exponentFor_le (h : q < 2 ^ 20) : exponentFor q ≤ -33 := by
  rw [exponentFor]
  split_ifs with hsmall
  · norm_num
  · have hpos : 0 < q := (zpow_pos (by norm_num) _).trans_le (not_lt.mp hsmall)
    have hlog : Int.log 2 q < 20 :=
      (Int.lt_zpow_iff_log_lt one_lt_two hpos).mp (by exact_mod_cast h)
    omega

/-- **Below `2 ^ 20` the nearest number is within `2 ^ -34`.** -/
theorem nearest_near (negative : Bool) (hq : 0 ≤ q) (h : q < 2 ^ 20) :
    ∃ x, nearest negative q = some x ∧ x.negative = negative ∧
      |x.magnitude - q| ≤ 1 / 2 ^ 34 := by
  have hexp := exponentFor_le h
  obtain ⟨x, hx, hneg, hmag⟩ := nearest_spec negative (q := q) (by omega)
  refine ⟨x, hx, hneg, ?_⟩
  have hpos : (0 : ℚ) < 2 ^ exponentFor q := zpow_pos (by norm_num) _
  have hulp : (2 : ℚ) ^ exponentFor q ≤ 2 ^ (-33 : ℤ) := zpow_le_zpow_right₀ (by norm_num) hexp
  have hround := roundEven_near (div_nonneg hq hpos.le)
  calc |x.magnitude - q|
      = |((roundEven (q / 2 ^ exponentFor q) : ℚ) - q / 2 ^ exponentFor q) *
          2 ^ exponentFor q| := by
        rw [hmag, sub_mul, div_mul_cancel₀ q hpos.ne']
    _ = |(roundEven (q / 2 ^ exponentFor q) : ℚ) - q / 2 ^ exponentFor q| *
          2 ^ exponentFor q := by rw [abs_mul, abs_of_pos hpos]
    _ ≤ 1 / 2 * 2 ^ (-33 : ℤ) := mul_le_mul hround hulp hpos.le (by norm_num)
    _ = 1 / 2 ^ 34 := by norm_num

/-- **Whole numbers are exact.** -/
theorem nearest_natCast (negative : Bool) {n : ℕ} (h : n < 2 ^ 20) :
    ∃ x, nearest negative n = some x ∧ x.negative = negative ∧ x.magnitude = n := by
  have hexp := exponentFor_le (q := (n : ℚ)) (by exact_mod_cast h)
  obtain ⟨x, hx, hneg, hmag⟩ := nearest_spec negative (q := (n : ℚ)) (by omega)
  refine ⟨x, hx, hneg, ?_⟩
  obtain ⟨k, hk⟩ : ∃ k : ℕ, exponentFor (n : ℚ) = -k := ⟨(-exponentFor (n : ℚ)).toNat, by omega⟩
  have hwhole : (n : ℚ) / 2 ^ exponentFor (n : ℚ) = ((n * 2 ^ k : ℕ) : ℚ) := by
    rw [hk, zpow_neg, zpow_natCast, div_inv_eq_mul]
    push_cast
    rfl
  rw [hmag, hwhole, roundEven_natCast, ← hwhole, div_mul_cancel₀]
  exact (zpow_pos (by norm_num) _).ne'

end Binary64

/-- A number of the format, or one of the values that stand for none. -/
inductive Binary64Datum
  | finite (x : Binary64)
  | infinite (negative : Bool)
  | notANumber (negative : Bool)
  deriving DecidableEq

end RtaTool
