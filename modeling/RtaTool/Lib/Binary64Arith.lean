import RtaTool.Lib.Binary64

/-!
# Arithmetic of binary64 numbers

An operation takes the exact result and rounds it; the infinities and what is not a number follow
the rules of the format. Comparisons are exact, and false of what is not a number.

## Main definitions

* `Binary64Datum.ofRat` -- a fraction, rounded
* `Binary64Datum.sub`, `div`, `floor`, `lt`, `le`, `eq`

## Main results

* `Binary64Datum.sub_isNaN`, `div_isNaN`, `floor_isNaN` -- where a result is a number
-/

namespace RtaTool

namespace Binary64Datum

/-- The number nearest to a fraction, an infinity past the greatest. `negativeZero` is the sign of
an exact zero. -/
def ofRat (negativeZero : Bool) (q : ℚ) : Binary64Datum :=
  let negative := if q = 0 then negativeZero else decide (q < 0)
  match Binary64.nearest negative |q| with
  | some x => .finite x
  | none => .infinite negative

def isFinite : Binary64Datum → Bool
  | .finite _ => true
  | _ => false

def isNaN : Binary64Datum → Bool
  | .notANumber _ => true
  | _ => false

/-- `x - y`. -/
def sub : Binary64Datum → Binary64Datum → Binary64Datum
  | .finite x, .finite y => ofRat (x.negative && !y.negative) (x.value - y.value)
  | .infinite n, .infinite m => if n = m then .notANumber false else .infinite n
  | .infinite n, .finite _ => .infinite n
  | .finite _, .infinite m => .infinite !m
  | .notANumber n, _ => .notANumber n
  | _, .notANumber m => .notANumber m

/-- `x / y`. -/
def div : Binary64Datum → Binary64Datum → Binary64Datum
  | .finite x, .finite y =>
    if y.value = 0 then
      if x.value = 0 then .notANumber false else .infinite (x.negative != y.negative)
    else ofRat (x.negative != y.negative) (x.value / y.value)
  | .infinite n, .finite y => .infinite (n != y.negative)
  | .finite x, .infinite m => ofRat (x.negative != m) 0
  | .infinite _, .infinite _ => .notANumber false
  | .notANumber n, _ => .notANumber n
  | _, .notANumber m => .notANumber m

/-- `std::floor(x)`. -/
def floor : Binary64Datum → Binary64Datum
  | .finite x => ofRat x.negative ⌊x.value⌋
  | x => x

/-- `x < y`. -/
def lt : Binary64Datum → Binary64Datum → Bool
  | .finite x, .finite y => decide (x.value < y.value)
  | .infinite n, .infinite m => n && !m
  | .infinite n, .finite _ => n
  | .finite _, .infinite m => !m
  | _, _ => false

/-- `x == y`. -/
def eq : Binary64Datum → Binary64Datum → Bool
  | .finite x, .finite y => decide (x.value = y.value)
  | .infinite n, .infinite m => n == m
  | _, _ => false

/-- `x <= y`. -/
def le (x y : Binary64Datum) : Bool := x.lt y || x.eq y

/-- A cast to an unsigned integer, of a number that is not negative. -/
def toNat : Binary64Datum → ℕ
  | .finite x => ⌊x.value⌋.toNat
  | _ => 0

/-- Small whole numbers are exact. -/
theorem ofRat_natCast {n : ℕ} (h : n < 2 ^ 20) :
    ∃ x : Binary64, ofRat false n = .finite x ∧ x.value = n := by
  obtain ⟨x, hx, hneg, hmag⟩ := Binary64.nearest_natCast false h
  have hsign : (if (n : ℚ) = 0 then false else decide ((n : ℚ) < 0)) = false := by
    rw [decide_eq_false (Nat.cast_nonneg n).not_gt, ite_self]
  refine ⟨x, ?_, ?_⟩
  · rw [ofRat, hsign, abs_of_nonneg (Nat.cast_nonneg n), hx]
  · rw [Binary64.value, hneg]
    exact hmag

/-- A fraction that is not tiny is not rounded to zero. -/
theorem ofRat_ne_zero {q : ℚ} (hlow : 1 / 2 ^ 34 < q) (hhigh : q < 2 ^ 20) :
    ∃ x : Binary64, ofRat false q = .finite x ∧ x.value ≠ 0 := by
  have hpos : 0 < q := lt_trans (by norm_num) hlow
  obtain ⟨x, hx, hneg, hnear⟩ := Binary64.nearest_near false hpos.le hhigh
  refine ⟨x, ?_, ?_⟩
  · rw [ofRat, if_neg hpos.ne', decide_eq_false hpos.not_gt, abs_of_pos hpos, hx]
  · rw [Binary64.value, hneg]
    intro hzero
    have hmag : x.magnitude = 0 := hzero
    rw [hmag, zero_sub, abs_neg, abs_of_pos hpos] at hnear
    exact absurd hlow hnear.not_gt

theorem ofRat_isNaN (negativeZero : Bool) (q : ℚ) : (ofRat negativeZero q).isNaN = false := by
  rw [ofRat]
  split <;> rfl

/-- A finite number less a number. -/
theorem sub_isNaN {x y : Binary64Datum} (hx : x.isFinite = true) (hy : y.isNaN = false) :
    (x.sub y).isNaN = false := by
  cases x with
  | finite x =>
    cases y with
    | finite y => exact ofRat_isNaN _ _
    | infinite m => rfl
    | notANumber m => cases hy
  | infinite n => cases hx
  | notANumber n => cases hx

/-- A number over a finite one that is not zero. -/
theorem div_isNaN {x : Binary64Datum} {y : Binary64} (hx : x.isNaN = false) (hy : y.value ≠ 0) :
    (x.div (.finite y)).isNaN = false := by
  cases x with
  | finite x =>
    rw [div, if_neg hy]
    exact ofRat_isNaN _ _
  | infinite n => rfl
  | notANumber n => cases hx

theorem floor_isNaN {x : Binary64Datum} (hx : x.isNaN = false) : x.floor.isNaN = false := by
  cases x with
  | finite x => exact ofRat_isNaN _ _
  | infinite n => rfl
  | notANumber n => cases hx

theorem eq_self_iff (x : Binary64Datum) : x.eq x = true ↔ x.isNaN = false := by
  cases x with
  | finite x => simp [eq, isNaN]
  | infinite n => simp [eq, isNaN]
  | notANumber n => simp [eq, isNaN]

/-- A number that is neither below zero nor as large as a whole number is finite, and its cast is
below that number. -/
theorem toNat_lt {zero bound : Binary64} {y : Binary64Datum} {n : ℕ} (hzero : zero.value = 0)
    (hbound : bound.value = n) (hy : y.isNaN = false) (hlow : y.lt (.finite zero) = false)
    (hhigh : le (.finite bound) y = false) : y.toNat < n := by
  cases y with
  | finite y =>
    rw [lt, decide_eq_false_iff_not, hzero, not_lt] at hlow
    rw [le, lt, eq, Bool.or_eq_false_iff, decide_eq_false_iff_not, not_lt, hbound] at hhigh
    have hne : ¬(n : ℚ) = y.value := of_decide_eq_false hhigh.2
    have hlt : y.value < n := lt_of_le_of_ne hhigh.1 fun h => hne h.symm
    have hfloor : ⌊y.value⌋ < n := Int.floor_lt.mpr (by exact_mod_cast hlt)
    rw [toNat]
    have hnonneg : 0 ≤ ⌊y.value⌋ := Int.floor_nonneg.mpr hlow
    omega
  | infinite m =>
    cases m with
    | false => cases hhigh
    | true => cases hlow
  | notANumber m => cases hy

end Binary64Datum

end RtaTool
