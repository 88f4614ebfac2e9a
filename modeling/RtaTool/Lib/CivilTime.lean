import Mathlib.Algebra.BigOperators.Intervals
import Mathlib.Algebra.Order.BigOperators.Group.Finset

/-!
# Civil time

A count of seconds since the beginning of 1970, taken apart into a date and a time of day by the
Gregorian rule for leap years. The year is found by passing over one year after another as long as
its days fit into what is left, and the month in the same way.

## Main definitions

* `walk` -- passing over lengths as long as they fit
* `CivilTime`, `civilTime`

## Main results

* `walk_inj` -- where a walk ends says where it came from
* `civilTime_inj` -- different moments are different dates and times
* `civilTime_bounds` -- every part of a date fits two digits, the year apart
-/

namespace RtaTool

/-! ### Walks -/

/-- Passes over the lengths from the `k`-th on as long as they fit into `n`: where it stops, and
what is left. -/
def walk (len : ℕ → ℕ) : ℕ → ℕ → ℕ → ℕ × ℕ
  | 0, k, n => (k, n)
  | fuel + 1, k, n => if n < len k then (k, n) else walk len fuel (k + 1) (n - len k)

/-- What is left and what was passed over make up the whole. -/
theorem walk_sum (len : ℕ → ℕ) (fuel k n : ℕ) :
    k ≤ (walk len fuel k n).1 ∧
      n = ∑ i ∈ Finset.Ico k (walk len fuel k n).1, len i + (walk len fuel k n).2 := by
  induction fuel generalizing k n with
  | zero => simp [walk]
  | succ fuel ih =>
    rw [walk]
    split
    · simp
    · rename_i hfits
      obtain ⟨hle, hsum⟩ := ih (k + 1) (n - len k)
      refine ⟨by omega, ?_⟩
      rw [Finset.sum_eq_sum_Ico_succ_bot (by omega)]
      omega

theorem walk_inj {len : ℕ → ℕ} {fuel fuel' k n n' : ℕ}
    (h : walk len fuel k n = walk len fuel' k n') : n = n' := by
  have hsum := (walk_sum len fuel k n).2
  rw [h] at hsum
  exact hsum.trans (walk_sum len fuel' k n').2.symm

/-- A walk over lengths that hold the whole stops inside one of them. -/
theorem walk_lt (len : ℕ → ℕ) {fuel k n : ℕ} (h : n < ∑ i ∈ Finset.range fuel, len (k + i)) :
    (walk len fuel k n).1 < k + fuel ∧ (walk len fuel k n).2 < len (walk len fuel k n).1 := by
  induction fuel generalizing k n with
  | zero => simp at h
  | succ fuel ih =>
    rw [walk]
    split
    · rename_i hfits
      exact ⟨by simp, hfits⟩
    · rename_i hfits
      rw [Finset.sum_range_succ'] at h
      have hrest : n - len k < ∑ i ∈ Finset.range fuel, len (k + 1 + i) := by
        simp only [Nat.add_assoc, Nat.add_comm 1]
        simp only [Nat.add_zero] at h
        omega
      obtain ⟨hindex, hleft⟩ := ih hrest
      exact ⟨by omega, hleft⟩

/-! ### The calendar -/

/-- Whether a year is a leap year. -/
def isLeapYear (year : ℕ) : Bool := year % 4 = 0 && (year % 100 ≠ 0 || year % 400 = 0)

/-- The days of a year. -/
def yearLength (year : ℕ) : ℕ := if isLeapYear year then 366 else 365

/-- The days of the months, from January at 0. -/
def monthLength (year month : ℕ) : ℕ :=
  match month with
  | 1 => if isLeapYear year then 29 else 28
  | 3 | 5 | 8 | 10 => 30
  | _ => 31

theorem one_le_yearLength (year : ℕ) : 1 ≤ yearLength year := by
  rw [yearLength]
  split <;> omega

theorem monthLength_le (year month : ℕ) : monthLength year month ≤ 31 := by
  rw [monthLength.eq_def]
  split
  · split <;> omega
  all_goals omega

theorem sum_monthLength (year : ℕ) :
    ∑ i ∈ Finset.range 12, monthLength year (0 + i) = yearLength year := by
  simp only [Finset.sum_range_succ, Finset.sum_range_zero, Nat.zero_add, monthLength, yearLength]
  split <;> rfl

/-! ### Dates -/

/-- `std::tm`, as far as it is a date and a time of day. Months and days are counted from 1. -/
@[ext] structure CivilTime where
  year : ℕ
  month : ℕ
  day : ℕ
  hour : ℕ
  minute : ℕ
  second : ℕ
  deriving DecidableEq, Repr

/-- The year of a day since the beginning of 1970, and the day's number in it. -/
def yearOf (days : ℕ) : ℕ × ℕ := walk yearLength (days + 1) 1970 days

/-- The month of a day of a year, and the day's number in it. -/
def monthOf (year dayOfYear : ℕ) : ℕ × ℕ := walk (monthLength year) 12 0 dayOfYear

/-- `gmtime`, of a moment since the beginning of 1970. -/
def civilTime (seconds : ℕ) : CivilTime :=
  let year := yearOf (seconds / 86400)
  let month := monthOf year.1 year.2
  { year := year.1
    month := month.1 + 1
    day := month.2 + 1
    hour := seconds % 86400 / 3600
    minute := seconds % 3600 / 60
    second := seconds % 60 }

example : civilTime 1790346607 = ⟨2026, 9, 25, 14, 30, 7⟩ := by decide

theorem yearOf_lt (days : ℕ) : (yearOf days).2 < yearLength (yearOf days).1 := by
  refine (walk_lt yearLength ?_).2
  have hsum : ∑ _i ∈ Finset.range (days + 1), 1 ≤
      ∑ i ∈ Finset.range (days + 1), yearLength (1970 + i) :=
    Finset.sum_le_sum fun i _ => one_le_yearLength _
  rw [← Finset.card_eq_sum_ones, Finset.card_range] at hsum
  omega

theorem monthOf_lt {year dayOfYear : ℕ} (h : dayOfYear < yearLength year) :
    (monthOf year dayOfYear).1 < 12 ∧ (monthOf year dayOfYear).2 < 31 := by
  rw [← sum_monthLength] at h
  obtain ⟨hmonth, hday⟩ := walk_lt (monthLength year) h
  exact ⟨(Nat.zero_add 12).subst hmonth, lt_of_lt_of_le hday (monthLength_le _ _)⟩

theorem civilTime_bounds (seconds : ℕ) :
    (civilTime seconds).month < 100 ∧ (civilTime seconds).day < 100 ∧
      (civilTime seconds).hour < 100 ∧ (civilTime seconds).minute < 100 ∧
      (civilTime seconds).second < 100 := by
  obtain ⟨hmonth, hday⟩ := monthOf_lt (yearOf_lt (seconds / 86400))
  refine ⟨?_, ?_, ?_, ?_, ?_⟩ <;> dsimp only [civilTime] <;> omega

theorem monthOf_inj {year d d' : ℕ} (h : monthOf year d = monthOf year d') : d = d' := walk_inj h

theorem yearOf_inj {d d' : ℕ} (h : yearOf d = yearOf d') : d = d' := walk_inj h

theorem civilTime_inj {t t' : ℕ} (h : civilTime t = civilTime t') : t = t' := by
  simp only [civilTime, CivilTime.mk.injEq, Nat.add_right_cancel_iff] at h
  obtain ⟨hyear, hmonth, hday, hhour, hminute, hsecond⟩ := h
  rw [← hyear] at hmonth hday
  have hdays : t / 86400 = t' / 86400 :=
    yearOf_inj (Prod.ext hyear (monthOf_inj (Prod.ext hmonth hday)))
  omega

end RtaTool
