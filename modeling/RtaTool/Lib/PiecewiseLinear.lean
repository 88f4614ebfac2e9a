import RtaTool.Lib.Numerals
import Mathlib.Algebra.Order.Field.Basic
import Mathlib.Tactic.FieldSimp
import Mathlib.Tactic.Linarith
import Mathlib.Tactic.Ring

/-!
# Zeros of a piecewise linear function

A function is given by its values at the natural numbers and is linear between neighbours. A scan
over the segments finds its zeros: one at a sample is found in the segment to its right, and one
strictly between two samples where they differ in sign. So a zero at a sample is found once, or not
at all if the segment to its right is not scanned.

## Main definitions

* `segmentValue`, `IsZeroOn` -- the function on a segment, and its zeros there
* `leftZero` -- what the scan finds in a segment
* `Run` -- samples in a row, as far as they go

## Main results

* `leftZero_of_isZeroOn` -- every zero but one at the right end is found
* `pairwise_lt_filterMap` -- the scan is in order
* `exists_run` -- a segment is in a run
-/

namespace RtaTool

namespace PiecewiseLinear

variable {K : Type*} [Field K] [LinearOrder K] {d : ℕ → K} {k : ℕ} {x : K}

/-! ### A segment -/

/-- The function on the segment from `k` to `k + 1`. -/
def segmentValue (d : ℕ → K) (k : ℕ) (x : K) : K := d k + (x - k) * (d (k + 1) - d k)

/-- A zero of the function on that segment, its ends included. -/
structure IsZeroOn (d : ℕ → K) (k : ℕ) (x : K) : Prop where
  left : (k : K) ≤ x
  right : x ≤ k + 1
  value : segmentValue d k x = 0

/-- What is found in a segment: its left end, or the place where the sign changes. -/
def leftZero (d : ℕ → K) (k : ℕ) : Option K :=
  if d k = 0 then some k
  else if (decide (d k < 0) = decide (d (k + 1) < 0)) ∨ d (k + 1) = 0 then none
  else some (k + -d k / (d (k + 1) - d k))

theorem segmentValue_left : segmentValue d k k = d k := by
  rw [segmentValue, sub_self, zero_mul, add_zero]

theorem segmentValue_right : segmentValue d k (k + 1) = d (k + 1) := by
  rw [segmentValue, add_sub_cancel_left, one_mul, add_sub_cancel]

variable [IsStrictOrderedRing K]

/-- What is interpolated between two values is between them. -/
theorem add_mul_sub_mem_uIcc (a b : K) {t : K} (hpos : 0 ≤ t) (hle : t ≤ 1) :
    a + t * (b - a) ∈ Set.uIcc a b := by
  obtain hab | hba := le_total a b
  · have hlow := mul_nonneg hpos (sub_nonneg.mpr hab)
    have hhigh := mul_nonneg (sub_nonneg.mpr hle) (sub_nonneg.mpr hab)
    exact Set.mem_uIcc_of_le (by linarith) (by linarith)
  · have hlow := mul_nonneg hpos (sub_nonneg.mpr hba)
    have hhigh := mul_nonneg (sub_nonneg.mpr hle) (sub_nonneg.mpr hba)
    exact Set.mem_uIcc_of_ge (by linarith) (by linarith)

theorem isZeroOn_left (h : d k = 0) : IsZeroOn d k k :=
  ⟨le_rfl, (lt_add_one _).le, segmentValue_left.trans h⟩

theorem isZeroOn_right (h : d (k + 1) = 0) : IsZeroOn d k (k + 1) :=
  ⟨(lt_add_one _).le, le_rfl, segmentValue_right.trans h⟩

/-- Two samples that are not zero differ in sign exactly if their product is negative. -/
theorem mul_neg_iff_decide_ne {a b : K} (ha : a ≠ 0) (hb : b ≠ 0) :
    a * b < 0 ↔ ¬ decide (a < 0) = decide (b < 0) := by
  rw [decide_eq_decide, mul_neg_iff]
  rcases ha.lt_or_gt with ha | ha
  · rcases hb.lt_or_gt with hb | hb
    · simp [ha, hb, ha.not_gt, hb.not_gt]
    · simp [ha, hb, hb.not_gt]
  · rcases hb.lt_or_gt with hb | hb
    · simp [ha, hb, ha.not_gt]
    · simp [ha, hb, ha.not_gt, hb.not_gt]

/-- Where the sign changes there is one zero, strictly inside. -/
theorem isZeroOn_iff_of_mul_neg (h : d k * d (k + 1) < 0) :
    IsZeroOn d k x ↔ x = k + -d k / (d (k + 1) - d k) := by
  have hne : d (k + 1) - d k ≠ 0 := by
    intro heq
    rw [sub_eq_zero.mp heq] at h
    exact absurd h (mul_self_nonneg _).not_gt
  have hvalue : segmentValue d k x = 0 ↔ x = k + -d k / (d (k + 1) - d k) := by
    rw [segmentValue, ← sub_eq_iff_eq_add', eq_div_iff hne, ← neg_eq_iff_add_eq_zero, eq_comm]
  constructor
  · intro hx
    exact hvalue.mp hx.value
  · intro hx
    have hinside : 0 ≤ -d k / (d (k + 1) - d k) ∧ -d k / (d (k + 1) - d k) ≤ 1 := by
      rcases mul_neg_iff.mp h with ⟨hpos, hneg⟩ | ⟨hneg, hpos⟩
      · rw [← neg_div_neg_eq, neg_neg, neg_sub]
        have hwidth : 0 < d k - d (k + 1) := by linarith
        exact ⟨(div_pos hpos hwidth).le, (div_le_one hwidth).mpr (by linarith)⟩
      · have hwidth : 0 < d (k + 1) - d k := by linarith
        exact ⟨(div_pos (neg_pos.mpr hneg) hwidth).le, (div_le_one hwidth).mpr (by linarith)⟩
    refine ⟨?_, ?_, hvalue.mpr hx⟩
    · rw [hx]
      exact le_add_of_nonneg_right hinside.1
    · rw [hx]
      exact add_le_add_right hinside.2 _

/-- Without a zero at an end and without a change of sign there is none between. -/
theorem not_isZeroOn_of_mul_pos (h : 0 < d k * d (k + 1)) : ¬ IsZeroOn d k x := by
  rintro ⟨hleft, hright, hvalue⟩
  have hmix : segmentValue d k x = (1 - (x - k)) * d k + (x - k) * d (k + 1) := by
    rw [segmentValue]
    ring
  have ht : 0 ≤ x - k := sub_nonneg.mpr hleft
  have ht' : 0 ≤ 1 - (x - k) := by linarith
  rw [hmix] at hvalue
  rcases mul_pos_iff.mp h with ⟨hk, hnext⟩ | ⟨hk, hnext⟩
  · rcases ht.eq_or_lt with heq | hpos
    · rw [← heq] at hvalue
      linarith
    · have := mul_pos hpos hnext
      have := mul_nonneg ht' hk.le
      linarith
  · rcases ht.eq_or_lt with heq | hpos
    · rw [← heq] at hvalue
      linarith
    · have := mul_neg_of_pos_of_neg hpos hnext
      have := mul_nonpos_of_nonneg_of_nonpos ht' hk.le
      linarith

theorem eq_right_of_isZeroOn (hk : d k ≠ 0) (hnext : d (k + 1) = 0) (h : IsZeroOn d k x) :
    x = k + 1 := by
  have hvalue := h.value
  rw [segmentValue, hnext, zero_sub, mul_neg, ← sub_eq_add_neg, ← one_sub_mul,
    mul_eq_zero, or_iff_left hk] at hvalue
  linarith

/-- What is found is a zero, and not the right end. -/
theorem leftZero_spec (h : leftZero d k = some x) : IsZeroOn d k x ∧ x < k + 1 := by
  rw [leftZero] at h
  split_ifs at h with hzero hsame
  · obtain rfl := Option.some.inj h
    exact ⟨isZeroOn_left hzero, lt_add_one _⟩
  · obtain ⟨hdiffer, hnext⟩ := not_or.mp hsame
    have hmul := (mul_neg_iff_decide_ne hzero hnext).mpr hdiffer
    have hx := (isZeroOn_iff_of_mul_neg hmul).mpr (Option.some.inj h).symm
    refine ⟨hx, lt_of_le_of_ne hx.right ?_⟩
    rintro rfl
    exact hnext (segmentValue_right.symm.trans hx.value)

/-- Every zero of a segment is found but one at the right end, if the segment is not zero
throughout. -/
theorem leftZero_of_isZeroOn (hflat : ¬ (d k = 0 ∧ d (k + 1) = 0)) (h : IsZeroOn d k x)
    (hx : x ≠ k + 1) : leftZero d k = some x := by
  rw [leftZero]
  by_cases hzero : d k = 0
  · have hnext : d (k + 1) ≠ 0 := fun hnext => hflat ⟨hzero, hnext⟩
    have hvalue := h.value
    rw [segmentValue, hzero, zero_add, sub_zero, mul_eq_zero, or_iff_left hnext,
      sub_eq_zero] at hvalue
    rw [if_pos hzero, hvalue]
  · have hnext : d (k + 1) ≠ 0 := fun hnext => hx (eq_right_of_isZeroOn hzero hnext h)
    have hneg : d k * d (k + 1) < 0 := by
      rcases (mul_ne_zero hzero hnext).lt_or_gt with hneg | hpos
      · exact hneg
      · exact absurd h (not_isZeroOn_of_mul_pos hpos)
    rw [if_neg hzero, if_neg (not_or.mpr ⟨(mul_neg_iff_decide_ne hzero hnext).mp hneg, hnext⟩),
      (isZeroOn_iff_of_mul_neg hneg).mp h]

/-! ### The scan -/

/-- A scan that finds in each segment nothing to its left and nothing from its right end on is in
order. -/
theorem pairwise_lt_filterMap {f : ℕ → Option K} (n : ℕ)
    (hf : ∀ k x, f k = some x → (k : K) ≤ x ∧ x < k + 1) :
    ((List.range n).filterMap f).Pairwise (· < ·) := by
  rw [List.pairwise_filterMap]
  refine List.pairwise_lt_range.imp ?_
  intro i j hij x hx y hy
  calc x < i + 1 := (hf i x hx).2
    _ ≤ j := by exact_mod_cast hij
    _ ≤ y := (hf j y hy).1

/-! ### Runs -/

/-- From `a` to `b` every sample is there, and neither the one before nor the one after. -/
structure Run (there : ℕ → Prop) (a b : ℕ) : Prop where
  lt : a < b
  mem : ∀ k, a ≤ k → k ≤ b → there k
  before : ∀ k, k + 1 = a → ¬ there k
  after : ¬ there (b + 1)

variable {there : ℕ → Prop}

/-- Some samples in a row begin where one is missing, or with the first. -/
theorem exists_run_left (h : there k) :
    ∃ a ≤ k, (∀ i, a ≤ i → i ≤ k → there i) ∧ ∀ i, i + 1 = a → ¬ there i := by
  induction k with
  | zero =>
    refine ⟨0, le_rfl, fun i _ hi => ?_, fun i hi => absurd hi (Nat.succ_ne_zero i)⟩
    rwa [Nat.le_zero.mp hi]
  | succ k ih =>
    by_cases hk : there k
    · obtain ⟨a, ha, hmem, hbefore⟩ := ih hk
      refine ⟨a, ha.trans (Nat.le_succ k), fun i hai hik => ?_, hbefore⟩
      rcases Nat.le_succ_iff.mp hik with hik | rfl
      · exact hmem i hai hik
      · exact h
    · refine ⟨k + 1, le_rfl, fun i hai hik => ?_, fun i hi => ?_⟩
      · rwa [Nat.le_antisymm hik hai]
      · rwa [Nat.succ.inj hi]

/-- And they end where one is missing, if none is there from `n` on. -/
theorem exists_run_right {n : ℕ} (hn : ∀ i, there i → i < n) (h : there k) :
    ∃ b, k ≤ b ∧ (∀ i, k ≤ i → i ≤ b → there i) ∧ ¬ there (b + 1) := by
  obtain ⟨m, hm⟩ := Nat.exists_eq_add_of_lt (hn k h)
  induction m generalizing k with
  | zero =>
    refine ⟨k, le_rfl, fun i hki hik => ?_, fun hnext => ?_⟩
    · rwa [Nat.le_antisymm hik hki]
    · have := hn _ hnext
      omega
  | succ m ih =>
    by_cases hnext : there (k + 1)
    · obtain ⟨b, hb, hmem, hafter⟩ := ih hnext (by omega)
      refine ⟨b, by omega, fun i hki hib => ?_, hafter⟩
      rcases hki.eq_or_lt with rfl | hlt
      · exact h
      · exact hmem i hlt hib
    · refine ⟨k, le_rfl, fun i hki hik => ?_, hnext⟩
      rwa [Nat.le_antisymm hik hki]

/-- Two neighbours are in a run. -/
theorem exists_run {n : ℕ} (hn : ∀ i, there i → i < n) (h : there k)
    (hnext : there (k + 1)) : ∃ a b, Run there a b ∧ a ≤ k ∧ k + 1 ≤ b := by
  obtain ⟨a, ha, hleft, hbefore⟩ := exists_run_left h
  obtain ⟨b, hb, hright, hafter⟩ := exists_run_right hn hnext
  refine ⟨a, b, ⟨by omega, fun i hai hib => ?_, hbefore, hafter⟩, ha, hb⟩
  rcases Nat.lt_or_ge k i with hlt | hge
  · exact hright i hlt hib
  · exact hleft i hai hge

end PiecewiseLinear

end RtaTool
