import Mathlib.Algebra.Order.Chebyshev
import Mathlib.Geometry.Convex.Cone.Pointed
import Mathlib.Tactic.Linarith
import RtaTool.Lib.Numerals
import RtaTool.Lib.RollingWindow

/-!
# Means of a sequence that grows

Three ways to keep a mean while its sequence grows: the mean of all, moved by its share of the
difference; the mean of the newest few, from a running sum that the newest is added to and the one
that falls out is taken from; and the exponential mean, that starts at the first element and then
moves by a fixed share. Each is a list function here, with the equation for one more element.

All three are linear in the elements, and none leaves a cone that the elements are in.

The elements that a running sum has to give back are kept in a circle of slots. What a slot held
before it was written does not matter: `KeepsNewest` asks about the newest elements only.

## Main definitions

* `listMean`, `smoothedMean`, `smoothedWeight`
* `KeepsNewest` -- a circle of slots has the newest elements
* `kishSize` -- the effective number of weighted elements

## Main results

* `listMean_concat`, `smoothedMean_concat`
* `KeepsNewest.concat`, `KeepsNewest.sum_rtake_concat` -- a running sum that gives back
* `listMean_mem`, `smoothedMean_mem` -- cones
* `smoothedMean_eq_sum`, `sum_sq_smoothedWeight` -- the weights of the exponential mean
* `kishSize_mem`
-/

namespace RtaTool

variable {K V W : Type*}

/-! ### The mean of all -/

section Mean

variable [Field K] [AddCommGroup V] [Module K V] [AddCommGroup W] [Module K W]

/-- The arithmetic mean; of no elements it is zero. -/
def listMean (K : Type*) {V : Type*} [Field K] [AddCommGroup V] [Module K V] (xs : List V) : V :=
  (xs.length : K)⁻¹ • xs.sum

@[simp] theorem listMean_nil : listMean K ([] : List V) = 0 := by
  rw [listMean, List.sum_nil, smul_zero]

theorem listMean_map (L : V →ₗ[K] W) (xs : List V) :
    listMean K (xs.map L) = L (listMean K xs) := by
  rw [listMean, listMean, map_smul, map_list_sum, List.length_map]

theorem length_smul_listMean [CharZero K] (xs : List V) :
    (xs.length : K) • listMean K xs = xs.sum := by
  cases xs with
  | nil => rw [listMean_nil, smul_zero, List.sum_nil]
  | cons x xs =>
    have hne : ((x :: xs).length : K) ≠ 0 := Nat.cast_ne_zero.mpr (Nat.succ_ne_zero _)
    rw [listMean, smul_smul, mul_inv_cancel₀ hne, one_smul]

/-- One more element moves the mean by its share of the difference. -/
theorem listMean_concat [CharZero K] (xs : List V) (x : V) :
    listMean K (xs ++ [x]) =
      listMean K xs + ((xs.length + 1 : ℕ) : K)⁻¹ • (x - listMean K xs) := by
  have hne : ((xs.length + 1 : ℕ) : K) ≠ 0 := Nat.cast_ne_zero.mpr (Nat.succ_ne_zero _)
  have hsum : (xs ++ [x]).sum = (xs.length : K) • listMean K xs + x := by
    rw [length_smul_listMean, List.sum_append, List.sum_singleton]
  have hback : ((xs.length + 1 : ℕ) : K)⁻¹ • ((xs.length + 1 : ℕ) : K) • listMean K xs =
      listMean K xs := by
    rw [smul_smul, inv_mul_cancel₀ hne, one_smul]
  rw [listMean, List.length_append, List.length_singleton, hsum]
  nth_rewrite 2 [← hback]
  rw [← smul_add]
  congr 1
  push_cast
  module

end Mean

/-! ### The mean of the newest -/

section Newest

/-- In a circle of `depth` slots the newest elements stand, each at its place. -/
def KeepsNewest (depth : ℕ) (slot : ℕ → V) (xs : List V) : Prop :=
  ∀ p < xs.length, xs.length ≤ p + depth → xs[p]? = some (slot (p % depth))

theorem KeepsNewest.nil (depth : ℕ) (slot : ℕ → V) : KeepsNewest depth slot [] :=
  fun _ h => absurd h (Nat.not_lt_zero _)

variable {slot : ℕ → V} {xs : List V} {depth : ℕ}

/-- The next element takes the place of the oldest. -/
theorem KeepsNewest.concat (x : V) (h : KeepsNewest depth slot xs) :
    KeepsNewest depth (Function.update slot (xs.length % depth) x) (xs ++ [x]) := by
  intro p hp hnew
  rw [List.length_append, List.length_singleton] at hp hnew
  rcases Nat.lt_succ_iff_lt_or_eq.mp hp with hlt | rfl
  · -- two places less than a turn apart are different slots
    have hother : p % depth ≠ xs.length % depth := by
      intro heq
      have hdvd : depth ∣ xs.length - p := (Nat.modEq_iff_dvd' hlt.le).mp heq
      have hle := Nat.le_of_dvd (Nat.sub_pos_of_lt hlt) hdvd
      omega
    rw [Function.update_of_ne hother, List.getElem?_append_left hlt]
    exact h p hlt (by omega)
  · rw [Function.update_self, List.getElem?_append_right le_rfl, Nat.sub_self]
    rfl

/-- A running sum of the newest elements: once they are as many as the slots, it gives back the
oldest before it takes in the next. -/
theorem KeepsNewest.sum_rtake_concat [AddCommGroup V]
    (hdepth : 0 < depth) (x : V) (h : KeepsNewest depth slot xs) :
    ((xs ++ [x]).rtake depth).sum =
      (if depth ≤ xs.length then (xs.rtake depth).sum - slot (xs.length % depth)
        else (xs.rtake depth).sum) + x := by
  have hsplit : ((xs ++ [x]).rtake depth).sum = (xs.rtake (depth - 1)).sum + x := by
    rw [rtake_append_of_le (Nat.succ_le_iff.mpr hdepth), List.sum_append, List.sum_singleton,
      List.length_singleton]
  rw [hsplit]
  congr 1
  by_cases hfull : depth ≤ xs.length
  · have hlt : xs.length - depth < xs.length := by omega
    have holdest : xs[xs.length - depth]? = some (slot (xs.length % depth)) := by
      rw [h _ hlt (by omega), ← Nat.mod_eq_sub_mod hfull]
    have hcons : xs.rtake depth = slot (xs.length % depth) :: xs.rtake (depth - 1) := by
      rw [List.getElem?_eq_getElem hlt, Option.some.injEq] at holdest
      rw [List.rtake, List.rtake, List.drop_eq_getElem_cons hlt, holdest]
      congr 2
      omega
    rw [if_pos hfull, hcons, List.sum_cons, add_sub_cancel_left]
  · rw [if_neg hfull, rtake_of_length_le (by omega), rtake_of_length_le (by omega)]

end Newest

/-! ### The exponential mean -/

section Smoothed

variable [Field K] [AddCommGroup V] [Module K V] [AddCommGroup W] [Module K W]

/-- A step of a one-pole average. -/
def smooth (alpha : K) (mean x : V) : V := mean + alpha • (x - mean)

/-- The one-pole average of a sequence, started at its first element. -/
def smoothedMean (alpha : K) : List V → V
  | [] => 0
  | x :: xs => xs.foldl (smooth alpha) x

theorem smoothedMean_concat (alpha : K) (xs : List V) (x : V) :
    smoothedMean alpha (xs ++ [x]) =
      if xs.length = 0 then x else smooth alpha (smoothedMean alpha xs) x := by
  cases xs with
  | nil => rfl
  | cons y xs =>
    have hne : (y :: xs).length ≠ 0 := Nat.succ_ne_zero _
    rw [if_neg hne, List.cons_append, smoothedMean, List.foldl_append]
    rfl

theorem smoothedMean_map (L : V →ₗ[K] W) (alpha : K) (xs : List V) :
    smoothedMean alpha (xs.map L) = L (smoothedMean alpha xs) := by
  induction xs using List.reverseRecOn with
  | nil => exact (map_zero L).symm
  | append_singleton xs x ih =>
    rw [List.map_append, List.map_singleton, smoothedMean_concat, smoothedMean_concat,
      List.length_map, ih]
    split
    · rfl
    · rw [smooth, smooth, map_add, map_smul, map_sub]

/-- The weight of the `i`-th of `n` elements. -/
def smoothedWeight (alpha : K) (n i : ℕ) : K :=
  if i = 0 then (1 - alpha) ^ (n - 1) else alpha * (1 - alpha) ^ (n - 1 - i)

/-- With one more element every weight shrinks by the same factor. -/
theorem smoothedWeight_succ (alpha : K) {n i : ℕ} (hi : i < n) :
    smoothedWeight alpha (n + 1) i = (1 - alpha) * smoothedWeight alpha n i := by
  rw [smoothedWeight, smoothedWeight]
  split
  · rw [← pow_succ']
    congr 1
    omega
  · rw [mul_left_comm, ← pow_succ']
    congr 2
    omega

variable {n : ℕ}

theorem smoothedWeight_last (alpha : K) (hn : n ≠ 0) :
    smoothedWeight alpha (n + 1) n = alpha := by
  rw [smoothedWeight, if_neg hn, Nat.add_sub_cancel, Nat.sub_self, pow_zero, mul_one]

theorem smoothedWeight_one (alpha : K) : smoothedWeight alpha 1 0 = 1 := by
  rw [smoothedWeight, if_pos rfl, pow_zero]

/-- The exponential mean is the weighted one. -/
theorem smoothedMean_eq_sum (alpha : K) (x : ℕ → V) (hn : n ≠ 0) :
    smoothedMean alpha ((List.range n).map x) =
      ∑ i ∈ Finset.range n, smoothedWeight alpha n i • x i := by
  induction n, Nat.one_le_iff_ne_zero.mpr hn using Nat.le_induction with
  | base =>
    rw [Finset.sum_range_one, smoothedWeight_one, one_smul]
    rfl
  | succ n hpos ih =>
    have hzero : n ≠ 0 := Nat.one_le_iff_ne_zero.mp hpos
    have hshrink : ∑ i ∈ Finset.range n, smoothedWeight alpha (n + 1) i • x i =
        (1 - alpha) • ∑ i ∈ Finset.range n, smoothedWeight alpha n i • x i := by
      rw [Finset.smul_sum]
      refine Finset.sum_congr rfl fun i hi => ?_
      rw [smoothedWeight_succ alpha (Finset.mem_range.mp hi), mul_smul]
    rw [List.range_succ, List.map_append, List.map_singleton, smoothedMean_concat,
      List.length_map, List.length_range, Finset.sum_range_succ, if_neg hzero, ih hzero, smooth,
      hshrink, smoothedWeight_last alpha hzero]
    module

theorem sum_smoothedWeight (alpha : K) (hn : n ≠ 0) :
    ∑ i ∈ Finset.range n, smoothedWeight alpha n i = 1 := by
  induction n, Nat.one_le_iff_ne_zero.mpr hn using Nat.le_induction with
  | base => rw [Finset.sum_range_one, smoothedWeight_one]
  | succ n hpos ih =>
    have hzero : n ≠ 0 := Nat.one_le_iff_ne_zero.mp hpos
    rw [Finset.sum_range_succ,
      Finset.sum_congr rfl fun i hi => smoothedWeight_succ alpha (Finset.mem_range.mp hi),
      ← Finset.mul_sum, ih hzero, smoothedWeight_last alpha hzero, mul_one, sub_add_cancel]

/-- The squares of the weights, in closed form. -/
theorem sum_sq_smoothedWeight {alpha : K} (halpha : 2 - alpha ≠ 0) (hn : n ≠ 0) :
    ∑ i ∈ Finset.range n, smoothedWeight alpha n i ^ 2 =
      (1 - alpha) ^ (2 * (n - 1)) * (2 - 2 * alpha) / (2 - alpha) + alpha / (2 - alpha) := by
  induction n, Nat.one_le_iff_ne_zero.mpr hn using Nat.le_induction with
  | base =>
    rw [Finset.sum_range_one, smoothedWeight_one]
    field_simp
    ring
  | succ n hpos ih =>
    have hzero : n ≠ 0 := Nat.one_le_iff_ne_zero.mp hpos
    have hshrink : ∑ i ∈ Finset.range n, smoothedWeight alpha (n + 1) i ^ 2 =
        (1 - alpha) ^ 2 * ∑ i ∈ Finset.range n, smoothedWeight alpha n i ^ 2 := by
      rw [Finset.mul_sum]
      refine Finset.sum_congr rfl fun i hi => ?_
      rw [smoothedWeight_succ alpha (Finset.mem_range.mp hi), mul_pow]
    have hpow : (1 - alpha) ^ (2 * n) = (1 - alpha) ^ 2 * (1 - alpha) ^ (2 * (n - 1)) := by
      rw [← pow_add]
      congr 1
      omega
    rw [Finset.sum_range_succ, hshrink, ih hzero, smoothedWeight_last alpha hzero,
      Nat.add_sub_cancel, hpow]
    field_simp
    ring

end Smoothed

/-! ### Cones -/

section Cones

variable [Field K] [LinearOrder K] [IsStrictOrderedRing K] [AddCommGroup V] [Module K V]

section

variable (C : PointedCone K V)

theorem smul_mem_cone {a : K} (ha : 0 ≤ a) {x : V} (hx : x ∈ C) : a • x ∈ C :=
  C.smul_mem ha hx

variable {xs : List V}

theorem listMean_mem (h : ∀ x ∈ xs, x ∈ C) :
    listMean K xs ∈ C :=
  smul_mem_cone C (inv_nonneg.mpr (Nat.cast_nonneg _)) (list_sum_mem h)

theorem smooth_mem {alpha : K} (hpos : 0 ≤ alpha) (hle : alpha ≤ 1)
    {mean x : V} (hmean : mean ∈ C) (hx : x ∈ C) : smooth alpha mean x ∈ C := by
  have hsplit : smooth alpha mean x = (1 - alpha) • mean + alpha • x := by
    rw [smooth]
    module
  rw [hsplit]
  exact C.add_mem (smul_mem_cone C (sub_nonneg.mpr hle) hmean) (smul_mem_cone C hpos hx)

theorem smoothedMean_mem {alpha : K} (hpos : 0 ≤ alpha) (hle : alpha ≤ 1) (h : ∀ x ∈ xs, x ∈ C) :
    smoothedMean alpha xs ∈ C := by
  induction xs using List.reverseRecOn with
  | nil => exact C.zero_mem
  | append_singleton xs x ih =>
    rw [smoothedMean_concat]
    have hx : x ∈ C := h x (List.mem_append_right _ (List.mem_singleton_self x))
    split
    · exact hx
    · exact smooth_mem C hpos hle (ih fun y hy => h y (List.mem_append_left _ hy)) hx

end

end Cones

/-! ### The effective number of elements -/

section Kish

variable [Field K] [LinearOrder K] [IsStrictOrderedRing K]

theorem smoothedWeight_nonneg {alpha : K} (hpos : 0 ≤ alpha) (hle : alpha ≤ 1) (n i : ℕ) :
    0 ≤ smoothedWeight alpha n i := by
  have hrest : 0 ≤ 1 - alpha := sub_nonneg.mpr hle
  rw [smoothedWeight]
  split
  · exact pow_nonneg hrest _
  · exact mul_nonneg hpos (pow_nonneg hrest _)

/-- Kish's effective sample size of weights that sum to one. -/
def kishSize (n : ℕ) (w : ℕ → K) : K := 1 / ∑ i ∈ Finset.range n, w i ^ 2

theorem kishSize_mem {n : ℕ} {w : ℕ → K} (hw : ∀ i < n, 0 ≤ w i)
    (hsum : ∑ i ∈ Finset.range n, w i = 1) : 1 ≤ kishSize n w ∧ kishSize n w ≤ n := by
  have hspread : 1 ≤ (n : K) * ∑ i ∈ Finset.range n, w i ^ 2 := by
    have hcauchy := sq_sum_le_card_mul_sum_sq (s := Finset.range n) (f := w)
    rwa [hsum, one_pow, Finset.card_range] at hcauchy
  have hpos : 0 < ∑ i ∈ Finset.range n, w i ^ 2 := by
    refine lt_of_le_of_ne (Finset.sum_nonneg fun i _ => sq_nonneg (w i)) fun h => ?_
    rw [← h, mul_zero] at hspread
    exact absurd hspread zero_lt_one.not_ge
  have hle : ∑ i ∈ Finset.range n, w i ^ 2 ≤ 1 := by
    rw [← hsum]
    refine Finset.sum_le_sum fun i hi => ?_
    have hone : w i ≤ 1 := by
      rw [← hsum]
      exact Finset.single_le_sum (fun j hj => hw j (Finset.mem_range.mp hj)) hi
    rw [sq]
    exact mul_le_of_le_one_left (hw i (Finset.mem_range.mp hi)) hone
  exact ⟨(one_le_div hpos).mpr hle, (div_le_iff₀ hpos).mpr hspread⟩

end Kish

end RtaTool
