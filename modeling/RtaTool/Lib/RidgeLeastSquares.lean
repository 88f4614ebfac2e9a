import RtaTool.Lib.Cholesky
import RtaTool.Lib.Numerals
import Mathlib.Tactic.LinearCombination
import Mathlib.Tactic.Positivity

/-!
# Ridge least squares

Weighted least squares with a ridge, `∑ k, w k * (∑ i, g i * s k i - r k) ^ 2 + lam * ∑ i, g i ^ 2`, in
`n` unknowns. Its matrix is a Gram matrix with `lam` on the diagonal, so it is positive definite, and
a solution of the normal equations is the one minimiser.

## Main definitions

* `Ridge.matrix`, `Ridge.rhs` -- the normal equations
* `Ridge.cost` -- what is minimised

## Main results

* `Ridge.posDefOn_matrix`
* `Ridge.cost_add` -- the cost away from a solution of the normal equations
* `Ridge.cost_lt` -- a solution is the one minimiser
-/

namespace RtaTool

namespace Ridge

open Cholesky

variable {K ι : Type*} [Field K] (bins : Finset ι) (w r : ι → K) (s : ι → ℕ → K) (lam : K) (n : ℕ)

/-- `sᵀ w s + lam`. -/
def matrix : ℕ → ℕ → K := fun i j => ∑ k ∈ bins, w k * s k i * s k j + if i = j then lam else 0

/-- `sᵀ w r`. -/
def rhs (i : ℕ) : K := ∑ k ∈ bins, w k * s k i * r k

/-- The weighted squares of the residuals, and the ridge. -/
def cost (g : ℕ → K) : K :=
  ∑ k ∈ bins, w k * (∑ i ∈ Finset.range n, g i * s k i - r k) ^ 2 +
    lam * ∑ i ∈ Finset.range n, g i ^ 2

theorem symmetricOn_matrix : SymmetricOn (matrix bins w s lam) n := by
  intro i _ j _
  rw [matrix, matrix, if_congr eq_comm rfl rfl]
  congr 1
  exact Finset.sum_congr rfl fun k _ => by ring

theorem quad_matrix (x : ℕ → K) :
    quad (matrix bins w s lam) n x =
      ∑ k ∈ bins, w k * (∑ i ∈ Finset.range n, s k i * x i) ^ 2 +
        lam * ∑ i ∈ Finset.range n, x i ^ 2 := by
  have hdiag : quad (fun i j => if i = j then lam else 0) n x =
      lam * ∑ i ∈ Finset.range n, x i ^ 2 := by
    rw [quad, Finset.mul_sum]
    refine Finset.sum_congr rfl fun i hi => ?_
    rw [Finset.sum_eq_single_of_mem i hi fun j _ hj => by rw [if_neg (Ne.symm hj)]; ring,
      if_pos rfl]
    ring
  rw [← quad_gram, ← hdiag, ← quad_add]
  rfl

theorem sum_matrix (x : ℕ → K) {i : ℕ} (hi : i < n) :
    ∑ j ∈ Finset.range n, matrix bins w s lam i j * x j =
      ∑ k ∈ bins, w k * s k i * (∑ j ∈ Finset.range n, x j * s k j) + lam * x i := by
  simp only [matrix, add_mul, Finset.sum_add_distrib, Finset.sum_mul, ite_mul, zero_mul]
  rw [Finset.sum_ite_eq, if_pos (Finset.mem_range.mpr hi), Finset.sum_comm]
  congr 1
  refine Finset.sum_congr rfl fun k _ => ?_
  rw [Finset.mul_sum]
  exact Finset.sum_congr rfl fun j _ => by ring

/-- Away from a solution of the normal equations the cost grows by the form of their matrix. -/
theorem cost_add {x : ℕ → K}
    (hx : ∀ i < n, ∑ j ∈ Finset.range n, matrix bins w s lam i j * x j = rhs bins w r s i)
    (d : ℕ → K) :
    cost bins w r s lam n (fun i => x i + d i) =
      cost bins w r s lam n x + quad (matrix bins w s lam) n d := by
  -- the terms that are linear in `d` are those of the normal equations
  have hlinear : ∑ k ∈ bins, w k * (∑ i ∈ Finset.range n, x i * s k i - r k) *
        (∑ i ∈ Finset.range n, s k i * d i) + lam * ∑ i ∈ Finset.range n, x i * d i = 0 := by
    have hterm : ∀ i ∈ Finset.range n,
        ∑ k ∈ bins, w k * (∑ i ∈ Finset.range n, x i * s k i - r k) * (s k i * d i) +
          lam * (x i * d i) = 0 := by
      intro i hi
      have hnormal := hx i (Finset.mem_range.mp hi)
      rw [sum_matrix bins w s lam n x (Finset.mem_range.mp hi), rhs] at hnormal
      calc ∑ k ∈ bins, w k * (∑ i ∈ Finset.range n, x i * s k i - r k) * (s k i * d i) +
            lam * (x i * d i)
          = (∑ k ∈ bins, w k * s k i * (∑ j ∈ Finset.range n, x j * s k j) + lam * x i -
              ∑ k ∈ bins, w k * s k i * r k) * d i := by
            rw [sub_mul, add_mul, Finset.sum_mul, Finset.sum_mul, add_sub_right_comm,
              ← Finset.sum_sub_distrib]
            congr 1
            · exact Finset.sum_congr rfl fun k _ => by ring
            · ring
        _ = 0 := by rw [hnormal]; ring
    rw [← Finset.sum_eq_zero hterm, Finset.sum_add_distrib, Finset.sum_comm, Finset.mul_sum]
    congr 1
    exact Finset.sum_congr rfl fun k _ => by rw [Finset.mul_sum]
  have hsquares : ∀ k, w k * (∑ i ∈ Finset.range n, (x i + d i) * s k i - r k) ^ 2 =
      w k * (∑ i ∈ Finset.range n, x i * s k i - r k) ^ 2 +
        2 * (w k * (∑ i ∈ Finset.range n, x i * s k i - r k) * ∑ i ∈ Finset.range n, s k i * d i) +
        w k * (∑ i ∈ Finset.range n, s k i * d i) ^ 2 := by
    intro k
    have hsplit : ∑ i ∈ Finset.range n, (x i + d i) * s k i =
        ∑ i ∈ Finset.range n, x i * s k i + ∑ i ∈ Finset.range n, s k i * d i := by
      rw [← Finset.sum_add_distrib]
      exact Finset.sum_congr rfl fun i _ => by ring
    rw [hsplit]
    ring
  have hridge : ∑ i ∈ Finset.range n, (x i + d i) ^ 2 =
      ∑ i ∈ Finset.range n, x i ^ 2 + 2 * ∑ i ∈ Finset.range n, x i * d i +
        ∑ i ∈ Finset.range n, d i ^ 2 := by
    rw [Finset.mul_sum, ← Finset.sum_add_distrib, ← Finset.sum_add_distrib]
    exact Finset.sum_congr rfl fun i _ => by ring
  rw [cost, cost, quad_matrix, hridge]
  simp only [hsquares, Finset.sum_add_distrib, ← Finset.mul_sum]
  linear_combination 2 * hlinear

section Order

variable [LinearOrder K] [IsStrictOrderedRing K] {bins w r s lam n}

theorem posDefOn_matrix (hw : ∀ k ∈ bins, 0 ≤ w k) (hlam : 0 < lam) :
    PosDefOn (matrix bins w s lam) n := by
  rintro x ⟨i, hi, hx⟩
  rw [quad_matrix]
  have hsquares : 0 ≤ ∑ k ∈ bins, w k * (∑ i ∈ Finset.range n, s k i * x i) ^ 2 :=
    Finset.sum_nonneg fun k hk => mul_nonneg (hw k hk) (sq_nonneg _)
  have hridge : 0 < ∑ i ∈ Finset.range n, x i ^ 2 :=
    Finset.sum_pos' (fun i _ => sq_nonneg _) ⟨i, Finset.mem_range.mpr hi, by positivity⟩
  have hproduct := mul_pos hlam hridge
  linarith

/-- **Headline.** A solution of the normal equations costs less than anything else. -/
theorem cost_lt (hw : ∀ k ∈ bins, 0 ≤ w k) (hlam : 0 < lam) {x : ℕ → K}
    (hx : ∀ i < n, ∑ j ∈ Finset.range n, matrix bins w s lam i j * x j = rhs bins w r s i)
    {g : ℕ → K} (hg : ∃ i < n, g i ≠ x i) :
    cost bins w r s lam n x < cost bins w r s lam n g := by
  obtain ⟨i, hi, hne⟩ := hg
  have hform := posDefOn_matrix (s := s) (n := n) hw hlam (fun i => g i - x i)
    ⟨i, hi, sub_ne_zero.mpr hne⟩
  have hcost := cost_add bins w r s lam n hx fun i => g i - x i
  simp only [add_sub_cancel] at hcost
  rw [hcost]
  linarith

end Order

end Ridge

end RtaTool
