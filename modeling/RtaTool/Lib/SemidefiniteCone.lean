import Mathlib.Algebra.QuadraticAlgebra.Basic
import Mathlib.Geometry.Convex.Cone.Pointed
import Mathlib.Tactic.Positivity
import RtaTool.Lib.Numerals

/-!
# Semidefinite two by two matrices

A Hermitian matrix with diagonal `a`, `b` and corner `c` is positive semidefinite when `a` and `b`
are not negative and `|c| ^ 2 ≤ a * b`. Such matrices are a cone, so their averages are of the kind
as well, whatever the weights. The matrix of two numbers, `|x| ^ 2`, `|y| ^ 2` and `conj x * y`, is
on the border of it.

## Main definitions

* `semidefiniteCone`

## Main results

* `outer_mem` -- the matrix of two numbers
-/

namespace RtaTool

variable {K : Type*} [Field K] [LinearOrder K] [IsStrictOrderedRing K]

/-- `|z| ^ 2` in coordinates. -/
theorem norm_eq_sq_add_sq {R : Type*} [CommRing R] (z : QuadraticAlgebra R (-1) 0) :
    z.norm = z.re ^ 2 + z.im ^ 2 := by
  rw [QuadraticAlgebra.norm_def]
  ring

theorem norm_nonneg_of_order (z : QuadraticAlgebra K (-1) 0) : 0 ≤ z.norm := by
  rw [norm_eq_sq_add_sq]
  positivity

theorem norm_smul_eq {R : Type*} [CommRing R] (a : R) (z : QuadraticAlgebra R (-1) 0) :
    (a • z).norm = a ^ 2 * z.norm := by
  rw [norm_eq_sq_add_sq, norm_eq_sq_add_sq, QuadraticAlgebra.re_smul, QuadraticAlgebra.im_smul,
    smul_eq_mul, smul_eq_mul]
  ring

/-- Twice the inner product of the corners is at most the mixed product of the diagonals. -/
theorem two_mul_inner_le {a b a' b' : K} {c c' : QuadraticAlgebra K (-1) 0} (ha : 0 ≤ a)
    (hb : 0 ≤ b) (ha' : 0 ≤ a') (hb' : 0 ≤ b') (hc : c.norm ≤ a * b) (hc' : c'.norm ≤ a' * b') :
    2 * (c.re * c'.re + c.im * c'.im) ≤ a * b' + a' * b := by
  rw [norm_eq_sq_add_sq] at hc hc'
  have hinner : (c.re * c'.re + c.im * c'.im) ^ 2 ≤
      (c.re ^ 2 + c.im ^ 2) * (c'.re ^ 2 + c'.im ^ 2) := by
    have hcross := sq_nonneg (c.re * c'.im - c.im * c'.re)
    linear_combination hcross
  have hnorms : (c.re ^ 2 + c.im ^ 2) * (c'.re ^ 2 + c'.im ^ 2) ≤ a * b * (a' * b') :=
    mul_le_mul hc hc' (by positivity) (by positivity)
  have hmean : a * b * (a' * b') * 4 ≤ (a * b' + a' * b) ^ 2 := by
    have hsq := sq_nonneg (a * b' - a' * b)
    linear_combination hsq
  refine le_of_sq_le_sq ?_ (by positivity)
  linear_combination 4 * hinner + 4 * hnorms + hmean

/-- The positive semidefinite matrices, by diagonal and corner. -/
def semidefiniteCone (K : Type*) [Field K] [LinearOrder K] [IsStrictOrderedRing K] :
    PointedCone K (K × K × QuadraticAlgebra K (-1) 0) where
  carrier := {p | 0 ≤ p.1 ∧ 0 ≤ p.2.1 ∧ p.2.2.norm ≤ p.1 * p.2.1}
  zero_mem' := by
    refine ⟨le_rfl, le_rfl, ?_⟩
    simp
  add_mem' := by
    rintro ⟨a, b, c⟩ ⟨a', b', c'⟩ ⟨ha, hb, hc⟩ ⟨ha', hb', hc'⟩
    refine ⟨add_nonneg ha ha', add_nonneg hb hb', ?_⟩
    have hinner := two_mul_inner_le ha hb ha' hb' hc hc'
    rw [norm_eq_sq_add_sq] at hc hc'
    show (c + c').norm ≤ (a + a') * (b + b')
    rw [norm_eq_sq_add_sq, QuadraticAlgebra.re_add, QuadraticAlgebra.im_add]
    linear_combination hc + hc' + hinner
  smul_mem' := by
    rintro ⟨r, hr⟩ ⟨a, b, c⟩ ⟨ha, hb, hc⟩
    refine ⟨mul_nonneg hr ha, mul_nonneg hr hb, ?_⟩
    show (r • c).norm ≤ r * a * (r * b)
    rw [norm_smul_eq]
    linear_combination r ^ 2 * hc

/-- The matrix of two numbers has determinant zero. -/
theorem norm_star_mul {R : Type*} [CommRing R] (x y : QuadraticAlgebra R (-1) 0) :
    (star x * y).norm = x.norm * y.norm := by
  rw [map_mul, QuadraticAlgebra.norm_star]

theorem outer_mem (x y : QuadraticAlgebra K (-1) 0) :
    (x.norm, y.norm, star x * y) ∈ semidefiniteCone K :=
  ⟨norm_nonneg_of_order x, norm_nonneg_of_order y, (norm_star_mul x y).le⟩

end RtaTool
