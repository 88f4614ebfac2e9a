import Mathlib.Analysis.Complex.Basic

/-!
# Real quadratics with both roots inside the unit circle

`z ^ 2 + a * z + b` with real `a` and `b` has both its roots inside the unit circle where `(a, b)`
is inside a triangle. That is so of the product of two real factors with roots between `-1` and
`1`, and of a quadratic with two conjugate roots inside the circle.

## Main definitions

* `InTriangle` -- the triangle

## Main results

* `InTriangle.norm_lt_one` -- the roots of such a quadratic
* `InTriangle.reversed_ne_zero` -- the quadratic read backwards has no root in the closed disc
-/

namespace RtaTool

/-- The coefficients of a quadratic with both its roots inside the unit circle. -/
structure InTriangle (a b : ℝ) : Prop where
  abs_const : |b| < 1
  abs_linear : |a| < 1 + b

namespace InTriangle

variable {a b : ℝ}

/-- A real root is inside. -/
theorem abs_lt_one (h : InTriangle a b) {x : ℝ} (hx : x ^ 2 + a * x + b = 0) : |x| < 1 := by
  obtain ⟨hb, ha⟩ := h
  obtain ⟨hblow, hbhigh⟩ := abs_lt.mp hb
  obtain ⟨halow, hahigh⟩ := abs_lt.mp ha
  rw [abs_lt]
  constructor
  · by_contra hle
    have hprod : 0 ≤ (-1 - x) * (-x - b) := mul_nonneg (by linarith) (by linarith)
    have hlinear : 0 < (1 + b - a) * -x := mul_pos (by linarith) (by linarith)
    linarith [hprod, hlinear]
  · by_contra hle
    have hprod : 0 ≤ (x - 1) * (x - b) := mul_nonneg (by linarith) (by linarith)
    have hlinear : 0 < (1 + b + a) * x := mul_pos (by linarith) (by linarith)
    linarith [hprod, hlinear]

/-- Both roots are inside. -/
theorem norm_lt_one (h : InTriangle a b) {z : ℂ} (hz : z ^ 2 + a * z + b = 0) : ‖z‖ < 1 := by
  obtain ⟨x, y⟩ := z
  have hre := congrArg Complex.re hz
  have him := congrArg Complex.im hz
  simp only [pow_two, Complex.add_re, Complex.mul_re, Complex.add_im, Complex.mul_im,
    Complex.ofReal_re, Complex.ofReal_im, Complex.zero_re, Complex.zero_im] at hre him
  have hnorm : ‖(⟨x, y⟩ : ℂ)‖ ^ 2 = x ^ 2 + y ^ 2 := by
    rw [Complex.sq_norm, Complex.normSq_mk]
    ring
  have hsq : x ^ 2 + y ^ 2 < 1 := by
    obtain rfl | hy := eq_or_ne y 0
    · -- a real root
      have hx := h.abs_lt_one (x := x) (by linarith)
      have := (sq_lt_one_iff_abs_lt_one x).mpr hx
      linarith
    · -- two conjugate roots, whose product is the constant
      have ha : a = -2 * x := by
        have : y * (2 * x + a) = 0 := by linarith
        have := (mul_eq_zero.mp this).resolve_left hy
        linarith
      have hb : b = x ^ 2 + y ^ 2 := by
        rw [ha] at hre
        linarith
      rw [← hb]
      exact (abs_lt.mp h.abs_const).2
  have hlt : ‖(⟨x, y⟩ : ℂ)‖ ^ 2 < 1 ^ 2 := by
    rw [hnorm]
    linarith
  exact lt_of_pow_lt_pow_left₀ 2 zero_le_one hlt

/-- Read backwards, it has no root in the closed disc. -/
theorem reversed_ne_zero (h : InTriangle a b) {w : ℂ} (hw : ‖w‖ ≤ 1) :
    1 + a * w + b * w ^ 2 ≠ 0 := by
  intro hzero
  obtain rfl | hne := eq_or_ne w 0
  · simp at hzero
  · have hroot : (w⁻¹) ^ 2 + a * w⁻¹ + b = 0 := by
      have hscale : (w⁻¹) ^ 2 + a * w⁻¹ + b = (1 + a * w + b * w ^ 2) * (w⁻¹) ^ 2 := by
        field_simp
      rw [hscale, hzero, zero_mul]
    have hinv := h.norm_lt_one hroot
    rw [norm_inv] at hinv
    exact absurd hinv (not_lt.mpr ((one_le_inv₀ (norm_pos_iff.mpr hne)).mpr hw))

/-- The product of two real factors. -/
theorem of_factors {p q : ℝ} (hp : |p| < 1) (hq : |q| < 1) : InTriangle (-(p + q)) (p * q) := by
  obtain ⟨hplow, hphigh⟩ := abs_lt.mp hp
  obtain ⟨hqlow, hqhigh⟩ := abs_lt.mp hq
  have h1 : 0 < (1 - p) * (1 - q) := mul_pos (by linarith) (by linarith)
  have h2 : 0 < (1 + p) * (1 + q) := mul_pos (by linarith) (by linarith)
  refine ⟨?_, ?_⟩
  · rw [abs_mul]
    nlinarith [abs_nonneg p, abs_nonneg q]
  · rw [abs_lt]
    constructor
    · linarith
    · linarith

end InTriangle

end RtaTool
