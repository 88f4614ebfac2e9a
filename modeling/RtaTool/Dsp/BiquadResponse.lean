import RtaTool.Eq.BiquadDesign
import RtaTool.Lib.QuadraticRoots

/-!
# The response of second-order sections

`BiquadResponse.cpp`, and what `Biquad.h` says of a section: the radius of its poles and its
attenuation. In exact arithmetic the attenuation is the response in decibels, with the sign turned
(`attenuationDb_eq`).

On the unit circle `(1 - z⁻¹) / (1 + z⁻¹)` is `j * tan (w / 2)`, which is the bilinear transform.

## Main definitions

* `biquadResponse`, `cascadeResponse`
* `sectionPoleRadius`
* `Stable` -- the coefficients of a section with its poles inside the unit circle

## Main results

* `attenuationDb_eq` -- the attenuation of a cascade and its response
* `one_sub_zInv`, `one_add_zInv` -- the bilinear transform
* `Stable.denominator_ne_zero`
-/

namespace RtaTool

namespace Dsp

open AutoEq

/-! ### `BiquadResponse.cpp` -/

/-- The numerator of a section. -/
noncomputable def biquadNumerator (c : BiquadCoeffs ℝ) (zInv : ℂ) : ℂ :=
  c.b0 + c.b1 * zInv + c.b2 * (zInv * zInv)

/-- The denominator of a section. -/
noncomputable def biquadDenominator (c : BiquadCoeffs ℝ) (zInv : ℂ) : ℂ :=
  1 + c.a1 * zInv + c.a2 * (zInv * zInv)

/-- `std::polar(1, -w)`. -/
noncomputable def zInvAt (w : ℝ) : ℂ := Complex.exp (-(w * Complex.I))

/-- `biquadResponse(c, w)`. -/
noncomputable def biquadResponse (c : BiquadCoeffs ℝ) (w : ℝ) : ℂ :=
  biquadNumerator c (zInvAt w) / biquadDenominator c (zInvAt w)

/-- `cascadeResponse(sections, w)`. -/
noncomputable def cascadeResponse (sections : List (BiquadCoeffs ℝ)) (w : ℝ) : ℂ :=
  sections.foldl (fun total c => total * biquadResponse c w) 1

theorem cascadeResponse_eq (sections : List (BiquadCoeffs ℝ)) (w : ℝ) :
    cascadeResponse sections w = (sections.map fun c => biquadResponse c w).prod := by
  have hfold : ∀ total : ℂ, sections.foldl (fun total c => total * biquadResponse c w) total =
      total * (sections.map fun c => biquadResponse c w).prod := by
    induction sections with
    | nil => simp
    | cons c sections ih =>
      intro total
      rw [List.foldl_cons, ih, List.map_cons, List.prod_cons, mul_assoc]
  rw [cascadeResponse, hfold, one_mul]

/-! ### The unit circle -/

theorem norm_zInvAt (w : ℝ) : ‖zInvAt w‖ = 1 := by
  rw [zInvAt, ← neg_mul, ← Complex.ofReal_neg, Complex.norm_exp_ofReal_mul_I]

/-- Half way back to the point. -/
theorem zInvAt_half (w : ℝ) : zInvAt w = zInvAt (w / 2) * zInvAt (w / 2) := by
  rw [zInvAt, zInvAt, ← Complex.exp_add]
  congr 1
  push_cast
  ring

theorem one_add_zInv (w : ℝ) : 1 + zInvAt w = 2 * Real.cos (w / 2) * zInvAt (w / 2) := by
  have hexp : zInvAt (w / 2) * Complex.exp (((w / 2 : ℝ) : ℂ) * Complex.I) = 1 := by
    rw [zInvAt, ← Complex.exp_add, neg_add_cancel, Complex.exp_zero]
  have hcos : (2 * Real.cos (w / 2) : ℂ) =
      Complex.exp (((w / 2 : ℝ) : ℂ) * Complex.I) + zInvAt (w / 2) := by
    rw [Complex.ofReal_cos, Complex.two_cos, zInvAt, neg_mul]
  rw [hcos, zInvAt_half w]
  linear_combination -hexp

theorem one_sub_zInv (w : ℝ) :
    1 - zInvAt w = 2 * (Complex.I * Real.sin (w / 2)) * zInvAt (w / 2) := by
  have hexp : zInvAt (w / 2) * Complex.exp (((w / 2 : ℝ) : ℂ) * Complex.I) = 1 := by
    rw [zInvAt, ← Complex.exp_add, neg_add_cancel, Complex.exp_zero]
  have hsin : (2 * (Complex.I * Real.sin (w / 2)) : ℂ) =
      Complex.exp (((w / 2 : ℝ) : ℂ) * Complex.I) - zInvAt (w / 2) := by
    have htwo := Complex.two_sin ((w / 2 : ℝ) : ℂ)
    rw [Complex.ofReal_sin, zInvAt, ← neg_mul]
    linear_combination Complex.I * htwo + (Complex.exp (-((w / 2 : ℝ) : ℂ) * Complex.I) -
      Complex.exp (((w / 2 : ℝ) : ℂ) * Complex.I)) * Complex.I_mul_I
  rw [hsin, zInvAt_half w]
  linear_combination -hexp

/-- Inside the half circle the cosine is not one of its extremes. -/
theorem abs_cos_lt_one {w : ℝ} (hw : 0 < w ∧ w < Real.pi) : |Real.cos w| < 1 := by
  have hsin := Real.sin_pos_of_pos_of_lt_pi hw.1 hw.2
  rw [← sq_lt_one_iff_abs_lt_one]
  nlinarith [Real.sin_sq_add_cos_sq w]

/-! ### The attenuation -/

theorem zInvAt_re (w : ℝ) : (zInvAt w).re = Real.cos w := by
  rw [zInvAt, ← neg_mul, ← Complex.ofReal_neg, Complex.exp_ofReal_mul_I_re, Real.cos_neg]

theorem zInvAt_im (w : ℝ) : (zInvAt w).im = -Real.sin w := by
  rw [zInvAt, ← neg_mul, ← Complex.ofReal_neg, Complex.exp_ofReal_mul_I_im, Real.sin_neg]

/-- The square of the size of a quadratic on the unit circle. -/
theorem normSq_quadratic (b0 b1 b2 w : ℝ) :
    Complex.normSq (b0 + b1 * zInvAt w + b2 * (zInvAt w * zInvAt w)) =
      (b0 + b1 * Real.cos w + b2 * Real.cos (2 * w)) ^ 2 +
        (b1 * Real.sin w + b2 * Real.sin (2 * w)) ^ 2 := by
  rw [Complex.normSq_apply, Real.cos_two_mul', Real.sin_two_mul]
  simp only [Complex.add_re, Complex.add_im, Complex.mul_re, Complex.mul_im, Complex.ofReal_re,
    Complex.ofReal_im, zInvAt_re, zInvAt_im]
  ring

variable {c : BiquadCoeffs ℝ}

variable {sections : List (BiquadCoeffs ℝ)} {w : ℝ}

theorem sectionAttenuationDb_eq
    (hnum : biquadNumerator c (zInvAt w) ≠ 0) (hden : biquadDenominator c (zInvAt w) ≠ 0) :
    sectionAttenuationDb realMath c w = -(20 * Real.logb 10 ‖biquadResponse c w‖) := by
  have hone : biquadDenominator c (zInvAt w) =
      (1 : ℝ) + c.a1 * zInvAt w + c.a2 * (zInvAt w * zInvAt w) := by
    rw [biquadDenominator, Complex.ofReal_one]
  have hn := normSq_quadratic c.b0 c.b1 c.b2 w
  have hd := normSq_quadratic 1 c.a1 c.a2 w
  rw [← hone] at hd
  change Complex.normSq (biquadNumerator c (zInvAt w)) = _ at hn
  have hunfold : sectionAttenuationDb realMath c w =
      10 * Real.logb 10 ((1 + c.a1 * Real.cos w + c.a2 * Real.cos (2 * w)) ^ 2 +
        (c.a1 * Real.sin w + c.a2 * Real.sin (2 * w)) ^ 2) -
      10 * Real.logb 10 ((c.b0 + c.b1 * Real.cos w + c.b2 * Real.cos (2 * w)) ^ 2 +
        (c.b1 * Real.sin w + c.b2 * Real.sin (2 * w)) ^ 2) := by
    simp only [sectionAttenuationDb, realMath]
    congr 3 <;> ring
  rw [hunfold, ← hn, ← hd, Complex.normSq_eq_norm_sq, Complex.normSq_eq_norm_sq, biquadResponse,
    norm_div, Real.logb_div (norm_ne_zero_iff.mpr hnum) (norm_ne_zero_iff.mpr hden),
    Real.logb_pow, Real.logb_pow]
  push_cast
  ring

/-- The attenuation of a cascade is its response in decibels, with the sign turned. -/
theorem attenuationDb_eq (hnum : ∀ c ∈ sections, biquadNumerator c (zInvAt w) ≠ 0)
    (hden : ∀ c ∈ sections, biquadDenominator c (zInvAt w) ≠ 0) :
    attenuationDb realMath sections w = -(20 * Real.logb 10 ‖cascadeResponse sections w‖) := by
  have hfold : ∀ total, sections.foldl (fun total c => total + sectionAttenuationDb realMath c w)
      total = total + -(20 * Real.logb 10 ‖cascadeResponse sections w‖) := by
    rw [cascadeResponse_eq]
    induction sections with
    | nil => simp
    | cons c sections ih =>
      intro total
      obtain ⟨hn, hnums⟩ := List.forall_mem_cons.mp hnum
      obtain ⟨hd, hdens⟩ := List.forall_mem_cons.mp hden
      have hresponse : biquadResponse c w ≠ 0 := div_ne_zero hn hd
      have hrest : (sections.map fun c => biquadResponse c w).prod ≠ 0 := by
        refine List.prod_ne_zero fun hzero => ?_
        obtain ⟨c', hc', hc0⟩ := List.mem_map.mp hzero
        exact div_ne_zero (hnums c' hc') (hdens c' hc') hc0
      rw [List.foldl_cons, ih hnums hdens, sectionAttenuationDb_eq hn hd, List.map_cons,
        List.prod_cons, norm_mul, Real.logb_mul (norm_ne_zero_iff.mpr hresponse)
          (norm_ne_zero_iff.mpr hrest)]
      ring
  rw [attenuationDb, hfold, zero_add]

/-- A response that does not vanish has no vanishing side. -/
theorem attenuationDb_of_ne_zero (h : cascadeResponse sections w ≠ 0) :
    attenuationDb realMath sections w = -(20 * Real.logb 10 ‖cascadeResponse sections w‖) := by
  have hresponse : ∀ c ∈ sections, biquadResponse c w ≠ 0 := by
    intro c hc hzero
    rw [cascadeResponse_eq] at h
    exact h (List.prod_eq_zero (List.mem_map.mpr ⟨c, hc, hzero⟩))
  refine attenuationDb_eq (fun c hc hzero => ?_) (fun c hc hzero => ?_)
  · exact hresponse c hc (by rw [biquadResponse, hzero, zero_div])
  · exact hresponse c hc (by rw [biquadResponse, hzero, div_zero])

/-! ### Poles -/

/-- `sectionPoleRadius`. -/
noncomputable def sectionPoleRadius (c : BiquadCoeffs ℝ) : ℝ :=
  let disc := c.a1 * c.a1 - 4 * c.a2
  if disc < 0 then √(max 0 c.a2)
  else
    let root := √disc
    let p1 := (-c.a1 + root) * 0.5
    let p2 := (-c.a1 - root) * 0.5
    max |p1| |p2|

/-- A pole of a section. -/
def IsPole (c : BiquadCoeffs ℝ) (z : ℂ) : Prop := z ^ 2 + c.a1 * z + c.a2 = 0

/-- A section with its poles inside the unit circle. -/
def Stable (c : BiquadCoeffs ℝ) : Prop := InTriangle c.a1 c.a2

theorem Stable.norm_pole_lt_one (h : Stable c) {z : ℂ} (hz : IsPole c z) :
    ‖z‖ < 1 :=
  h.norm_lt_one hz

theorem Stable.denominator_ne_zero (h : Stable c) (w : ℝ) :
    biquadDenominator c (zInvAt w) ≠ 0 := by
  rw [biquadDenominator, ← pow_two]
  exact h.reversed_ne_zero (norm_zInvAt w).le

/-- Where the discriminant is negative, the poles are conjugate and `a2` is their product. -/
theorem IsPole.norm_of_disc_neg (hdisc : c.a1 * c.a1 - 4 * c.a2 < 0) {z : ℂ}
    (hz : IsPole c z) : ‖z‖ = √c.a2 := by
  obtain ⟨x, y⟩ := z
  have hre := congrArg Complex.re hz
  have him := congrArg Complex.im hz
  simp only [pow_two, Complex.add_re, Complex.mul_re, Complex.add_im, Complex.mul_im,
    Complex.ofReal_re, Complex.ofReal_im, Complex.zero_re, Complex.zero_im] at hre him
  have hy : y ≠ 0 := by
    rintro rfl
    have hsq := sq_nonneg (2 * x + c.a1)
    nlinarith
  have ha : c.a1 = -2 * x := by
    have hprod : y * (2 * x + c.a1) = 0 := by linarith
    have := (mul_eq_zero.mp hprod).resolve_left hy
    linarith
  have hb : c.a2 = x * x + y * y := by
    rw [ha] at hre
    linarith
  rw [Complex.norm_def, Complex.normSq_mk, hb]

/-- Otherwise they are the two real ones. -/
theorem isPole_iff_of_disc_nonneg (hdisc : 0 ≤ c.a1 * c.a1 - 4 * c.a2) (z : ℂ) :
    IsPole c z ↔ z = (((-c.a1 + √(c.a1 * c.a1 - 4 * c.a2)) * 0.5 : ℝ) : ℂ) ∨
      z = (((-c.a1 - √(c.a1 * c.a1 - 4 * c.a2)) * 0.5 : ℝ) : ℂ) := by
  have hroot : ((√(c.a1 * c.a1 - 4 * c.a2) : ℝ) : ℂ) * (√(c.a1 * c.a1 - 4 * c.a2) : ℝ) =
      c.a1 * c.a1 - 4 * c.a2 := by
    rw [← Complex.ofReal_mul, Real.mul_self_sqrt hdisc]
    push_cast
    ring
  have hfactor : z ^ 2 + c.a1 * z + c.a2 =
      (z - (((-c.a1 + √(c.a1 * c.a1 - 4 * c.a2)) * 0.5 : ℝ) : ℂ)) *
        (z - (((-c.a1 - √(c.a1 * c.a1 - 4 * c.a2)) * 0.5 : ℝ) : ℂ)) := by
    push_cast
    linear_combination (1 / 4 : ℂ) * hroot
  rw [IsPole, hfactor, mul_eq_zero, sub_eq_zero, sub_eq_zero]

theorem isGreatest_sectionPoleRadius (c : BiquadCoeffs ℝ) :
    IsGreatest {r | ∃ z, IsPole c z ∧ ‖z‖ = r} (sectionPoleRadius c) := by
  rw [sectionPoleRadius]
  dsimp only
  split_ifs with hdisc
  · have hpos : 0 < c.a2 := by nlinarith [mul_self_nonneg c.a1]
    rw [max_eq_right hpos.le]
    constructor
    · have hsq : (√(4 * c.a2 - c.a1 * c.a1)) * √(4 * c.a2 - c.a1 * c.a1) =
          4 * c.a2 - c.a1 * c.a1 := Real.mul_self_sqrt (by linarith)
      have hpole : IsPole c ⟨-c.a1 / 2, √(4 * c.a2 - c.a1 * c.a1) / 2⟩ := by
        rw [IsPole]
        apply Complex.ext
        · simp only [pow_two, Complex.add_re, Complex.mul_re, Complex.ofReal_re, Complex.ofReal_im,
            Complex.zero_re]
          linarith
        · simp only [pow_two, Complex.add_im, Complex.mul_im, Complex.ofReal_re, Complex.ofReal_im,
            Complex.zero_im]
          ring
      exact ⟨_, hpole, hpole.norm_of_disc_neg hdisc⟩
    · rintro r ⟨z, hz, rfl⟩
      exact (hz.norm_of_disc_neg hdisc).le
  · have hiff := isPole_iff_of_disc_nonneg (not_lt.mp hdisc)
    constructor
    · obtain hle | hle := le_total |(-c.a1 - √(c.a1 * c.a1 - 4 * c.a2)) * 0.5|
        |(-c.a1 + √(c.a1 * c.a1 - 4 * c.a2)) * 0.5|
      · refine ⟨_, (hiff _).mpr (.inl rfl), ?_⟩
        rw [Complex.norm_real, Real.norm_eq_abs, max_eq_left hle]
      · refine ⟨_, (hiff _).mpr (.inr rfl), ?_⟩
        rw [Complex.norm_real, Real.norm_eq_abs, max_eq_right hle]
    · rintro r ⟨z, hz, rfl⟩
      obtain rfl | rfl := (hiff z).mp hz
      · rw [Complex.norm_real, Real.norm_eq_abs]
        exact le_max_left _ _
      · rw [Complex.norm_real, Real.norm_eq_abs]
        exact le_max_right _ _

end Dsp

end RtaTool
