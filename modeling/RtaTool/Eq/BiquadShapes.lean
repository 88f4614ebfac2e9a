import RtaTool.Dsp.BiquadResponse

/-!
# What a designed filter does

The cookbook filters of `BiquadDesign.cpp` in exact arithmetic. Before `normalize` divides by `a0`,
the numerator of a filter is the denominator of the filter with the opposite gain, times one for a
peaking filter and times the square of the amplitude for a shelf. So what is shown of every
denominator holds of every numerator, and a filter undoes the one with the opposite gain.

## Main definitions

* `CookbookTriple` -- a quadratic before `a0` is divided out
* `denominatorTriple` -- that of a filter's denominator
* `amplitude` -- the cookbook's `A`

## Main results

* `designBiquad_eq` -- the coefficients through two denominators
* `denominatorTriple_inside` -- every denominator has its roots inside the unit circle
* `designBiquad_shapes` -- **Headline.** Poles, zeros, the response at the corners of its shape and
  the filter with the opposite gain
-/

namespace RtaTool

namespace AutoEq

open Dsp

/-! ### Quadratics before `a0` is divided out -/

/-- The cookbook's three coefficients of one side. -/
structure CookbookTriple where
  c0 : ℝ
  c1 : ℝ
  c2 : ℝ

namespace CookbookTriple

/-- The quadratic. -/
def eval (t : CookbookTriple) (zInv : ℂ) : ℂ := t.c0 + t.c1 * zInv + t.c2 * (zInv * zInv)

/-- The square of its size on the unit circle. -/
noncomputable def magSq (t : CookbookTriple) (w : ℝ) : ℝ :=
  (t.c1 + (t.c0 + t.c2) * Real.cos w) ^ 2 + ((t.c0 - t.c2) * Real.sin w) ^ 2

/-- Divided by its first coefficient it has its roots inside the unit circle. -/
structure Inside (t : CookbookTriple) : Prop where
  c0_pos : 0 < t.c0
  triangle : InTriangle (t.c1 / t.c0) (t.c2 / t.c0)

variable {t : CookbookTriple}

theorem Inside.of_lt (hconst : |t.c2| < t.c0) (hlinear : |t.c1| < t.c0 + t.c2) : t.Inside := by
  have hpos : 0 < t.c0 := (abs_nonneg _).trans_lt hconst
  refine ⟨hpos, ?_, ?_⟩
  · rw [abs_div, abs_of_pos hpos, div_lt_one hpos]
    exact hconst
  · rw [abs_div, abs_of_pos hpos, div_lt_iff₀ hpos, add_mul, one_mul, div_mul_cancel₀ _ hpos.ne']
    exact hlinear

theorem eval_zInvAt (t : CookbookTriple) (w : ℝ) :
    Complex.normSq (t.eval (zInvAt w)) = t.magSq w := by
  rw [eval, normSq_quadratic, magSq, Real.cos_two_mul, Real.sin_two_mul]
  linear_combination (t.c1 ^ 2 + 4 * t.c2 ^ 2 * Real.cos w ^ 2 + 4 * t.c1 * t.c2 * Real.cos w -
    t.c0 ^ 2 + 2 * t.c0 * t.c2 - t.c2 ^ 2) * Real.sin_sq_add_cos_sq w

theorem Inside.eval_eq (h : t.Inside) (zInv : ℂ) :
    t.eval zInv = t.c0 * (1 + (t.c1 / t.c0 : ℝ) * zInv + (t.c2 / t.c0 : ℝ) * zInv ^ 2) := by
  have hne : (t.c0 : ℂ) ≠ 0 := Complex.ofReal_ne_zero.mpr h.c0_pos.ne'
  rw [eval, Complex.ofReal_div, Complex.ofReal_div]
  field_simp

theorem Inside.eval_ne_zero (h : t.Inside) {zInv : ℂ} (hz : ‖zInv‖ ≤ 1) : t.eval zInv ≠ 0 := by
  rw [h.eval_eq]
  exact mul_ne_zero (Complex.ofReal_ne_zero.mpr h.c0_pos.ne') (h.triangle.reversed_ne_zero hz)

theorem Inside.magSq_pos (h : t.Inside) (w : ℝ) : 0 < t.magSq w := by
  rw [← eval_zInvAt]
  exact Complex.normSq_pos.mpr (h.eval_ne_zero (norm_zInvAt w).le)

theorem Inside.norm_root_lt_one (h : t.Inside) {z : ℂ}
    (hz : t.c0 * z ^ 2 + t.c1 * z + t.c2 = 0) : ‖z‖ < 1 := by
  refine h.triangle.norm_lt_one ?_
  have hne : (t.c0 : ℂ) ≠ 0 := Complex.ofReal_ne_zero.mpr h.c0_pos.ne'
  rw [Complex.ofReal_div, Complex.ofReal_div]
  field_simp
  linear_combination hz

end CookbookTriple

/-- A section from its two sides. -/
noncomputable def ofTriples (scale : ℝ) (num den : CookbookTriple) : BiquadCoeffs ℝ :=
  normalize (scale * num.c0) (scale * num.c1) (scale * num.c2) den.c0 den.c1 den.c2

section Sides

variable {scale : ℝ} {num den : CookbookTriple}

theorem ofTriples_numerator (zInv : ℂ) :
    biquadNumerator (ofTriples scale num den) zInv = scale * num.eval zInv / den.c0 := by
  simp only [biquadNumerator, ofTriples, normalize, CookbookTriple.eval, Complex.ofReal_div,
    Complex.ofReal_mul]
  ring

theorem ofTriples_denominator (hden : den.Inside) (zInv : ℂ) :
    biquadDenominator (ofTriples scale num den) zInv = den.eval zInv / den.c0 := by
  have hne : (den.c0 : ℂ) ≠ 0 := Complex.ofReal_ne_zero.mpr hden.c0_pos.ne'
  simp only [biquadDenominator, ofTriples, normalize, CookbookTriple.eval, Complex.ofReal_div]
  field_simp

theorem ofTriples_response (hscale : 0 < scale) (hnum : num.Inside) (hden : den.Inside) (w : ℝ) :
    -attenuationDb realMath [ofTriples scale num den] w =
      10 * Real.logb 10 (scale ^ 2 * num.magSq w / den.magSq w) := by
  have hd0 : (den.c0 : ℂ) ≠ 0 := Complex.ofReal_ne_zero.mpr hden.c0_pos.ne'
  have hs : (scale : ℂ) ≠ 0 := Complex.ofReal_ne_zero.mpr hscale.ne'
  have hn := hnum.eval_ne_zero (norm_zInvAt w).le
  have hd := hden.eval_ne_zero (norm_zInvAt w).le
  have hN : biquadNumerator (ofTriples scale num den) (zInvAt w) ≠ 0 := by
    rw [ofTriples_numerator]
    exact div_ne_zero (mul_ne_zero hs hn) hd0
  have hD : biquadDenominator (ofTriples scale num den) (zInvAt w) ≠ 0 := by
    rw [ofTriples_denominator hden]
    exact div_ne_zero hd hd0
  have hresponse : biquadResponse (ofTriples scale num den) w =
      scale * num.eval (zInvAt w) / den.eval (zInvAt w) := by
    rw [biquadResponse, ofTriples_numerator, ofTriples_denominator hden, div_div_div_cancel_right₀]
    exact hd0
  have hsq : ‖biquadResponse (ofTriples scale num den) w‖ ^ 2 =
      scale ^ 2 * num.magSq w / den.magSq w := by
    rw [hresponse, Complex.sq_norm, Complex.normSq_div, Complex.normSq_mul, Complex.normSq_ofReal,
      CookbookTriple.eval_zInvAt, CookbookTriple.eval_zInvAt, pow_two]
  rw [attenuationDb, List.foldl_cons, List.foldl_nil, zero_add, sectionAttenuationDb_eq hN hD,
    ← hsq, Real.logb_pow, neg_neg]
  push_cast
  ring

end Sides

/-! ### The cookbook's denominators -/

/-- The cookbook's `A`. -/
noncomputable def amplitude (gainDb : ℝ) : ℝ := 10 ^ (gainDb / 40)

theorem amplitude_pos (gainDb : ℝ) : 0 < amplitude gainDb :=
  Real.rpow_pos_of_pos (by norm_num) _

theorem amplitude_neg (gainDb : ℝ) : amplitude (-gainDb) = (amplitude gainDb)⁻¹ := by
  rw [amplitude, amplitude, neg_div, Real.rpow_neg (by norm_num)]

theorem logb_amplitude (gainDb : ℝ) : Real.logb 10 (amplitude gainDb) = gainDb / 40 :=
  Real.logb_rpow (by norm_num) (by norm_num)

/-- The denominator of a filter before `normalize`. -/
noncomputable def denominatorTriple (type : FilterType) (w0 q a : ℝ) : CookbookTriple :=
  let cw := Real.cos w0
  let beta := 2 * √a * shelfAlpha realMath w0 q a
  match type with
  | .peaking => ⟨1 + Real.sin w0 / (2 * q) / a, -2 * cw, 1 - Real.sin w0 / (2 * q) / a⟩
  | .lowShelf =>
    ⟨(a + 1) + (a - 1) * cw + beta, -2 * ((a - 1) + (a + 1) * cw), (a + 1) + (a - 1) * cw - beta⟩
  | .highShelf =>
    ⟨(a + 1) - (a - 1) * cw + beta, 2 * ((a - 1) - (a + 1) * cw), (a + 1) - (a - 1) * cw - beta⟩

/-- What a numerator is more than the denominator for the opposite gain. -/
noncomputable def numeratorScale (type : FilterType) (a : ℝ) : ℝ :=
  match type with
  | .peaking => 1
  | .lowShelf | .highShelf => a ^ 2

variable {spec : FilterSpec ℝ} {sampleRate : ℝ} {a : ℝ}

theorem numeratorScale_pos (type : FilterType) (ha : 0 < a) :
    0 < numeratorScale type a := by
  cases type
  · exact one_pos
  · exact pow_pos ha 2
  · exact pow_pos ha 2

theorem numeratorScale_inv (type : FilterType) (ha : 0 < a) :
    numeratorScale type a * numeratorScale type a⁻¹ = 1 := by
  have hsq : a ^ 2 * a⁻¹ ^ 2 = 1 := by
    rw [← mul_pow, mul_inv_cancel₀ ha.ne', one_pow]
  cases type
  · exact one_mul 1
  · exact hsq
  · exact hsq

@[simp] theorem realMath_pow10 (gainDb : ℝ) : realMath.pow10 (gainDb / 40) = amplitude gainDb := rfl

@[simp] theorem realMath_cos : realMath.cos = Real.cos := rfl

@[simp] theorem realMath_sqrt : realMath.sqrt = Real.sqrt := rfl

theorem shelfRadicand_inv (q a : ℝ) : shelfRadicand q a⁻¹ = shelfRadicand q a := by
  rw [shelfRadicand, shelfRadicand, one_div, inv_inv, one_div a, add_comm a⁻¹]

theorem shelfAlpha_inv (w0 q a : ℝ) :
    shelfAlpha realMath w0 q a⁻¹ = shelfAlpha realMath w0 q a := by
  rw [shelfAlpha, shelfAlpha, shelfRadicand_inv]

/-- The shelves' numerators, over the square of the amplitude. -/
theorem sqrt_inv_scale (ha : 0 < a) : a ^ 2 * √a⁻¹ = a * √a := by
  rw [Real.sqrt_inv]
  have hroot : √a * √a = a := Real.mul_self_sqrt ha.le
  have hne : √a ≠ 0 := (Real.sqrt_pos.mpr ha).ne'
  field_simp
  linear_combination -hroot

/-- The corner frequency is strictly inside the half circle. -/
theorem FilterSpec.Designable.corner_mem (h : spec.Designable realMath sampleRate) :
    2 * Real.pi * spec.fcHz / sampleRate ∈ Set.Ioo 0 Real.pi := by
  obtain ⟨hfs, hfc, hnyquist, -⟩ := h
  have hpi := Real.pi_pos
  constructor
  · positivity
  · rw [div_lt_iff₀ hfs]
    nlinarith

theorem FilterSpec.Designable.radicand_pos
    (h : spec.Designable realMath sampleRate) (htype : spec.type ≠ .peaking) :
    0 < shelfRadicand spec.q (amplitude spec.gainDb) :=
  h.2.2.2.2 htype

/-- Every denominator has its roots inside the unit circle. -/
theorem denominatorTriple_inside {type : FilterType} {w0 q a : ℝ} (hw0 : w0 ∈ Set.Ioo 0 Real.pi)
    (hq : 0 < q) (ha : 0 < a) (hradicand : type ≠ .peaking → 0 < shelfRadicand q a) :
    (denominatorTriple type w0 q a).Inside := by
  have hsin := Real.sin_pos_of_pos_of_lt_pi hw0.1 hw0.2
  obtain ⟨hlow, hhigh⟩ := abs_lt.mp (abs_cos_lt_one hw0)
  -- the two products that a shelf's denominator is made of
  have hplus : 0 < a * (1 + Real.cos w0) := mul_pos ha (by linarith)
  have hminus : 0 < a * (1 - Real.cos w0) := mul_pos ha (by linarith)
  have hbeta : type ≠ .peaking → 0 < 2 * √a * shelfAlpha realMath w0 q a := by
    intro htype
    have hroot := Real.sqrt_pos.mpr (hradicand htype)
    exact mul_pos (mul_pos two_pos (Real.sqrt_pos.mpr ha)) (mul_pos (half_pos hsin) hroot)
  cases type with
  | peaking =>
    have halpha : 0 < Real.sin w0 / (2 * q) / a := by positivity
    refine .of_lt ?_ ?_
    · rw [denominatorTriple, abs_lt]
      constructor <;> linarith
    · rw [denominatorTriple, abs_lt]
      constructor <;> linarith
  | lowShelf =>
    have hbeta := hbeta (by decide)
    refine .of_lt ?_ ?_
    · rw [denominatorTriple, abs_lt]
      constructor <;> linarith
    · rw [denominatorTriple, abs_lt]
      constructor <;> linarith
  | highShelf =>
    have hbeta := hbeta (by decide)
    refine .of_lt ?_ ?_
    · rw [denominatorTriple, abs_lt]
      constructor <;> linarith
    · rw [denominatorTriple, abs_lt]
      constructor <;> linarith

/-- A shape's coefficients through the denominators of the two gains. -/
noncomputable def shapeCoeffs (type : FilterType) (w0 q a : ℝ) : BiquadCoeffs ℝ :=
  ofTriples (numeratorScale type a) (denominatorTriple type w0 q a⁻¹)
    (denominatorTriple type w0 q a)

theorem designPeaking_eq (w0 q gainDb : ℝ) :
    designPeaking realMath w0 q gainDb = shapeCoeffs .peaking w0 q (amplitude gainDb) := by
  simp only [shapeCoeffs, ofTriples, numeratorScale, denominatorTriple, div_inv_eq_mul, one_mul]
  rfl

/-- The outer coefficients of a shelf's numerator, with either sign of what is added. -/
theorem shelf_outer (ha : 0 < a) (cw x : ℝ) :
    a * ((a + 1) - (a - 1) * cw + 2 * √a * x) =
      a ^ 2 * ((a⁻¹ + 1) + (a⁻¹ - 1) * cw + 2 * √a⁻¹ * x) := by
  have hinv : a * a⁻¹ = 1 := mul_inv_cancel₀ ha.ne'
  linear_combination -(a * (1 + cw)) * hinv - 2 * x * sqrt_inv_scale ha

theorem shelf_middle (ha : 0 < a) (cw : ℝ) :
    a * ((a - 1) - (a + 1) * cw) = -a ^ 2 * ((a⁻¹ - 1) + (a⁻¹ + 1) * cw) := by
  have hinv : a * a⁻¹ = 1 := mul_inv_cancel₀ ha.ne'
  linear_combination a * (1 + cw) * hinv

theorem designLowShelf_eq (w0 q gainDb : ℝ) :
    designLowShelf realMath w0 q gainDb = shapeCoeffs .lowShelf w0 q (amplitude gainDb) := by
  have ha := amplitude_pos gainDb
  simp only [shapeCoeffs, ofTriples, numeratorScale, denominatorTriple, designLowShelf,
    realMath_pow10, realMath_cos, realMath_sqrt, shelfAlpha_inv]
  generalize amplitude gainDb = a at ha ⊢
  generalize shelfAlpha realMath w0 q a = alpha
  congr 1
  · exact shelf_outer ha _ _
  · linear_combination 2 * shelf_middle ha (Real.cos w0)
  · linear_combination shelf_outer ha (Real.cos w0) (-alpha)

theorem designHighShelf_eq (w0 q gainDb : ℝ) :
    designHighShelf realMath w0 q gainDb = shapeCoeffs .highShelf w0 q (amplitude gainDb) := by
  have ha := amplitude_pos gainDb
  simp only [shapeCoeffs, ofTriples, numeratorScale, denominatorTriple, designHighShelf,
    realMath_pow10, realMath_cos, realMath_sqrt, shelfAlpha_inv]
  generalize amplitude gainDb = a at ha ⊢
  generalize shelfAlpha realMath w0 q a = alpha
  congr 1
  · linear_combination shelf_outer ha (-Real.cos w0) alpha
  · linear_combination -2 * shelf_middle ha (-Real.cos w0)
  · linear_combination shelf_outer ha (-Real.cos w0) (-alpha)

/-- The coefficients are those of two denominators, of the filter's own gain and of the opposite
one. -/
theorem designBiquad_eq (h : spec.Designable realMath sampleRate) :
    designBiquad realMath spec sampleRate =
      some (shapeCoeffs spec.type (2 * Real.pi * spec.fcHz / sampleRate) spec.q
        (amplitude spec.gainDb)) := by
  obtain ⟨type, fcHz, q, gainDb⟩ := spec
  rw [designBiquad, if_pos h]
  cases type with
  | peaking => exact congrArg some (designPeaking_eq _ q gainDb)
  | lowShelf => exact congrArg some (designLowShelf_eq _ q gainDb)
  | highShelf => exact congrArg some (designHighShelf_eq _ q gainDb)

theorem FilterSpec.Designable.neg (h : spec.Designable realMath sampleRate) :
    { spec with gainDb := -spec.gainDb }.Designable realMath sampleRate := by
  obtain ⟨hfs, hfc, hnyquist, hq, hshelf⟩ := h
  refine ⟨hfs, hfc, hnyquist, hq, fun htype => ?_⟩
  have hpos : 0 < shelfRadicand spec.q (amplitude spec.gainDb) := hshelf htype
  change 0 < shelfRadicand spec.q (amplitude (-spec.gainDb))
  rw [amplitude_neg, shelfRadicand_inv]
  exact hpos

/-! ### The response -/

theorem FilterSpec.Designable.triples (h : spec.Designable realMath sampleRate) :
    let w0 := 2 * Real.pi * spec.fcHz / sampleRate
    let a := amplitude spec.gainDb
    (denominatorTriple spec.type w0 spec.q a⁻¹).Inside ∧
      (denominatorTriple spec.type w0 spec.q a).Inside := by
  intro w0 a
  have ha : 0 < a := amplitude_pos spec.gainDb
  constructor
  · refine denominatorTriple_inside h.corner_mem h.2.2.2.1 (inv_pos.mpr ha) fun htype => ?_
    rw [shelfRadicand_inv]
    exact h.radicand_pos htype
  · exact denominatorTriple_inside h.corner_mem h.2.2.2.1 ha h.radicand_pos

/-- The response at one frequency, from the squares of the sizes of the two sides. -/
theorem responseDb_of_ratio {sampleRate hz w : ℝ} (ratio : ℝ)
    (h : spec.Designable realMath sampleRate) (hw : 2 * Real.pi * hz / sampleRate = w)
    (hratio : numeratorScale spec.type (amplitude spec.gainDb) ^ 2 *
        (denominatorTriple spec.type (2 * Real.pi * spec.fcHz / sampleRate) spec.q
          (amplitude spec.gainDb)⁻¹).magSq w =
      ratio * (denominatorTriple spec.type (2 * Real.pi * spec.fcHz / sampleRate) spec.q
        (amplitude spec.gainDb)).magSq w) :
    responseDb realMath spec sampleRate hz = some (10 * Real.logb 10 ratio) := by
  obtain ⟨hnum, hden⟩ := h.triples
  rw [responseDb, designBiquad_eq h, Option.map_some]
  change some (-attenuationDb realMath _ (2 * Real.pi * hz / sampleRate)) = _
  rw [hw, shapeCoeffs, ofTriples_response (numeratorScale_pos _ (amplitude_pos _)) hnum hden,
    hratio, mul_div_cancel_right₀ _ (hden.magSq_pos w).ne']

theorem logb_amplitude_pow (gainDb : ℝ) (n : ℕ) :
    10 * Real.logb 10 (amplitude gainDb ^ n) = n * gainDb / 4 := by
  rw [Real.logb_pow, logb_amplitude]
  ring

section Ratios

variable {w0 q a w : ℝ}

/-- A peaking filter's two sides differ by what is added at the corner. -/
theorem peaking_magSq (w0 q a w : ℝ) :
    (denominatorTriple .peaking w0 q a).magSq w =
      4 * ((Real.cos w - Real.cos w0) ^ 2 +
        (Real.sin w0 / (2 * q) * Real.sin w) ^ 2 / a ^ 2) := by
  simp only [CookbookTriple.magSq, denominatorTriple]
  ring

theorem peaking_magSq_inv (ha : 0 < a) :
    (denominatorTriple .peaking w0 q a⁻¹).magSq w =
      4 * ((Real.cos w - Real.cos w0) ^ 2 +
        a ^ 4 * ((Real.sin w0 / (2 * q) * Real.sin w) ^ 2 / a ^ 2)) := by
  rw [peaking_magSq]
  field_simp

/-- Where the level of the one part is multiplied, the level of the sum is multiplied by less. -/
theorem logb_ratio_mem {x y k : ℝ} (hx : 0 ≤ x) (hy : 0 ≤ y) (hpos : 0 < x + y) (hk : 0 < k) :
    10 * Real.logb 10 ((x + k * y) / (x + y)) ∈ Set.uIcc 0 (10 * Real.logb 10 k) := by
  have hratio : 0 < (x + k * y) / (x + y) := by
    refine div_pos ?_ hpos
    obtain hx' | rfl := hx.lt_or_eq
    · positivity
    · have hy' : 0 < y := by linarith
      positivity
  obtain hle | hle := le_total 1 k
  · have hlow : 1 ≤ (x + k * y) / (x + y) := by
      rw [one_le_div hpos]
      linarith [mul_nonneg (sub_nonneg.mpr hle) hy]
    have hhigh : (x + k * y) / (x + y) ≤ k := by
      rw [div_le_iff₀ hpos]
      linarith [mul_nonneg (sub_nonneg.mpr hle) hx]
    refine Set.mem_uIcc_of_le ?_ ?_
    · exact mul_nonneg (by norm_num) (Real.logb_nonneg (by norm_num) hlow)
    · exact mul_le_mul_of_nonneg_left (Real.logb_le_logb_of_le (by norm_num) hratio hhigh)
        (by norm_num)
  · have hhigh : (x + k * y) / (x + y) ≤ 1 := by
      rw [div_le_one hpos]
      linarith [mul_nonneg (sub_nonneg.mpr hle) hy]
    have hlow : k ≤ (x + k * y) / (x + y) := by
      rw [le_div_iff₀ hpos]
      linarith [mul_nonneg (sub_nonneg.mpr hle) hx]
    refine Set.mem_uIcc_of_ge ?_ ?_
    · exact mul_le_mul_of_nonneg_left (Real.logb_le_logb_of_le (by norm_num) hk hlow)
        (by norm_num)
    · exact mul_nonpos_of_nonneg_of_nonpos (by norm_num)
        (Real.logb_nonpos (by norm_num) hratio.le hhigh)

theorem lowShelf_magSq_zero : (denominatorTriple .lowShelf w0 q a).magSq 0 =
    16 * (1 - Real.cos w0) ^ 2 := by
  simp only [CookbookTriple.magSq, denominatorTriple, Real.cos_zero, Real.sin_zero]
  ring

theorem highShelf_magSq_pi : (denominatorTriple .highShelf w0 q a).magSq Real.pi =
    16 * (1 + Real.cos w0) ^ 2 := by
  simp only [CookbookTriple.magSq, denominatorTriple, Real.cos_pi, Real.sin_pi]
  ring

/-- And at the end where it has none. -/
theorem lowShelf_magSq_pi : (denominatorTriple .lowShelf w0 q a).magSq Real.pi =
    a ^ 2 * (16 * (1 + Real.cos w0) ^ 2) := by
  simp only [CookbookTriple.magSq, denominatorTriple, Real.cos_pi, Real.sin_pi]
  ring

theorem highShelf_magSq_zero : (denominatorTriple .highShelf w0 q a).magSq 0 =
    a ^ 2 * (16 * (1 - Real.cos w0) ^ 2) := by
  simp only [CookbookTriple.magSq, denominatorTriple, Real.cos_zero, Real.sin_zero]
  ring

theorem shelf_magSq_corner {type : FilterType} (htype : type ≠ .peaking) (ha : 0 < a) :
    (denominatorTriple type w0 q a).magSq w0 =
      4 * (a - 1) ^ 2 * (Real.sin w0 ^ 2) ^ 2 +
        16 * a * (shelfAlpha realMath w0 q a * Real.sin w0) ^ 2 := by
  have hroot : √a * √a = a := Real.mul_self_sqrt ha.le
  have hcos : Real.cos w0 ^ 2 = 1 - Real.sin w0 ^ 2 := Real.cos_sq' w0
  cases type with
  | peaking => exact absurd rfl htype
  | lowShelf =>
    simp only [CookbookTriple.magSq, denominatorTriple]
    generalize shelfAlpha realMath w0 q a = alpha
    have hmiddle : -2 * ((a - 1) + (a + 1) * Real.cos w0) +
        ((a + 1) + (a - 1) * Real.cos w0 + 2 * √a * alpha +
          ((a + 1) + (a - 1) * Real.cos w0 - 2 * √a * alpha)) * Real.cos w0 =
        -2 * (a - 1) * Real.sin w0 ^ 2 := by
      linear_combination 2 * (a - 1) * hcos
    rw [hmiddle]
    linear_combination 16 * (alpha * Real.sin w0) ^ 2 * hroot
  | highShelf =>
    simp only [CookbookTriple.magSq, denominatorTriple]
    generalize shelfAlpha realMath w0 q a = alpha
    have hmiddle : 2 * ((a - 1) - (a + 1) * Real.cos w0) +
        ((a + 1) - (a - 1) * Real.cos w0 + 2 * √a * alpha +
          ((a + 1) - (a - 1) * Real.cos w0 - 2 * √a * alpha)) * Real.cos w0 =
        2 * (a - 1) * Real.sin w0 ^ 2 := by
      linear_combination -2 * (a - 1) * hcos
    rw [hmiddle]
    linear_combination 16 * (alpha * Real.sin w0) ^ 2 * hroot

theorem shelf_ratio_corner {type : FilterType} (htype : type ≠ .peaking) (ha : 0 < a) :
    (a ^ 2) ^ 2 * (denominatorTriple type w0 q a⁻¹).magSq w0 =
      a ^ 2 * (denominatorTriple type w0 q a).magSq w0 := by
  rw [shelf_magSq_corner htype ha, shelf_magSq_corner htype (inv_pos.mpr ha), shelfAlpha_inv]
  field_simp
  ring

end Ratios

/-- The response at the two ends and at the corner. -/
def HasShape (spec : FilterSpec ℝ) (sampleRate : ℝ) : Prop :=
  match spec.type with
  | .peaking =>
    responseDb realMath spec sampleRate 0 = some 0 ∧
      responseDb realMath spec sampleRate (sampleRate / 2) = some 0 ∧
      responseDb realMath spec sampleRate spec.fcHz = some spec.gainDb ∧
      ∀ hz, ∃ db ∈ Set.uIcc 0 spec.gainDb, responseDb realMath spec sampleRate hz = some db
  | .lowShelf =>
    responseDb realMath spec sampleRate 0 = some spec.gainDb ∧
      responseDb realMath spec sampleRate spec.fcHz = some (spec.gainDb / 2) ∧
      responseDb realMath spec sampleRate (sampleRate / 2) = some 0
  | .highShelf =>
    responseDb realMath spec sampleRate 0 = some 0 ∧
      responseDb realMath spec sampleRate spec.fcHz = some (spec.gainDb / 2) ∧
      responseDb realMath spec sampleRate (sampleRate / 2) = some spec.gainDb

section Shapes

variable {spec : FilterSpec ℝ} {sampleRate : ℝ}

theorem phase_nyquist (hfs : 0 < sampleRate) :
    2 * Real.pi * (sampleRate / 2) / sampleRate = Real.pi := by
  field_simp

theorem phase_zero : 2 * Real.pi * 0 / sampleRate = 0 := by
  rw [mul_zero, zero_div]

theorem logb_one_db : 10 * Real.logb 10 (1 : ℝ) = 0 := by
  rw [Real.logb_one, mul_zero]

theorem logb_full_gain (gainDb : ℝ) : 10 * Real.logb 10 (amplitude gainDb ^ 4) = gainDb := by
  rw [logb_amplitude_pow]
  push_cast
  ring

theorem logb_half_gain (gainDb : ℝ) : 10 * Real.logb 10 (amplitude gainDb ^ 2) = gainDb / 2 := by
  rw [logb_amplitude_pow]
  push_cast
  ring

section

variable (h : spec.Designable realMath sampleRate)

include h

theorem hasShape_peaking (htype : spec.type = .peaking) :
    HasShape spec sampleRate := by
  have ha := amplitude_pos spec.gainDb
  rw [HasShape, htype]
  refine ⟨?_, ?_, ?_, fun hz => ?_⟩
  · rw [responseDb_of_ratio 1 h phase_zero, logb_one_db]
    rw [htype, peaking_magSq_inv ha, peaking_magSq, numeratorScale, Real.sin_zero]
    ring
  · rw [responseDb_of_ratio 1 h (phase_nyquist h.1), logb_one_db]
    rw [htype, peaking_magSq_inv ha, peaking_magSq, numeratorScale, Real.sin_pi]
    ring
  · rw [responseDb_of_ratio (amplitude spec.gainDb ^ 4) h rfl, logb_full_gain]
    rw [htype, peaking_magSq_inv ha, peaking_magSq, numeratorScale]
    ring
  · have hpos := h.triples.2.magSq_pos (2 * Real.pi * hz / sampleRate)
    rw [htype, peaking_magSq] at hpos
    have hsum := (mul_pos_iff_of_pos_left (by norm_num)).mp hpos
    have hmem := logb_ratio_mem (sq_nonneg _) (div_nonneg (sq_nonneg _) (sq_nonneg _)) hsum
      (pow_pos ha 4)
    rw [logb_full_gain] at hmem
    refine ⟨_, hmem, responseDb_of_ratio _ h rfl ?_⟩
    rw [htype, peaking_magSq_inv ha, peaking_magSq, numeratorScale, one_pow, one_mul,
      mul_left_comm, div_mul_cancel₀ _ hsum.ne']

theorem hasShape_lowShelf (htype : spec.type = .lowShelf) : HasShape spec sampleRate := by
  have ha := amplitude_pos spec.gainDb
  rw [HasShape, htype]
  refine ⟨?_, ?_, ?_⟩
  · rw [responseDb_of_ratio (amplitude spec.gainDb ^ 4) h phase_zero, logb_full_gain]
    rw [htype, lowShelf_magSq_zero, lowShelf_magSq_zero, numeratorScale]
    ring
  · rw [responseDb_of_ratio (amplitude spec.gainDb ^ 2) h rfl, logb_half_gain]
    rw [htype]
    exact shelf_ratio_corner (by decide) ha
  · rw [responseDb_of_ratio 1 h (phase_nyquist h.1), logb_one_db]
    rw [htype, lowShelf_magSq_pi, lowShelf_magSq_pi, numeratorScale]
    field_simp

theorem hasShape_highShelf (htype : spec.type = .highShelf) : HasShape spec sampleRate := by
  have ha := amplitude_pos spec.gainDb
  rw [HasShape, htype]
  refine ⟨?_, ?_, ?_⟩
  · rw [responseDb_of_ratio 1 h phase_zero, logb_one_db]
    rw [htype, highShelf_magSq_zero, highShelf_magSq_zero, numeratorScale]
    field_simp
  · rw [responseDb_of_ratio (amplitude spec.gainDb ^ 2) h rfl, logb_half_gain]
    rw [htype]
    exact shelf_ratio_corner (by decide) ha
  · rw [responseDb_of_ratio (amplitude spec.gainDb ^ 4) h (phase_nyquist h.1), logb_full_gain]
    rw [htype, highShelf_magSq_pi, highShelf_magSq_pi, numeratorScale]
    ring

end

theorem shapeCoeffs_stable {type : FilterType} {w0 q a : ℝ}
    (hden : (denominatorTriple type w0 q a).Inside) : Stable (shapeCoeffs type w0 q a) :=
  hden.triangle

theorem shapeCoeffs_reciprocal {type : FilterType} {w0 q a : ℝ} (ha : 0 < a)
    (hinv : (denominatorTriple type w0 q a⁻¹).Inside)
    (hden : (denominatorTriple type w0 q a).Inside) (zInv : ℂ) :
    biquadNumerator (shapeCoeffs type w0 q a) zInv *
        biquadNumerator (shapeCoeffs type w0 q a⁻¹) zInv =
      biquadDenominator (shapeCoeffs type w0 q a) zInv *
        biquadDenominator (shapeCoeffs type w0 q a⁻¹) zInv := by
  have hscale : (numeratorScale type a : ℂ) * numeratorScale type a⁻¹ = 1 := by
    rw [← Complex.ofReal_mul, numeratorScale_inv type ha, Complex.ofReal_one]
  simp only [shapeCoeffs, inv_inv, ofTriples_numerator, ofTriples_denominator hinv,
    ofTriples_denominator hden]
  rw [div_mul_div_comm, div_mul_div_comm]
  congr 1
  linear_combination (denominatorTriple type w0 q a⁻¹).eval zInv *
    (denominatorTriple type w0 q a).eval zInv * hscale

end Shapes

/-- A zero of a section. -/
def IsZero (c : BiquadCoeffs ℝ) (z : ℂ) : Prop := c.b0 * z ^ 2 + c.b1 * z + c.b2 = 0

theorem shapeCoeffs_zero {type : FilterType} {w0 q a : ℝ} (ha : 0 < a)
    (hnum : (denominatorTriple type w0 q a⁻¹).Inside)
    (hden : (denominatorTriple type w0 q a).Inside) :
    (shapeCoeffs type w0 q a).b0 ≠ 0 ∧ ∀ z, IsZero (shapeCoeffs type w0 q a) z → ‖z‖ < 1 := by
  have hscale := numeratorScale_pos type ha
  have hs : (numeratorScale type a : ℂ) ≠ 0 := Complex.ofReal_ne_zero.mpr hscale.ne'
  have hd : ((denominatorTriple type w0 q a).c0 : ℂ) ≠ 0 :=
    Complex.ofReal_ne_zero.mpr hden.c0_pos.ne'
  constructor
  · exact (div_pos (mul_pos hscale hnum.c0_pos) hden.c0_pos).ne'
  · intro z hz
    refine hnum.norm_root_lt_one ((mul_eq_zero.mp ?_).resolve_left (div_ne_zero hs hd))
    simp only [IsZero, shapeCoeffs, ofTriples, normalize, Complex.ofReal_div,
      Complex.ofReal_mul] at hz
    linear_combination hz

/-- **Headline.** A filter that is designed has its poles and its zeros strictly inside the unit
circle and the shape of its type, and the filter with the opposite gain, which is designed too,
undoes it. -/
theorem designBiquad_shapes (spec : FilterSpec ℝ) (sampleRate : ℝ) (c : BiquadCoeffs ℝ)
    (hc : designBiquad realMath spec sampleRate = some c) :
    (∀ z, IsPole c z → ‖z‖ < 1) ∧
      (c.b0 ≠ 0 ∧ ∀ z, IsZero c z → ‖z‖ < 1) ∧
      HasShape spec sampleRate ∧
      ∃ c', designBiquad realMath { spec with gainDb := -spec.gainDb } sampleRate = some c' ∧
        (∀ zInv, biquadNumerator c zInv * biquadNumerator c' zInv =
          biquadDenominator c zInv * biquadDenominator c' zInv) ∧
        ∀ w, biquadResponse c w * biquadResponse c' w = 1 := by
  have h : spec.Designable realMath sampleRate := by
    by_contra hrefused
    rw [designBiquad, if_neg hrefused] at hc
    cases hc
  have ha := amplitude_pos spec.gainDb
  obtain ⟨hnum, hden⟩ := h.triples
  rw [designBiquad_eq h] at hc
  cases hc
  have hstable := shapeCoeffs_stable hden
  have hstable' := shapeCoeffs_stable hnum
  have hreciprocal := shapeCoeffs_reciprocal ha hnum hden
  refine ⟨fun z hz => hstable.norm_pole_lt_one hz, shapeCoeffs_zero ha hnum hden, ?_, ?_⟩
  · generalize htype : spec.type = type
    cases type with
    | peaking => exact hasShape_peaking h htype
    | lowShelf => exact hasShape_lowShelf h htype
    | highShelf => exact hasShape_highShelf h htype
  · refine ⟨_, designBiquad_eq h.neg, ?_, fun w => ?_⟩
    · change ∀ zInv, _ * biquadNumerator (shapeCoeffs spec.type _ spec.q (amplitude (-spec.gainDb)))
        zInv = _
      rw [amplitude_neg]
      exact hreciprocal
    · change _ * biquadResponse (shapeCoeffs spec.type _ spec.q (amplitude (-spec.gainDb))) w = _
      rw [amplitude_neg, biquadResponse, biquadResponse, div_mul_div_comm, hreciprocal]
      exact div_self (mul_ne_zero (hstable.denominator_ne_zero w) (hstable'.denominator_ne_zero w))

/-- A peaking filter without gain, at half the highest frequency. -/
theorem designBiquad_shapes_flat :
    let spec : FilterSpec ℝ := { type := .peaking, fcHz := 1, q := 1, gainDb := 0 }
    HasShape spec 4 := by
  intro spec
  have h : spec.Designable realMath 4 :=
    ⟨by norm_num, one_pos, by norm_num [spec], one_pos, fun htype => absurd rfl htype⟩
  exact (designBiquad_shapes spec 4 _ (if_pos h)).2.2.1

end AutoEq

end RtaTool
