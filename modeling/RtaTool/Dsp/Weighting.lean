import RtaTool.Dsp.BiquadResponse
import RtaTool.Measure.SplMeter

/-!
# The frequency weightings

`Weighting.cpp`: the analog A and C curves and the sections that the bilinear transform makes of
them. A factor `1 - p z⁻¹` with `p` the transform of a pole at `-w` is, on the unit circle, the
analog factor at the warped frequency over `fs2 + w`, so that the digital response is the analog
one at that frequency.

The transform turns a pole further out into one further in only while the product of the two is
below the square of `fs2`. The comment on `designA` takes the order of the sections to be that of
the analog poles at every rate, which is so from some 3.6 kHz on.

## Main definitions

* `bracketA`, `bracketC`, `bilinear`, `designA`, `designC`
* `Weighting`, `analyticDb`, `weightingResponseDb`

## Main results

* `norm_one_sub_bilinear` -- one pole on the unit circle
* `abs_bilinear_lt_iff` -- when the transform reverses the order of two poles
* `weighting_spec` -- **Headline.** The response, the poles and when the sections are in order
-/

namespace RtaTool

namespace Dsp

open AutoEq Measure

/-! ### `Weighting.cpp` -/

noncomputable def kF1 : ℝ := 20.598997

noncomputable def kF2 : ℝ := 107.65265

noncomputable def kF3 : ℝ := 737.86223

noncomputable def kF4 : ℝ := 12194.217

noncomputable def kTwoPi : ℝ := 2 * Real.pi

/-- `bracketA(f)`. -/
noncomputable def bracketA (f : ℝ) : ℝ :=
  let f2 := f * f
  (f2 * f2) /
    ((f2 + kF1 * kF1) * √(f2 + kF2 * kF2) * √(f2 + kF3 * kF3) * (f2 + kF4 * kF4))

/-- `bracketC(f)`. -/
noncomputable def bracketC (f : ℝ) : ℝ :=
  let f2 := f * f
  f2 / ((f2 + kF1 * kF1) * (f2 + kF4 * kF4))

noncomputable def analogGainA : ℝ := 1 / bracketA 1000

noncomputable def analogGainC : ℝ := 1 / bracketC 1000

/-- `bilinear(w, fs2)`. -/
noncomputable def bilinear (w fs2 : ℝ) : ℝ := (fs2 - w) / (fs2 + w)

/-- `designA(sampleRate)`. -/
noncomputable def designA (sampleRate : ℝ) : List (BiquadCoeffs ℝ) :=
  let fs2 := 2 * sampleRate
  let w1 := kTwoPi * kF1
  let w2 := kTwoPi * kF2
  let w3 := kTwoPi * kF3
  let w4 := kTwoPi * kF4
  let kZpk := analogGainA * kTwoPi * kTwoPi
  let p4 := bilinear w4 fs2
  let p1 := bilinear w1 fs2
  let p2 := bilinear w2 fs2
  let p3 := bilinear w3 fs2
  let kDigital := kZpk * (fs2 * fs2 * fs2 * fs2) /
    ((fs2 + w4) * (fs2 + w4) * (fs2 + w1) * (fs2 + w1) * (fs2 + w2) * (fs2 + w3))
  [{ b0 := kDigital * 1, b1 := kDigital * 2, b2 := kDigital * 1, a1 := -2 * p4, a2 := p4 * p4 },
    { b0 := 1, b1 := -2, b2 := 1, a1 := -(p2 + p3), a2 := p2 * p3 },
    { b0 := 1, b1 := -2, b2 := 1, a1 := -2 * p1, a2 := p1 * p1 }]

/-- `designC(sampleRate)`. -/
noncomputable def designC (sampleRate : ℝ) : List (BiquadCoeffs ℝ) :=
  let fs2 := 2 * sampleRate
  let w1 := kTwoPi * kF1
  let w4 := kTwoPi * kF4
  let kZpk := analogGainC * kTwoPi * kTwoPi
  let p4 := bilinear w4 fs2
  let p1 := bilinear w1 fs2
  let kDigital := kZpk * (fs2 * fs2) / ((fs2 + w4) * (fs2 + w4) * (fs2 + w1) * (fs2 + w1))
  [{ b0 := kDigital * 1, b1 := kDigital * 2, b2 := kDigital * 1, a1 := -2 * p4, a2 := p4 * p4 },
    { b0 := 1, b1 := -2, b2 := 1, a1 := -2 * p1, a2 := p1 * p1 }]

/-- `Weighting`, less the state of its cascade. -/
structure Weighting where
  type : WeightingType
  sampleRate : ℝ
  cascade : List (BiquadCoeffs ℝ)

open Classical in
/-- The constructor. `none` is `std::invalid_argument`. -/
noncomputable def Weighting.make (type : WeightingType) (sampleRate : ℝ) : Option Weighting :=
  if ¬ 0 < sampleRate then none
  else
    some
      { type := type
        sampleRate := sampleRate
        cascade :=
          match type with
          | .A => designA sampleRate
          | .C => designC sampleRate
          | .Z => [] }

open Classical in
/-- `Weighting::analyticDb(frequencyHz, type)`. `none` is `std::invalid_argument`. -/
noncomputable def analyticDb (frequencyHz : ℝ) (type : WeightingType) : Option ℝ :=
  if ¬ 0 < frequencyHz then none
  else
    some
      (match type with
      | .A => 20 * Real.logb 10 (analogGainA * bracketA frequencyHz)
      | .C => 20 * Real.logb 10 (analogGainC * bracketC frequencyHz)
      | .Z => 0)

open Classical in
/-- `Weighting::responseDb(frequencyHz)`. `none` is `std::invalid_argument`. -/
noncomputable def Weighting.responseDb (w : Weighting) (frequencyHz : ℝ) : Option ℝ :=
  if ¬ 0 < frequencyHz then none
  else
    let omega := kTwoPi * frequencyHz / w.sampleRate
    some (-attenuationDb realMath w.cascade omega)

/-! ### Sections of two real poles -/

/-- A section with its two zeros at `-side`, where `side` is one or minus one, and two real
poles. -/
def realPoleSection (gain side p q : ℝ) : BiquadCoeffs ℝ :=
  { b0 := gain, b1 := 2 * side * gain, b2 := gain, a1 := -(p + q), a2 := p * q }

section RealPoles

variable {gain side p q : ℝ}

theorem realPoleSection_numerator (hside : side * side = 1) (zInv : ℂ) :
    biquadNumerator (realPoleSection gain side p q) zInv = gain * (1 + side * zInv) ^ 2 := by
  have hside' : (side : ℂ) * side = 1 := by exact_mod_cast hside
  simp only [biquadNumerator, realPoleSection]
  push_cast
  linear_combination -(gain * zInv ^ 2 : ℂ) * hside'

theorem realPoleSection_denominator (zInv : ℂ) :
    biquadDenominator (realPoleSection gain side p q) zInv =
      (1 - p * zInv) * (1 - q * zInv) := by
  simp only [biquadDenominator, realPoleSection]
  push_cast
  ring

theorem realPoleSection_low (gain p : ℝ) : realPoleSection gain 1 p p =
    { b0 := gain * 1, b1 := gain * 2, b2 := gain * 1, a1 := -2 * p, a2 := p * p } := by
  rw [realPoleSection]
  congr 1 <;> ring

theorem realPoleSection_high (p q : ℝ) : realPoleSection 1 (-1) p q =
    { b0 := 1, b1 := -2, b2 := 1, a1 := -(p + q), a2 := p * q } := by
  rw [realPoleSection]
  congr 1
  norm_num

theorem realPoleSection_double (p : ℝ) : realPoleSection 1 (-1) p p =
    { b0 := 1, b1 := -2, b2 := 1, a1 := -2 * p, a2 := p * p } := by
  rw [realPoleSection_high]
  congr 1
  ring

theorem realPoleSection_stable (hp : |p| < 1) (hq : |q| < 1) :
    Stable (realPoleSection gain side p q) :=
  InTriangle.of_factors hp hq

theorem realPoleSection_isPole (z : ℂ) :
    IsPole (realPoleSection gain side p q) z ↔ z = p ∨ z = q := by
  have hfactor : z ^ 2 + (realPoleSection gain side p q).a1 * z +
      (realPoleSection gain side p q).a2 = (z - p) * (z - q) := by
    simp only [realPoleSection]
    push_cast
    ring
  rw [IsPole, hfactor, mul_eq_zero, sub_eq_zero, sub_eq_zero]

theorem realPoleSection_radius :
    sectionPoleRadius (realPoleSection gain side p q) = max |p| |q| := by
  refine (isGreatest_sectionPoleRadius _).unique ⟨?_, ?_⟩
  · obtain hle | hle := le_total |p| |q|
    · rw [max_eq_right hle]
      exact ⟨q, (realPoleSection_isPole _).mpr (.inr rfl), Complex.norm_real q⟩
    · rw [max_eq_left hle]
      exact ⟨p, (realPoleSection_isPole _).mpr (.inl rfl), Complex.norm_real p⟩
  · rintro r ⟨z, hz, rfl⟩
    obtain rfl | rfl := (realPoleSection_isPole z).mp hz
    · exact (Complex.norm_real p).le.trans (le_max_left _ _)
    · exact (Complex.norm_real q).le.trans (le_max_right _ _)

end RealPoles

/-! ### The bilinear transform -/

section Bilinear

variable {v w fs2 : ℝ}

theorem abs_bilinear_lt_one (hw : 0 < w) (hfs2 : 0 < fs2) : |bilinear w fs2| < 1 := by
  rw [bilinear, abs_div, abs_of_pos (by linarith : 0 < fs2 + w), div_lt_one (by linarith), abs_lt]
  constructor <;> linarith

/-- A pole further out is turned into one further in just where the product of the two is below
the square of `fs2`. -/
theorem abs_bilinear_lt_iff (hv : 0 < v) (hvw : v < w) (hfs2 : 0 < fs2) :
    |bilinear w fs2| < |bilinear v fs2| ↔ v * w < fs2 ^ 2 := by
  have hw : 0 < fs2 + w := by linarith
  have hv' : 0 < fs2 + v := by linarith
  have hgap : ((fs2 - v) * (fs2 + w)) ^ 2 - ((fs2 - w) * (fs2 + v)) ^ 2 =
      4 * fs2 * (w - v) * (fs2 ^ 2 - v * w) := by
    ring
  have hpos : 0 < 4 * fs2 * (w - v) := mul_pos (by linarith) (by linarith)
  rw [bilinear, bilinear, ← sq_lt_sq, div_pow, div_pow, div_lt_div_iff₀ (by positivity)
    (by positivity), ← mul_pow, ← mul_pow, ← sub_pos, hgap, mul_pos_iff_of_pos_left hpos, sub_pos]

variable {omega : ℝ}

/-- One pole on the unit circle, at an angle below half a turn. -/
theorem norm_one_sub_bilinear (hw : 0 < w) (hfs2 : 0 < fs2) (homega : 0 < omega)
    (hpi : omega < Real.pi) :
    ‖1 - (bilinear w fs2 : ℂ) * zInvAt omega‖ =
      2 * Real.cos (omega / 2) / (fs2 + w) * √((fs2 * Real.tan (omega / 2)) ^ 2 + w ^ 2) := by
  have hcos : 0 < Real.cos (omega / 2) :=
    Real.cos_pos_of_mem_Ioo ⟨by linarith, by linarith⟩
  have hsum : 0 < fs2 + w := by linarith
  have hsumne : (fs2 + w : ℂ) ≠ 0 := by exact_mod_cast hsum.ne'
  have hsin : (Real.sin (omega / 2) : ℂ) = Real.cos (omega / 2) * Real.tan (omega / 2) := by
    rw [← Complex.ofReal_mul, mul_comm, Real.tan_mul_cos hcos.ne']
  have hfactor : 1 - (bilinear w fs2 : ℂ) * zInvAt omega =
      ((2 * Real.cos (omega / 2) / (fs2 + w) : ℝ) : ℂ) * zInvAt (omega / 2) *
        ((w : ℂ) + ((fs2 * Real.tan (omega / 2) : ℝ) : ℂ) * Complex.I) := by
    have hscale : (fs2 + w : ℂ) * (1 - (bilinear w fs2 : ℂ) * zInvAt omega) =
        fs2 * (1 - zInvAt omega) + w * (1 + zInvAt omega) := by
      rw [bilinear, Complex.ofReal_div, Complex.ofReal_sub, Complex.ofReal_add]
      field_simp
      ring
    rw [one_sub_zInv, one_add_zInv, hsin] at hscale
    refine mul_left_cancel₀ hsumne (hscale.trans ?_)
    rw [Complex.ofReal_div, Complex.ofReal_mul, Complex.ofReal_mul, Complex.ofReal_add]
    generalize (Real.cos (omega / 2) : ℂ) = c
    generalize (Real.tan (omega / 2) : ℂ) = t
    field_simp
    push_cast
    ring
  rw [hfactor, norm_mul, norm_mul, norm_zInvAt, mul_one, Complex.norm_real, Real.norm_eq_abs,
    abs_of_pos (by positivity), Complex.norm_add_mul_I, add_comm (w ^ 2)]

theorem norm_one_add_zInv (homega : 0 < omega) (hpi : omega < Real.pi) :
    ‖1 + zInvAt omega‖ = 2 * Real.cos (omega / 2) := by
  have hcos : 0 < Real.cos (omega / 2) :=
    Real.cos_pos_of_mem_Ioo ⟨by linarith, by linarith⟩
  have htwo : (2 * Real.cos (omega / 2) : ℂ) = ((2 * Real.cos (omega / 2) : ℝ) : ℂ) := by
    rw [Complex.ofReal_mul, Complex.ofReal_ofNat]
  rw [one_add_zInv, norm_mul, norm_zInvAt, mul_one, htwo, Complex.norm_real, Real.norm_eq_abs,
    abs_of_pos (by positivity)]

theorem norm_one_sub_zInv (homega : 0 < omega) (hpi : omega < Real.pi) :
    ‖1 - zInvAt omega‖ = 2 * Real.cos (omega / 2) * Real.tan (omega / 2) := by
  have hcos : 0 < Real.cos (omega / 2) :=
    Real.cos_pos_of_mem_Ioo ⟨by linarith, by linarith⟩
  have hsin : 0 < Real.sin (omega / 2) :=
    Real.sin_pos_of_pos_of_lt_pi (by linarith) (by linarith)
  have htwo : (2 * (Complex.I * Real.sin (omega / 2)) : ℂ) =
      ((2 * Real.sin (omega / 2) : ℝ) : ℂ) * Complex.I := by
    rw [Complex.ofReal_mul, Complex.ofReal_ofNat]
    ring
  rw [one_sub_zInv, norm_mul, norm_zInvAt, mul_one, htwo, norm_mul, Complex.norm_I, mul_one,
    Complex.norm_real, Real.norm_eq_abs, abs_of_pos (by positivity), mul_assoc,
    mul_comm (Real.cos _), Real.tan_mul_cos hcos.ne']

theorem norm_realPoleSection {gain side p q : ℝ} (hgain : 0 < gain) (hside : side * side = 1)
    (omega : ℝ) :
    ‖biquadResponse (realPoleSection gain side p q) omega‖ =
      gain * ‖1 + side * zInvAt omega‖ ^ 2 /
        (‖1 - p * zInvAt omega‖ * ‖1 - q * zInvAt omega‖) := by
  rw [biquadResponse, realPoleSection_numerator hside, realPoleSection_denominator, norm_div,
    norm_mul, norm_mul, norm_pow, Complex.norm_real, Real.norm_eq_abs, abs_of_pos hgain]

end Bilinear

/-! ### The cascades -/

theorem kF1_pos : 0 < kF1 := by
  norm_num [kF1]

theorem kF2_pos : 0 < kF2 := by
  norm_num [kF2]

theorem kF3_pos : 0 < kF3 := by
  norm_num [kF3]

theorem kF4_pos : 0 < kF4 := by
  norm_num [kF4]

theorem kTwoPi_pos : 0 < kTwoPi :=
  mul_pos two_pos Real.pi_pos

theorem bracketA_pos {f : ℝ} (hf : 0 < f) : 0 < bracketA f := by
  have h1 := kF1_pos
  have h2 := kF2_pos
  have h3 := kF3_pos
  have h4 := kF4_pos
  rw [bracketA]
  positivity

theorem bracketC_pos {f : ℝ} (hf : 0 < f) : 0 < bracketC f := by
  have h1 := kF1_pos
  have h4 := kF4_pos
  rw [bracketC]
  positivity

/-- The frequency that the bilinear transform takes to `frequencyHz`. -/
noncomputable def warpedHz (sampleRate frequencyHz : ℝ) : ℝ :=
  sampleRate / Real.pi * Real.tan (Real.pi * frequencyHz / sampleRate)

section Cascade

variable {sampleRate f : ℝ}

section

variable (hfs : 0 < sampleRate) (hf : 0 < f) (hnyquist : f < sampleRate / 2)

include hfs hf hnyquist

/-- A frequency below half the rate is an angle below half a turn. -/
theorem omega_mem :
    0 < kTwoPi * f / sampleRate ∧ kTwoPi * f / sampleRate < Real.pi := by
  have hpi := Real.pi_pos
  constructor
  · exact div_pos (mul_pos kTwoPi_pos hf) hfs
  · rw [div_lt_iff₀ hfs, kTwoPi]
    nlinarith

omit hfs hf hnyquist in
theorem tan_half_omega (hfs : 0 < sampleRate) :
    Real.tan (kTwoPi * f / sampleRate / 2) = kTwoPi * warpedHz sampleRate f / (2 * sampleRate) := by
  have hangle : kTwoPi * f / sampleRate / 2 = Real.pi * f / sampleRate := by
    rw [kTwoPi]
    ring
  have hpi := Real.pi_pos.ne'
  rw [hangle, warpedHz, kTwoPi]
  field_simp

theorem warpedHz_pos :
    0 < warpedHz sampleRate f := by
  obtain ⟨hpos, hpi⟩ := omega_mem hfs hf hnyquist
  have htan := Real.tan_pos_of_pos_of_lt_pi_div_two (half_pos hpos) (by linarith)
  rw [tan_half_omega hfs, lt_div_iff₀ (by linarith), zero_mul] at htan
  exact (mul_pos_iff_of_pos_left kTwoPi_pos).mp htan

theorem norm_weightingPole {pole : ℝ} (hpole : 0 < pole) :
    ‖1 - (bilinear (kTwoPi * pole) (2 * sampleRate) : ℂ) * zInvAt (kTwoPi * f / sampleRate)‖ =
      2 * Real.cos (kTwoPi * f / sampleRate / 2) * kTwoPi / (2 * sampleRate + kTwoPi * pole) *
        √(warpedHz sampleRate f * warpedHz sampleRate f + pole * pole) := by
  obtain ⟨hpos, hpi⟩ := omega_mem hfs hf hnyquist
  have hwarp : (2 * sampleRate * Real.tan (kTwoPi * f / sampleRate / 2)) ^ 2 +
      (kTwoPi * pole) ^ 2 =
      kTwoPi ^ 2 * (warpedHz sampleRate f * warpedHz sampleRate f + pole * pole) := by
    rw [tan_half_omega hfs, mul_div_cancel₀ _ (by positivity)]
    ring
  rw [norm_one_sub_bilinear (mul_pos kTwoPi_pos hpole) (by linarith) hpos hpi, hwarp,
    Real.sqrt_mul (sq_nonneg _), Real.sqrt_sq kTwoPi_pos.le]
  ring

omit hfs hf hnyquist in
theorem designA_eq (sampleRate : ℝ) :
    let fs2 := 2 * sampleRate
    let kDigital := analogGainA * kTwoPi * kTwoPi * (fs2 * fs2 * fs2 * fs2) /
      ((fs2 + kTwoPi * kF4) * (fs2 + kTwoPi * kF4) * (fs2 + kTwoPi * kF1) *
        (fs2 + kTwoPi * kF1) * (fs2 + kTwoPi * kF2) * (fs2 + kTwoPi * kF3))
    designA sampleRate =
      [realPoleSection kDigital 1 (bilinear (kTwoPi * kF4) fs2) (bilinear (kTwoPi * kF4) fs2),
        realPoleSection 1 (-1) (bilinear (kTwoPi * kF2) fs2) (bilinear (kTwoPi * kF3) fs2),
        realPoleSection 1 (-1) (bilinear (kTwoPi * kF1) fs2) (bilinear (kTwoPi * kF1) fs2)] := by
  intro fs2 kDigital
  rw [realPoleSection_low, realPoleSection_high, realPoleSection_double]
  rfl

omit hfs hf hnyquist in
theorem designC_eq (sampleRate : ℝ) :
    let fs2 := 2 * sampleRate
    let kDigital := analogGainC * kTwoPi * kTwoPi * (fs2 * fs2) /
      ((fs2 + kTwoPi * kF4) * (fs2 + kTwoPi * kF4) * (fs2 + kTwoPi * kF1) *
        (fs2 + kTwoPi * kF1))
    designC sampleRate =
      [realPoleSection kDigital 1 (bilinear (kTwoPi * kF4) fs2) (bilinear (kTwoPi * kF4) fs2),
        realPoleSection 1 (-1) (bilinear (kTwoPi * kF1) fs2) (bilinear (kTwoPi * kF1) fs2)] := by
  intro fs2 kDigital
  rw [realPoleSection_low, realPoleSection_double]
  rfl

omit hfs hf hnyquist in
/-- The poles of every section are inside the unit circle. -/
theorem designA_stable (hfs : 0 < sampleRate) : ∀ c ∈ designA sampleRate, Stable c := by
  have hpole : ∀ pole, 0 < pole → |bilinear (kTwoPi * pole) (2 * sampleRate)| < 1 :=
    fun pole hpos => abs_bilinear_lt_one (mul_pos kTwoPi_pos hpos) (by linarith)
  rw [designA_eq]
  simp only [List.forall_mem_cons]
  exact ⟨realPoleSection_stable (hpole _ kF4_pos) (hpole _ kF4_pos),
    realPoleSection_stable (hpole _ kF2_pos) (hpole _ kF3_pos),
    realPoleSection_stable (hpole _ kF1_pos) (hpole _ kF1_pos), List.forall_mem_nil _⟩

omit hfs hf hnyquist in
theorem designC_stable (hfs : 0 < sampleRate) : ∀ c ∈ designC sampleRate, Stable c := by
  have hpole : ∀ pole, 0 < pole → |bilinear (kTwoPi * pole) (2 * sampleRate)| < 1 :=
    fun pole hpos => abs_bilinear_lt_one (mul_pos kTwoPi_pos hpos) (by linarith)
  rw [designC_eq]
  simp only [List.forall_mem_cons]
  exact ⟨realPoleSection_stable (hpole _ kF4_pos) (hpole _ kF4_pos),
    realPoleSection_stable (hpole _ kF1_pos) (hpole _ kF1_pos), List.forall_mem_nil _⟩

theorem norm_zeros :
    ‖1 + ((1 : ℝ) : ℂ) * zInvAt (kTwoPi * f / sampleRate)‖ =
        2 * Real.cos (kTwoPi * f / sampleRate / 2) ∧
      ‖1 + ((-1 : ℝ) : ℂ) * zInvAt (kTwoPi * f / sampleRate)‖ =
        2 * Real.cos (kTwoPi * f / sampleRate / 2) *
          (kTwoPi * warpedHz sampleRate f / (2 * sampleRate)) := by
  obtain ⟨hpos, hpi⟩ := omega_mem hfs hf hnyquist
  constructor
  · rw [Complex.ofReal_one, one_mul, norm_one_add_zInv hpos hpi]
  · rw [Complex.ofReal_neg, Complex.ofReal_one, neg_one_mul, ← sub_eq_add_neg,
      norm_one_sub_zInv hpos hpi, tan_half_omega hfs]

theorem norm_lowSection {gain pole : ℝ} (hgain : 0 < gain) (hpole : 0 < pole) :
    ‖biquadResponse (realPoleSection gain 1 (bilinear (kTwoPi * pole) (2 * sampleRate))
        (bilinear (kTwoPi * pole) (2 * sampleRate))) (kTwoPi * f / sampleRate)‖ =
      gain * (2 * sampleRate + kTwoPi * pole) ^ 2 /
        (kTwoPi ^ 2 * (warpedHz sampleRate f * warpedHz sampleRate f + pole * pole)) := by
  obtain ⟨hpos, hpi⟩ := omega_mem hfs hf hnyquist
  have hcos : 0 < Real.cos (kTwoPi * f / sampleRate / 2) :=
    Real.cos_pos_of_mem_Ioo ⟨by linarith, by linarith⟩
  have hF := warpedHz_pos hfs hf hnyquist
  have hT := kTwoPi_pos
  have hd : 0 < 2 * sampleRate + kTwoPi * pole := by positivity
  have hs : 0 < √(warpedHz sampleRate f * warpedHz sampleRate f + pole * pole) := by positivity
  rw [norm_realPoleSection hgain (one_mul 1), (norm_zeros hfs hf hnyquist).1,
    norm_weightingPole hfs hf hnyquist hpole]
  have hsq := Real.mul_self_sqrt (show 0 ≤ warpedHz sampleRate f * warpedHz sampleRate f +
    pole * pole by positivity)
  generalize √(warpedHz sampleRate f * warpedHz sampleRate f + pole * pole) = s at hs hsq ⊢
  generalize 2 * sampleRate + kTwoPi * pole = d at hd ⊢
  generalize Real.cos (kTwoPi * f / sampleRate / 2) = c at hcos ⊢
  rw [← hsq]
  field_simp

theorem norm_highSection {u v : ℝ} (hu : 0 < u) (hv : 0 < v) :
    ‖biquadResponse (realPoleSection 1 (-1) (bilinear (kTwoPi * u) (2 * sampleRate))
        (bilinear (kTwoPi * v) (2 * sampleRate))) (kTwoPi * f / sampleRate)‖ =
      warpedHz sampleRate f ^ 2 * (2 * sampleRate + kTwoPi * u) *
          (2 * sampleRate + kTwoPi * v) /
        ((2 * sampleRate) ^ 2 *
          (√(warpedHz sampleRate f * warpedHz sampleRate f + u * u) *
            √(warpedHz sampleRate f * warpedHz sampleRate f + v * v))) := by
  obtain ⟨hpos, hpi⟩ := omega_mem hfs hf hnyquist
  have hcos : 0 < Real.cos (kTwoPi * f / sampleRate / 2) :=
    Real.cos_pos_of_mem_Ioo ⟨by linarith, by linarith⟩
  have hF := warpedHz_pos hfs hf hnyquist
  have hT := kTwoPi_pos
  have hdu : 0 < 2 * sampleRate + kTwoPi * u := by positivity
  have hdv : 0 < 2 * sampleRate + kTwoPi * v := by positivity
  have hsu : 0 < √(warpedHz sampleRate f * warpedHz sampleRate f + u * u) := by positivity
  have hsv : 0 < √(warpedHz sampleRate f * warpedHz sampleRate f + v * v) := by positivity
  rw [norm_realPoleSection one_pos (by norm_num), (norm_zeros hfs hf hnyquist).2,
    norm_weightingPole hfs hf hnyquist hu, norm_weightingPole hfs hf hnyquist hv]
  generalize √(warpedHz sampleRate f * warpedHz sampleRate f + u * u) = su at hsu ⊢
  generalize √(warpedHz sampleRate f * warpedHz sampleRate f + v * v) = sv at hsv ⊢
  generalize 2 * sampleRate + kTwoPi * u = du at hdu ⊢
  generalize 2 * sampleRate + kTwoPi * v = dv at hdv ⊢
  generalize Real.cos (kTwoPi * f / sampleRate / 2) = c at hcos ⊢
  field_simp

theorem norm_designA :
    ‖cascadeResponse (designA sampleRate) (kTwoPi * f / sampleRate)‖ =
      analogGainA * bracketA (warpedHz sampleRate f) := by
  have hF := warpedHz_pos hfs hf hnyquist
  have hgain : 0 < analogGainA := one_div_pos.mpr (bracketA_pos (by norm_num))
  have hT := kTwoPi_pos
  have h1 := kF1_pos
  have h2 := kF2_pos
  have h3 := kF3_pos
  have h4 := kF4_pos
  rw [designA_eq, cascadeResponse_eq]
  simp only [List.map_cons, List.map_nil, List.prod_cons, List.prod_nil, mul_one, norm_mul]
  rw [norm_lowSection hfs hf hnyquist (by positivity) h4, norm_highSection hfs hf hnyquist h2 h3,
    norm_highSection hfs hf hnyquist h1 h1, bracketA, Real.mul_self_sqrt (by positivity)]
  have hd1 : 0 < 2 * sampleRate + kTwoPi * kF1 := by positivity
  have hd2 : 0 < 2 * sampleRate + kTwoPi * kF2 := by positivity
  have hd3 : 0 < 2 * sampleRate + kTwoPi * kF3 := by positivity
  have hd4 : 0 < 2 * sampleRate + kTwoPi * kF4 := by positivity
  have hs2 : 0 < √(warpedHz sampleRate f * warpedHz sampleRate f + kF2 * kF2) := by positivity
  have hs3 : 0 < √(warpedHz sampleRate f * warpedHz sampleRate f + kF3 * kF3) := by positivity
  have hs1 : 0 < warpedHz sampleRate f * warpedHz sampleRate f + kF1 * kF1 := by positivity
  have hs4 : 0 < warpedHz sampleRate f * warpedHz sampleRate f + kF4 * kF4 := by positivity
  generalize √(warpedHz sampleRate f * warpedHz sampleRate f + kF2 * kF2) = s2 at hs2 ⊢
  generalize √(warpedHz sampleRate f * warpedHz sampleRate f + kF3 * kF3) = s3 at hs3 ⊢
  generalize warpedHz sampleRate f * warpedHz sampleRate f + kF1 * kF1 = s1 at hs1 ⊢
  generalize warpedHz sampleRate f * warpedHz sampleRate f + kF4 * kF4 = s4 at hs4 ⊢
  generalize 2 * sampleRate + kTwoPi * kF1 = d1 at hd1 ⊢
  generalize 2 * sampleRate + kTwoPi * kF2 = d2 at hd2 ⊢
  generalize 2 * sampleRate + kTwoPi * kF3 = d3 at hd3 ⊢
  generalize 2 * sampleRate + kTwoPi * kF4 = d4 at hd4 ⊢
  field_simp

theorem norm_designC :
    ‖cascadeResponse (designC sampleRate) (kTwoPi * f / sampleRate)‖ =
      analogGainC * bracketC (warpedHz sampleRate f) := by
  have hF := warpedHz_pos hfs hf hnyquist
  have hgain : 0 < analogGainC := one_div_pos.mpr (bracketC_pos (by norm_num))
  have hT := kTwoPi_pos
  have h1 := kF1_pos
  have h4 := kF4_pos
  rw [designC_eq, cascadeResponse_eq]
  simp only [List.map_cons, List.map_nil, List.prod_cons, List.prod_nil, mul_one, norm_mul]
  rw [norm_lowSection hfs hf hnyquist (by positivity) h4,
    norm_highSection hfs hf hnyquist h1 h1, bracketC, Real.mul_self_sqrt (by positivity)]
  have hd1 : 0 < 2 * sampleRate + kTwoPi * kF1 := by positivity
  have hd4 : 0 < 2 * sampleRate + kTwoPi * kF4 := by positivity
  have hs1 : 0 < warpedHz sampleRate f * warpedHz sampleRate f + kF1 * kF1 := by positivity
  have hs4 : 0 < warpedHz sampleRate f * warpedHz sampleRate f + kF4 * kF4 := by positivity
  generalize warpedHz sampleRate f * warpedHz sampleRate f + kF1 * kF1 = s1 at hs1 ⊢
  generalize warpedHz sampleRate f * warpedHz sampleRate f + kF4 * kF4 = s4 at hs4 ⊢
  generalize 2 * sampleRate + kTwoPi * kF1 = d1 at hd1 ⊢
  generalize 2 * sampleRate + kTwoPi * kF4 = d4 at hd4 ⊢
  field_simp

end

end Cascade

/-! ### What a weighting is -/

/-- Below half the rate the digital response is the analog one at the warped frequency. -/
def Weighting.RefinesAnalog (w : Weighting) : Prop :=
  ∀ f, 0 < f → f < w.sampleRate / 2 →
    ∃ db, w.responseDb f = some db ∧ analyticDb (warpedHz w.sampleRate f) w.type = some db

/-- Every pole is strictly inside the unit circle. -/
def Weighting.PolesInside (w : Weighting) : Prop :=
  ∀ c ∈ w.cascade, ∀ z, IsPole c z → ‖z‖ < 1

/-- The sections in order of their pole radii. -/
def Weighting.Ascending (w : Weighting) : Prop :=
  (w.cascade.map sectionPoleRadius).Pairwise (· < ·)

/-- The rates at which the transform keeps the innermost two analog poles apart from the
outermost: some 3.6 kHz for A, some 1.6 kHz for C. -/
def OrderingRate (type : WeightingType) (sampleRate : ℝ) : Prop :=
  match type with
  | .A => Real.pi ^ 2 * (kF2 * kF4) < sampleRate ^ 2
  | .C => Real.pi ^ 2 * (kF1 * kF4) < sampleRate ^ 2
  | .Z => True

section Spec

variable {sampleRate : ℝ}

theorem Weighting.make_eq (type : WeightingType) (hfs : 0 < sampleRate) :
    Weighting.make type sampleRate = some
      { type := type
        sampleRate := sampleRate
        cascade :=
          match type with
          | .A => designA sampleRate
          | .C => designC sampleRate
          | .Z => [] } :=
  if_neg (not_not.mpr hfs)

theorem Weighting.responseDb_of_norm {w : Weighting} {f level : ℝ} (hf : 0 < f) (hlevel : 0 < level)
    (hnorm : ‖cascadeResponse w.cascade (kTwoPi * f / w.sampleRate)‖ = level) :
    w.responseDb f = some (20 * Real.logb 10 level) := by
  have hne : cascadeResponse w.cascade (kTwoPi * f / w.sampleRate) ≠ 0 := by
    rw [← norm_pos_iff, hnorm]
    exact hlevel
  rw [Weighting.responseDb, if_neg (not_not.mpr hf)]
  simp only [attenuationDb_of_ne_zero hne, hnorm, neg_neg]

theorem radius_lt_iff {u v : ℝ} (hu : 0 < u) (huv : u < v) (hfs : 0 < sampleRate) :
    |bilinear (kTwoPi * v) (2 * sampleRate)| < |bilinear (kTwoPi * u) (2 * sampleRate)| ↔
      Real.pi ^ 2 * (u * v) < sampleRate ^ 2 := by
  have hT := kTwoPi_pos
  rw [abs_bilinear_lt_iff (mul_pos hT hu) (mul_lt_mul_of_pos_left huv hT) (by linarith), kTwoPi]
  constructor
  · intro h
    linarith
  · intro h
    linarith

section

variable (hfs : 0 < sampleRate)

include hfs

theorem designA_ascending_iff :
    ((designA sampleRate).map sectionPoleRadius).Pairwise (· < ·) ↔
      Real.pi ^ 2 * (kF2 * kF4) < sampleRate ^ 2 := by
  have h12 : kF1 < kF2 := by norm_num [kF1, kF2]
  have h23 : kF2 < kF3 := by norm_num [kF2, kF3]
  have h34 : kF3 < kF4 := by norm_num [kF3, kF4]
  have hpi : 0 < Real.pi ^ 2 := pow_pos Real.pi_pos 2
  have h42 := radius_lt_iff kF2_pos (h23.trans h34) hfs
  have h43 := radius_lt_iff kF3_pos h34 hfs
  have h31 := radius_lt_iff kF1_pos (h12.trans h23) hfs
  have h21 := radius_lt_iff kF1_pos h12 hfs
  have h41 := radius_lt_iff kF1_pos ((h12.trans h23).trans h34) hfs
  rw [designA_eq]
  simp only [List.map_cons, List.map_nil, realPoleSection_radius, max_self, List.pairwise_cons,
    List.mem_cons, List.not_mem_nil, or_false, forall_eq_or_imp, forall_eq, lt_max_iff, max_lt_iff,
    IsEmpty.forall_iff, implies_true, List.Pairwise.nil, and_true]
  rw [h42, h43, h41, h31, h21]
  have hprod31 : kF1 * kF3 < kF2 * kF4 := by norm_num [kF1, kF2, kF3, kF4]
  have hprod21 : kF1 * kF2 < kF2 * kF4 := by norm_num [kF1, kF2, kF4]
  have hprod43 : kF2 * kF4 < kF3 * kF4 := by norm_num [kF2, kF3, kF4]
  have hprod41 : kF1 * kF4 < kF2 * kF4 := by norm_num [kF1, kF2, kF4]
  constructor
  · rintro ⟨⟨h | h, -⟩, -⟩
    · exact h
    · exact (mul_lt_mul_of_pos_left hprod43 hpi).trans h
  · intro h
    have hbelow : ∀ {x}, x < kF2 * kF4 → Real.pi ^ 2 * x < sampleRate ^ 2 :=
      fun hx => (mul_lt_mul_of_pos_left hx hpi).trans h
    exact ⟨⟨.inl h, hbelow hprod41⟩, hbelow hprod21, hbelow hprod31⟩

theorem designC_ascending_iff :
    ((designC sampleRate).map sectionPoleRadius).Pairwise (· < ·) ↔
      Real.pi ^ 2 * (kF1 * kF4) < sampleRate ^ 2 := by
  have h14 : kF1 < kF4 := by norm_num [kF1, kF4]
  rw [designC_eq]
  simp only [List.map_cons, List.map_nil, realPoleSection_radius, max_self, List.pairwise_cons,
    List.mem_cons, List.not_mem_nil, or_false, forall_eq, IsEmpty.forall_iff, implies_true,
    List.Pairwise.nil, and_true]
  exact radius_lt_iff kF1_pos h14 hfs

variable {type : WeightingType} {w : Weighting}

theorem Weighting.refinesAnalog_make
    (hw : Weighting.make type sampleRate = some w) : w.RefinesAnalog := by
  rw [Weighting.make_eq type hfs] at hw
  cases hw
  intro f hf hnyquist
  have hwarped : 0 < warpedHz sampleRate f := warpedHz_pos hfs hf hnyquist
  rw [analyticDb.eq_def, if_neg (not_not.mpr hwarped)]
  cases type with
  | A =>
    have hgain : 0 < analogGainA := one_div_pos.mpr (bracketA_pos (by norm_num))
    exact ⟨_, Weighting.responseDb_of_norm hf (mul_pos hgain (bracketA_pos hwarped))
      (norm_designA hfs hf hnyquist), rfl⟩
  | C =>
    have hgain : 0 < analogGainC := one_div_pos.mpr (bracketC_pos (by norm_num))
    exact ⟨_, Weighting.responseDb_of_norm hf (mul_pos hgain (bracketC_pos hwarped))
      (norm_designC hfs hf hnyquist), rfl⟩
  | Z =>
    refine ⟨0, ?_, rfl⟩
    rw [Weighting.responseDb, if_neg (not_not.mpr hf)]
    simp [attenuationDb]

theorem Weighting.polesInside_make
    (hw : Weighting.make type sampleRate = some w) : w.PolesInside := by
  rw [Weighting.make_eq type hfs] at hw
  cases hw
  intro c hc z hz
  cases type with
  | A => exact (designA_stable hfs c hc).norm_pole_lt_one hz
  | C => exact (designC_stable hfs c hc).norm_pole_lt_one hz
  | Z => cases hc

theorem Weighting.ascending_make_iff (hw : Weighting.make type sampleRate = some w) :
    w.Ascending ↔ OrderingRate type sampleRate := by
  rw [Weighting.make_eq type hfs] at hw
  cases hw
  cases type with
  | A => exact designA_ascending_iff hfs
  | C => exact designC_ascending_iff hfs
  | Z => exact iff_of_true List.Pairwise.nil trivial

end

end Spec

/-- **Headline.** At every rate a weighting's response is the analog one at the warped frequency
and its poles are inside the unit circle. The sections are in order as well, so that all three
hold, just at the rates above that of the two poles which the transform has to keep apart. -/
theorem weighting_spec (type : WeightingType) (sampleRate : ℝ) (hfs : 0 < sampleRate) :
    ∃ w, Weighting.make type sampleRate = some w ∧ w.RefinesAnalog ∧ w.PolesInside ∧
      (w.RefinesAnalog ∧ w.PolesInside ∧ w.Ascending ↔ OrderingRate type sampleRate) := by
  refine ⟨_, Weighting.make_eq type hfs, ?_⟩
  have hresponse := Weighting.refinesAnalog_make hfs (Weighting.make_eq type hfs)
  have hpoles := Weighting.polesInside_make hfs (Weighting.make_eq type hfs)
  have hascending := Weighting.ascending_make_iff hfs (Weighting.make_eq type hfs)
  refine ⟨hresponse, hpoles, ?_⟩
  rw [← hascending]
  exact ⟨fun h => h.2.2, fun h => ⟨hresponse, hpoles, h⟩⟩

/-- The A weighting at 48 kHz. -/
theorem weighting_spec_48k :
    ∃ w, Weighting.make .A 48000 = some w ∧ w.RefinesAnalog ∧ w.PolesInside ∧ w.Ascending := by
  obtain ⟨w, hw, -, -, hiff⟩ := weighting_spec .A 48000 (by norm_num)
  refine ⟨w, hw, hiff.mpr ?_⟩
  have hsq : Real.pi ^ 2 ≤ 4 ^ 2 := pow_le_pow_left₀ Real.pi_pos.le Real.pi_le_four 2
  rw [OrderingRate, kF2, kF4]
  norm_num
  linarith

/-- At 1 kHz the first section of the A weighting is not the one with the smallest radius. -/
theorem weighting_not_ascending_1k :
    ∃ w, Weighting.make .A 1000 = some w ∧ ¬ w.Ascending := by
  refine ⟨_, Weighting.make_eq .A (by norm_num), ?_⟩
  change ¬ ((designA 1000).map sectionPoleRadius).Pairwise (· < ·)
  have hsq : (3 : ℝ) ^ 2 ≤ Real.pi ^ 2 :=
    pow_le_pow_left₀ (by norm_num) Real.pi_gt_three.le 2
  rw [designA_ascending_iff (by norm_num), not_lt, kF2, kF4]
  norm_num
  linarith

end Dsp

end RtaTool
