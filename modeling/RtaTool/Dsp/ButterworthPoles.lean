import RtaTool.Dsp.ButterworthDesign

/-!
# The poles of the Butterworth band-pass

The poles of `bandPassZpk` come in conjugate pairs and are inside the unit circle for all arguments
that are accepted. Whether one of them is on the real axis, or so near to it that the split takes it
to be there, depends on the arguments: there is such a pole for every odd order and a wide enough
band, and then the design ends in a logic error.

## Main definitions

* `DesignAccepted` -- the arguments that are not refused
* `PolesClear` -- no pole of the design is near the real axis

## Main results

* `bandPassPoles_conj`, `bandPassPoles_inside` -- the poles of every design
* `bandPass_meets_iff` -- **Headline.** When a design is what it should be
-/

namespace RtaTool

namespace Dsp

open AutoEq
open scoped ComplexConjugate

/-! ### The prototype -/

theorem buttapAngle_neg (n k : ℤ) : buttapAngle n (n + 1 - k) = -buttapAngle n k := by
  rw [buttapAngle, buttapAngle]
  push_cast
  ring

theorem conj_buttapPole (n k : ℤ) :
    conj (-Complex.exp (buttapAngle n k * Complex.I)) =
      -Complex.exp (buttapAngle n (n + 1 - k) * Complex.I) := by
  rw [map_neg, ← Complex.exp_conj, map_mul, Complex.conj_I, Complex.conj_ofReal, buttapAngle_neg,
    Complex.ofReal_neg, mul_neg, neg_mul]

/-- The prototype's poles come in conjugate pairs, the real one with itself. -/
theorem buttapPoles_conj {n : ℤ} (hn : 1 ≤ n) :
    (buttapPoles n).Perm ((buttapPoles n).map conj) := by
  have hreverse : (buttapPoles n).map conj = (buttapPoles n).reverse := by
    rw [buttapPoles, ← List.map_reverse, List.range_eq_range', List.reverse_range', List.map_map,
      List.map_map, ← List.range_eq_range']
    refine List.map_congr_left fun i hi => ?_
    have hlt := List.mem_range.mp hi
    simp only [Function.comp_apply]
    rw [conj_buttapPole]
    congr 5
    push_cast
    omega
  rw [hreverse]
  exact (List.reverse_perm _).symm

theorem length_buttapPoles (n : ℤ) : (buttapPoles n).length = n.toNat := by
  rw [buttapPoles, List.length_map, List.length_range]

theorem mem_buttapPoles {n : ℤ} {p : ℂ} :
    p ∈ buttapPoles n ↔
      ∃ k : ℤ, 1 ≤ k ∧ k ≤ n ∧ p = -Complex.exp (buttapAngle n k * Complex.I) := by
  rw [buttapPoles, List.mem_map]
  constructor
  · rintro ⟨i, hi, rfl⟩
    have hlt := List.mem_range.mp hi
    exact ⟨i + 1, by omega, by omega, rfl⟩
  · rintro ⟨k, hk, hkn, rfl⟩
    refine ⟨(k - 1).toNat, List.mem_range.mpr (by omega), ?_⟩
    have hcast : ((k - 1).toNat : ℤ) + 1 = k := by omega
    rw [hcast]

/-- They are in the left half plane. -/
theorem buttapPole_re {n k : ℤ} (hk : 1 ≤ k) (hkn : k ≤ n) :
    (-Complex.exp (buttapAngle n k * Complex.I)).re < 0 := by
  have hn : (1 : ℝ) ≤ n := by exact_mod_cast hk.trans hkn
  have hk' : (1 : ℝ) ≤ k := by exact_mod_cast hk
  have hkn' : (k : ℝ) ≤ n := by exact_mod_cast hkn
  have hpi := Real.pi_pos
  have hcos : 0 < Real.cos (buttapAngle n k) := by
    refine Real.cos_pos_of_mem_Ioo ⟨?_, ?_⟩
    · rw [buttapAngle, lt_div_iff₀ (by linarith)]
      nlinarith
    · rw [buttapAngle, div_lt_iff₀ (by linarith)]
      nlinarith
  rw [Complex.neg_re, Complex.exp_ofReal_mul_I_re]
  linarith

/-! ### From low-pass to band-pass -/

/-- The two poles that one pole of the prototype becomes. -/
theorem mem_bandPassPair {s q : ℂ} {w0 : ℝ} :
    q ∈ [s + complexSqrt (s * s - w0 * w0), s - complexSqrt (s * s - w0 * w0)] ↔
      q ^ 2 - 2 * s * q + w0 ^ 2 = 0 := by
  have hroot : complexSqrt (s * s - w0 * w0) ^ 2 = s * s - w0 * w0 :=
    Complex.cpow_nat_inv_pow _ two_ne_zero
  have hfactor : q ^ 2 - 2 * s * q + w0 ^ 2 =
      (q - (s + complexSqrt (s * s - w0 * w0))) * (q - (s - complexSqrt (s * s - w0 * w0))) := by
    linear_combination hroot
  rw [hfactor, mul_eq_zero, sub_eq_zero, sub_eq_zero]
  simp

theorem bandPassPair_conj (s : ℂ) (w0 : ℝ) :
    ([s + complexSqrt (s * s - w0 * w0), s - complexSqrt (s * s - w0 * w0)].map conj).Perm
      [conj s + complexSqrt (conj s * conj s - w0 * w0),
        conj s - complexSqrt (conj s * conj s - w0 * w0)] := by
  have hroot : complexSqrt (s * s - w0 * w0) ^ 2 = s * s - w0 * w0 :=
    Complex.cpow_nat_inv_pow _ two_ne_zero
  have hroot' : complexSqrt (conj s * conj s - w0 * w0) ^ 2 = conj s * conj s - w0 * w0 :=
    Complex.cpow_nat_inv_pow _ two_ne_zero
  have hconj : conj (complexSqrt (s * s - w0 * w0)) ^ 2 =
      complexSqrt (conj s * conj s - w0 * w0) ^ 2 := by
    rw [hroot', ← map_pow, hroot, map_sub, map_mul, map_mul, Complex.conj_ofReal]
  simp only [List.map_cons, List.map_nil, map_add, map_sub]
  obtain heq | hneg := sq_eq_sq_iff_eq_or_eq_neg.mp hconj
  · rw [heq]
  · rw [hneg, sub_neg_eq_add, ← sub_eq_add_neg]
    exact .swap _ _ _

/-- A root of such a quadratic is in the left half plane with the sum of the two. -/
theorem re_neg_of_root {s q : ℂ} {w0 : ℝ} (hs : s.re < 0) (hw0 : 0 < w0)
    (hq : q ^ 2 - 2 * s * q + w0 ^ 2 = 0) : q.re < 0 := by
  by_contra hre
  rw [not_lt] at hre
  have hne : q ≠ 0 := by
    rintro rfl
    have hzero : ((w0 ^ 2 : ℝ) : ℂ) = 0 := by
      push_cast
      linear_combination hq
    exact (pow_pos hw0 2).ne' (Complex.ofReal_eq_zero.mp hzero)
  have hsum : 2 * s = q + ((w0 ^ 2 : ℝ) : ℂ) * q⁻¹ := by
    have hinv : q * q⁻¹ = 1 := mul_inv_cancel₀ hne
    push_cast
    linear_combination (-q⁻¹) * hq + (q - 2 * s) * hinv
  have hre2 := congrArg Complex.re hsum
  rw [Complex.add_re, Complex.re_ofReal_mul, Complex.inv_re] at hre2
  have hnonneg : 0 ≤ w0 ^ 2 * (q.re / Complex.normSq q) :=
    mul_nonneg (sq_nonneg _) (div_nonneg hre (Complex.normSq_nonneg q))
  have htwo : (2 * s).re = 2 * s.re := by simp
  linarith

variable {protoPoles : List ℂ}

theorem lowPassToBandPass_conj (hconj : protoPoles.Perm (protoPoles.map conj)) (w0 bw : ℝ) :
    (lowPassToBandPass protoPoles w0 bw).poles.Perm
      ((lowPassToBandPass protoPoles w0 bw).poles.map conj) := by
  simp only [lowPassToBandPass]
  refine (hconj.flatMap_right _).trans ?_
  rw [List.map_flatMap, List.flatMap_map]
  refine (List.Perm.flatMap_left _ fun p _ => ?_).symm
  have hscale : conj (p * (bw / 2)) = conj p * (bw / 2) := by
    rw [map_mul, map_div₀, Complex.conj_ofReal, Complex.conj_ofNat]
  have hpair := bandPassPair_conj (p * (bw / 2)) w0
  rw [hscale] at hpair
  exact hpair

theorem mem_lowPassToBandPass {w0 bw : ℝ} {q : ℂ} :
    q ∈ (lowPassToBandPass protoPoles w0 bw).poles ↔
      ∃ p ∈ protoPoles, q ^ 2 - 2 * (p * (bw / 2)) * q + w0 ^ 2 = 0 := by
  simp only [lowPassToBandPass, List.mem_flatMap]
  exact exists_congr fun p => and_congr_right fun _ => mem_bandPassPair

theorem length_lowPassToBandPass (protoPoles : List ℂ) (w0 bw : ℝ) :
    (lowPassToBandPass protoPoles w0 bw).poles.length = 2 * protoPoles.length := by
  simp only [lowPassToBandPass, List.length_flatMap, List.length_cons, List.length_nil,
    List.map_const', List.sum_replicate, smul_eq_mul]
  ring

/-! ### The bilinear transform -/

section Bilinear

variable {sampleRate : ℝ}

/-- The image of one analog pole or zero. -/
noncomputable def bilinearImage (sampleRate : ℝ) (q : ℂ) : ℂ :=
  (((2 * sampleRate : ℝ) : ℂ) + q) / (((2 * sampleRate : ℝ) : ℂ) - q)

theorem conj_bilinearImage (q : ℂ) :
    conj (bilinearImage sampleRate q) = bilinearImage sampleRate (conj q) := by
  rw [bilinearImage, map_div₀, map_add, map_sub, Complex.conj_ofReal, bilinearImage]

/-- The left half plane is taken inside the unit circle. -/
theorem norm_bilinearImage_lt_one (hfs : 0 < sampleRate) {q : ℂ} (hq : q.re < 0) :
    ‖bilinearImage sampleRate q‖ < 1 := by
  have hgap : Complex.normSq (((2 * sampleRate : ℝ) : ℂ) + q) <
      Complex.normSq (((2 * sampleRate : ℝ) : ℂ) - q) := by
    simp only [Complex.normSq_apply, Complex.add_re, Complex.add_im, Complex.sub_re,
      Complex.sub_im, Complex.ofReal_re, Complex.ofReal_im]
    nlinarith
  have hpos : 0 < Complex.normSq (((2 * sampleRate : ℝ) : ℂ) - q) :=
    (Complex.normSq_nonneg _).trans_lt hgap
  have hsq : ‖bilinearImage sampleRate q‖ ^ 2 < 1 := by
    rw [Complex.sq_norm, bilinearImage, Complex.normSq_div, div_lt_one hpos]
    exact hgap
  exact (sq_lt_one_iff₀ (norm_nonneg _)).mp hsq

theorem bilinearZpk_poles (analog : Zpk) (sampleRate : ℝ) :
    (bilinearZpk analog sampleRate).poles = analog.poles.map (bilinearImage sampleRate) := rfl

theorem bilinearZpk_conj {analog : Zpk} (hconj : analog.poles.Perm (analog.poles.map conj)) :
    (bilinearZpk analog sampleRate).poles.Perm
      ((bilinearZpk analog sampleRate).poles.map conj) := by
  have hcomm : (analog.poles.map (bilinearImage sampleRate)).map conj =
      (analog.poles.map conj).map (bilinearImage sampleRate) := by
    rw [List.map_map, List.map_map]
    exact List.map_congr_left fun q _ => conj_bilinearImage q
  rw [bilinearZpk_poles, hcomm]
  exact hconj.map _

/-- The zeros at the origin go to one, and those at infinity to minus one. -/
theorem bandPassZeros (hfs : 0 < sampleRate) (protoPoles : List ℂ) (w0 bw : ℝ) :
    (bilinearZpk (lowPassToBandPass protoPoles w0 bw) sampleRate).zeros =
      List.replicate protoPoles.length 1 ++ List.replicate protoPoles.length (-1) := by
  have hne : ((2 * sampleRate : ℝ) : ℂ) ≠ 0 := Complex.ofReal_ne_zero.mpr (by linarith)
  have hzeros : (lowPassToBandPass protoPoles w0 bw).zeros.length = protoPoles.length :=
    List.length_replicate
  have hdegree : (lowPassToBandPass protoPoles w0 bw).poles.length -
      (lowPassToBandPass protoPoles w0 bw).zeros.length = protoPoles.length := by
    rw [length_lowPassToBandPass, hzeros]
    omega
  simp only [bilinearZpk]
  rw [hdegree]
  simp only [lowPassToBandPass, List.map_replicate, add_zero, sub_zero]
  rw [div_self hne]

end Bilinear

/-! ### The design -/

section Design

variable {n : ℤ} {w0 bw sampleRate : ℝ}

/-- A pole of the design through the quadratic of its prototype pole. -/
theorem mem_bandPassPoles {z : ℂ} :
    z ∈ (bilinearZpk (lowPassToBandPass (buttapPoles n) w0 bw) sampleRate).poles ↔
      ∃ k : ℤ, 1 ≤ k ∧ k ≤ n ∧ ∃ q : ℂ,
        q ^ 2 + bw * Complex.exp (buttapAngle n k * Complex.I) * q + w0 ^ 2 = 0 ∧
          z = bilinearImage sampleRate q := by
  have hquadratic : ∀ (q : ℂ) (k : ℤ),
      q ^ 2 - 2 * (-Complex.exp (buttapAngle n k * Complex.I) * (bw / 2)) * q + w0 ^ 2 =
        q ^ 2 + bw * Complex.exp (buttapAngle n k * Complex.I) * q + w0 ^ 2 := by
    intro q k
    ring
  rw [bilinearZpk_poles, List.mem_map]
  constructor
  · rintro ⟨q, hq, rfl⟩
    obtain ⟨p, hp, hroot⟩ := mem_lowPassToBandPass.mp hq
    obtain ⟨k, hk, hkn, rfl⟩ := mem_buttapPoles.mp hp
    rw [hquadratic] at hroot
    exact ⟨k, hk, hkn, q, hroot, rfl⟩
  · rintro ⟨k, hk, hkn, q, hroot, rfl⟩
    rw [← hquadratic] at hroot
    exact ⟨q, mem_lowPassToBandPass.mpr ⟨_, mem_buttapPoles.mpr ⟨k, hk, hkn, rfl⟩, hroot⟩, rfl⟩

theorem bandPassPoles_conj (hn : 1 ≤ n) :
    (bilinearZpk (lowPassToBandPass (buttapPoles n) w0 bw) sampleRate).poles.Perm
      ((bilinearZpk (lowPassToBandPass (buttapPoles n) w0 bw) sampleRate).poles.map conj) :=
  bilinearZpk_conj (lowPassToBandPass_conj (buttapPoles_conj hn) w0 bw)

/-- Every pole of the design is inside the unit circle. -/
theorem bandPassPoles_inside (hfs : 0 < sampleRate) (hw0 : 0 < w0) (hbw : 0 < bw) :
    ∀ z ∈ (bilinearZpk (lowPassToBandPass (buttapPoles n) w0 bw) sampleRate).poles, ‖z‖ < 1 := by
  intro z hz
  rw [bilinearZpk_poles, List.mem_map] at hz
  obtain ⟨q, hq, rfl⟩ := hz
  obtain ⟨p, hp, hroot⟩ := mem_lowPassToBandPass.mp hq
  obtain ⟨k, hk, hkn, rfl⟩ := mem_buttapPoles.mp hp
  refine norm_bilinearImage_lt_one hfs (re_neg_of_root ?_ hw0 hroot)
  have hhalf : ((bw : ℂ) / 2) = ((bw / 2 : ℝ) : ℂ) := by
    push_cast
    rfl
  rw [hhalf, Complex.re_mul_ofReal]
  exact mul_neg_of_neg_of_pos (buttapPole_re hk hkn) (half_pos hbw)

end Design

/-! ### What is accepted -/

/-- The arguments that are not refused. -/
structure DesignAccepted (lowerHz upperHz sampleRate : ℝ) (sections : ℤ) : Prop where
  sections_mem : 1 ≤ sections ∧ sections ≤ 12
  sampleRate_pos : 0 < sampleRate
  lowerHz_pos : 0 < lowerHz
  lowerHz_lt : lowerHz < upperHz
  lowerHz_lt_designed : lowerHz < designedUpper upperHz sampleRate

/-- No pole of the design is near the real axis: the roots of the quadratic that each prototype
pole becomes keep off it in the unit circle. -/
def PolesClear (lowerHz upperHz sampleRate : ℝ) (sections : ℤ) : Prop :=
  let wLo := prewarp lowerHz sampleRate
  let wHi := prewarp (designedUpper upperHz sampleRate) sampleRate
  ∀ k : ℤ, 1 ≤ k → k ≤ sections → ∀ q : ℂ,
    q ^ 2 + ((wHi - wLo : ℝ) : ℂ) * Complex.exp (buttapAngle sections k * Complex.I) * q +
      ((wLo * wHi : ℝ) : ℂ) = 0 →
    1e-10 < |(bilinearImage sampleRate q).im|

section Arguments

variable {lowerHz upperHz sampleRate : ℝ} {sections : ℤ}

section

variable (h : DesignAccepted lowerHz upperHz sampleRate sections)

include h

theorem ButterworthDesign.validateInputs_ok :
    ButterworthDesign.validateInputs lowerHz upperHz sampleRate sections = .ok () := by
  obtain ⟨⟨hlow, hhigh⟩, hfs, hlower, hlt, -⟩ := h
  rw [ButterworthDesign.validateInputs, if_neg (by omega), if_neg (not_not.mpr hfs),
    if_neg (not_not.mpr hlower), if_neg (not_not.mpr hlt)]

omit h in
theorem bandPass_refused (h : ¬ DesignAccepted lowerHz upperHz sampleRate sections) :
    ∃ what, bandPass lowerHz upperHz sampleRate sections = .error (.invalidArgument what) := by
  rw [bandPass, ButterworthDesign.validateInputs]
  by_cases hsections : sections < 1 ∨ 12 < sections
  · rw [if_pos hsections]
    exact ⟨_, rfl⟩
  rw [if_neg hsections]
  by_cases hfs : ¬ 0 < sampleRate
  · rw [if_pos hfs]
    exact ⟨_, rfl⟩
  rw [if_neg hfs]
  by_cases hlower : ¬ 0 < lowerHz
  · rw [if_pos hlower]
    exact ⟨_, rfl⟩
  rw [if_neg hlower]
  by_cases hlt : ¬ lowerHz < upperHz
  · rw [if_pos hlt]
    exact ⟨_, rfl⟩
  rw [if_neg hlt]
  rw [not_not] at hfs hlower hlt
  have hdesigned : ¬ lowerHz < designedUpper upperHz sampleRate :=
    fun hdesigned => h ⟨by omega, hfs, hlower, hlt, hdesigned⟩
  exact ⟨_, if_pos hdesigned⟩

omit h in
theorem designedUpper_lt (hfs : 0 < sampleRate) :
    designedUpper upperHz sampleRate < sampleRate / 2 := by
  rw [designedUpper, kNyquistEdgeFraction]
  split_ifs with hclamped
  · linarith
  · linarith

/-- The edges are in order after the warp. -/
theorem prewarp_lt :
    0 < prewarp lowerHz sampleRate ∧
      prewarp lowerHz sampleRate < prewarp (designedUpper upperHz sampleRate) sampleRate := by
  obtain ⟨-, hfs, hlower, -, hdesigned⟩ := h
  have hpi := Real.pi_pos
  have hnyquist : designedUpper upperHz sampleRate < sampleRate / 2 := designedUpper_lt hfs
  have hupper : Real.pi * designedUpper upperHz sampleRate / sampleRate < Real.pi / 2 := by
    rw [div_lt_div_iff₀ hfs two_pos]
    nlinarith
  have hangle : Real.pi * lowerHz / sampleRate <
      Real.pi * designedUpper upperHz sampleRate / sampleRate :=
    div_lt_div_of_pos_right (mul_lt_mul_of_pos_left hdesigned hpi) hfs
  have hpos : 0 < Real.pi * lowerHz / sampleRate := div_pos (mul_pos hpi hlower) hfs
  constructor
  · exact mul_pos (by linarith) (Real.tan_pos_of_pos_of_lt_pi_div_two hpos (hangle.trans hupper))
  · exact mul_lt_mul_of_pos_left
      (Real.tan_lt_tan_of_nonneg_of_lt_pi_div_two hpos.le hupper hangle) (by linarith)

theorem bandPassZpk_ok :
    bandPassZpk lowerHz (designedUpper upperHz sampleRate) sampleRate sections =
      .ok (bilinearZpk (lowPassToBandPass (buttapPoles sections)
        √(prewarp lowerHz sampleRate * prewarp (designedUpper upperHz sampleRate) sampleRate)
        (prewarp (designedUpper upperHz sampleRate) sampleRate - prewarp lowerHz sampleRate))
        sampleRate) := by
  have hvalid : ButterworthDesign.validateInputs lowerHz (designedUpper upperHz sampleRate)
      sampleRate sections = .ok () := by
    obtain ⟨⟨hlow, hhigh⟩, hfs, hlower, -, hdesigned⟩ := h
    rw [ButterworthDesign.validateInputs, if_neg (by omega), if_neg (not_not.mpr hfs),
      if_neg (not_not.mpr hlower), if_neg (not_not.mpr hdesigned)]
  rw [bandPassZpk, hvalid]
  rfl

theorem bandPass_of_accepted {zpk : Zpk}
    (hzpk : bandPassZpk lowerHz (designedUpper upperHz sampleRate) sampleRate sections = .ok zpk) :
    bandPass lowerHz upperHz sampleRate sections =
      (pairIntoSections zpk).map fun result =>
        { sections := result
          lowerHz := lowerHz
          upperHz := designedUpper upperHz sampleRate
          maxPoleRadius := maxPoleRadius result
          nyquistClamped := kNyquistEdgeFraction * (sampleRate / 2) < upperHz } := by
  rw [bandPass, ButterworthDesign.validateInputs_ok h]
  simp only [bind, Except.bind, if_neg (not_not.mpr h.lowerHz_lt_designed), hzpk]
  cases pairIntoSections zpk <;> rfl

end

/-- Inside the unit circle the tolerance of the split is the same everywhere. -/
theorem nearReal_iff {z : ℂ} (hz : ‖z‖ < 1) : NearReal z ↔ |z.im| ≤ 1e-10 := by
  rw [NearReal, max_eq_left hz.le, mul_one, kConjugateTolerance]

end Arguments

/-- What a design is to be: refused as an argument, or as many sections as were asked for with the
transfer function of the poles and zeros, in order of their pole radii, the poles inside the unit
circle. -/
def BandPassMeets (lowerHz upperHz sampleRate : ℝ) (sections : ℤ) : Prop :=
  (∃ what, bandPass lowerHz upperHz sampleRate sections = .error (.invalidArgument what)) ∨
    ∃ result zpk, bandPass lowerHz upperHz sampleRate sections = .ok result ∧
      bandPassZpk lowerHz (designedUpper upperHz sampleRate) sampleRate sections = .ok zpk ∧
      (result.sections.length : ℤ) = sections ∧
      RealisesZpk result.sections zpk ∧
      (result.sections.map sectionPoleRadius).Pairwise (· ≤ ·) ∧
      ∀ c ∈ result.sections, ∀ z, IsPole c z → ‖z‖ < 1

section Meets

variable {lowerHz upperHz sampleRate : ℝ} {sections : ℤ}

section

variable (h : DesignAccepted lowerHz upperHz sampleRate sections)

include h

theorem polesClear_iff {zpk : Zpk}
    (hzpk : bandPassZpk lowerHz (designedUpper upperHz sampleRate) sampleRate sections = .ok zpk) :
    PolesClear lowerHz upperHz sampleRate sections ↔ ∀ z ∈ zpk.poles, ¬ NearReal z := by
  obtain ⟨hlo, hhi⟩ := prewarp_lt h
  have hproduct : 0 < prewarp lowerHz sampleRate *
      prewarp (designedUpper upperHz sampleRate) sampleRate := mul_pos hlo (hlo.trans hhi)
  rw [bandPassZpk_ok h] at hzpk
  cases hzpk
  have hinside := bandPassPoles_inside (n := sections) h.sampleRate_pos
    (Real.sqrt_pos.mpr hproduct) (sub_pos.mpr hhi)
  have hsq : ((√(prewarp lowerHz sampleRate *
      prewarp (designedUpper upperHz sampleRate) sampleRate) : ℝ) : ℂ) ^ 2 =
      ((prewarp lowerHz sampleRate *
        prewarp (designedUpper upperHz sampleRate) sampleRate : ℝ) : ℂ) := by
    rw [← Complex.ofReal_pow, Real.sq_sqrt hproduct.le]
  constructor
  · intro hclear z hz hnear
    rw [nearReal_iff (hinside z hz)] at hnear
    obtain ⟨k, hk, hkn, q, hroot, rfl⟩ := mem_bandPassPoles.mp hz
    rw [hsq] at hroot
    exact absurd (hclear k hk hkn q hroot) (not_lt.mpr hnear)
  · intro hclear k hk hkn q hroot
    rw [← hsq] at hroot
    have hz := mem_bandPassPoles.mpr
      ⟨k, hk, hkn, q, hroot, (rfl : bilinearImage sampleRate q = _)⟩
    have hnear := hclear _ hz
    rw [nearReal_iff (hinside _ hz), not_le] at hnear
    exact hnear

/-- A design whose poles keep off the real axis. -/
theorem bandPass_of_clear (hclear : PolesClear lowerHz upperHz sampleRate sections) :
    BandPassMeets lowerHz upperHz sampleRate sections := by
  have hzpk := bandPassZpk_ok h
  rw [polesClear_iff h hzpk] at hclear
  obtain ⟨hlo, hhi⟩ := prewarp_lt h
  have hw0 := Real.sqrt_pos.mpr (mul_pos hlo (hlo.trans hhi))
  have hbw := sub_pos.mpr hhi
  have hsections := h.sections_mem
  generalize √(prewarp lowerHz sampleRate * prewarp (designedUpper upperHz sampleRate) sampleRate)
    = w0 at hzpk hw0 hclear
  generalize prewarp (designedUpper upperHz sampleRate) sampleRate - prewarp lowerHz sampleRate
    = bw at hzpk hbw hclear
  have hzeros := bandPassZeros h.sampleRate_pos (buttapPoles sections) w0 bw
  have hpoles : (bilinearZpk (lowPassToBandPass (buttapPoles sections) w0 bw)
      sampleRate).poles.length = 2 * sections.toNat := by
    rw [bilinearZpk_poles, List.length_map, length_lowPassToBandPass, length_buttapPoles]
  have hne : (bilinearZpk (lowPassToBandPass (buttapPoles sections) w0 bw) sampleRate).poles ≠ [] :=
    List.ne_nil_of_length_pos (by omega)
  have hreal : ∀ z ∈ (bilinearZpk (lowPassToBandPass (buttapPoles sections) w0 bw)
      sampleRate).zeros, z.im = 0 := by
    intro z hz
    rw [hzeros, List.mem_append, List.mem_replicate, List.mem_replicate] at hz
    obtain ⟨-, rfl⟩ | ⟨-, rfl⟩ := hz
    · exact Complex.one_im
    · rw [Complex.neg_im, Complex.one_im, neg_zero]
  have hcount : (bilinearZpk (lowPassToBandPass (buttapPoles sections) w0 bw)
      sampleRate).zeros.length = (bilinearZpk (lowPassToBandPass (buttapPoles sections) w0 bw)
      sampleRate).poles.length := by
    rw [hzeros, hpoles, List.length_append, List.length_replicate, List.length_replicate,
      length_buttapPoles]
    omega
  obtain ⟨result, hresult, hlength, hsorted, hstable, hrealises⟩ := pairIntoSections_of_conj hne
    (bandPassPoles_conj hsections.1) hclear (bandPassPoles_inside h.sampleRate_pos hw0 hbw) hreal
    hcount
  have hbandPass := bandPass_of_accepted h hzpk
  rw [hresult, Except.map] at hbandPass
  refine .inr ⟨_, _, hbandPass, hzpk, ?_, hrealises, hsorted, ?_⟩
  · rw [hpoles] at hlength
    change (result.length : ℤ) = sections
    omega
  · intro c hc z hz
    exact (hstable c hc).norm_pole_lt_one hz

theorem bandPass_of_not_clear (hclear : ¬ PolesClear lowerHz upperHz sampleRate sections) :
    ∃ what, bandPass lowerHz upperHz sampleRate sections = .error (.logicError what) := by
  have hzpk := bandPassZpk_ok h
  rw [polesClear_iff h hzpk] at hclear
  push Not at hclear
  obtain ⟨z, hz, hnear⟩ := hclear
  obtain ⟨what, hwhat⟩ := pairIntoSections_of_nearReal hz hnear
  rw [bandPass_of_accepted h hzpk, hwhat]
  exact ⟨what, rfl⟩

end

/-- An odd order has a real pole, and a wide band splits it into two real ones. -/
theorem not_polesClear_of_wide {m : ℤ} (hm : 0 ≤ m)
    (hwide : 4 * (prewarp lowerHz sampleRate *
        prewarp (designedUpper upperHz sampleRate) sampleRate) ≤
      (prewarp (designedUpper upperHz sampleRate) sampleRate - prewarp lowerHz sampleRate) ^ 2) :
    ¬ PolesClear lowerHz upperHz sampleRate (2 * m + 1) := by
  intro hclear
  have hangle : buttapAngle (2 * m + 1) (m + 1) = 0 := by
    rw [buttapAngle]
    push_cast
    ring
  have hreal := hclear (m + 1) (by omega) (by omega)
  generalize prewarp lowerHz sampleRate * prewarp (designedUpper upperHz sampleRate) sampleRate = c
    at hwide hreal
  generalize prewarp (designedUpper upperHz sampleRate) sampleRate - prewarp lowerHz sampleRate = bw
    at hwide hreal
  have hroot := Real.sq_sqrt (sub_nonneg.mpr hwide)
  have hquadratic : ((-bw + √(bw ^ 2 - 4 * c)) / 2) ^ 2 + bw * ((-bw + √(bw ^ 2 - 4 * c)) / 2) + c =
      0 := by
    linear_combination (1 / 4 : ℝ) * hroot
  generalize (-bw + √(bw ^ 2 - 4 * c)) / 2 = q at hquadratic
  have him : (bilinearImage sampleRate q).im = 0 := by
    rw [bilinearImage, ← Complex.ofReal_add, ← Complex.ofReal_sub, ← Complex.ofReal_div,
      Complex.ofReal_im]
  have hlt := hreal q (by
    rw [hangle, Complex.ofReal_zero, zero_mul, Complex.exp_zero, mul_one]
    exact_mod_cast hquadratic)
  rw [him, abs_zero] at hlt
  norm_num at hlt

end Meets

theorem not_bandPassMeets {lowerHz upperHz sampleRate : ℝ} {sections : ℤ}
    (h : ∃ what, bandPass lowerHz upperHz sampleRate sections = .error (.logicError what)) :
    ¬ BandPassMeets lowerHz upperHz sampleRate sections := by
  obtain ⟨what, hlogic⟩ := h
  rintro (⟨what', hinvalid⟩ | ⟨result, zpk, hok, -⟩)
  · rw [hlogic] at hinvalid
    cases hinvalid
  · rw [hlogic] at hok
    cases hok

/-- **Headline.** A design is what it should be, or is refused as an argument, just where no pole
of an accepted design lies within the split's tolerance of the real axis. -/
theorem bandPass_meets_iff (lowerHz upperHz sampleRate : ℝ) (sections : ℤ) :
    BandPassMeets lowerHz upperHz sampleRate sections ↔
      (DesignAccepted lowerHz upperHz sampleRate sections →
        PolesClear lowerHz upperHz sampleRate sections) := by
  by_cases haccepted : DesignAccepted lowerHz upperHz sampleRate sections
  · rw [imp_iff_right haccepted]
    constructor
    · intro hmeets
      by_contra hclear
      exact not_bandPassMeets (bandPass_of_not_clear haccepted hclear) hmeets
    · exact bandPass_of_clear haccepted
  · exact iff_of_true (.inl (bandPass_refused haccepted)) fun h => absurd h haccepted

/-- A first-order prototype has its pole at minus one, and a band from 4 to 20 kHz at 48 kHz splits
it into two real poles. -/
theorem bandPass_logicError_first :
    DesignAccepted 4000 20000 48000 1 ∧
      (∃ what, bandPass 4000 20000 48000 1 = .error (.logicError what)) ∧
      ¬ BandPassMeets 4000 20000 48000 1 := by
  have hdesigned : designedUpper 20000 48000 = 20000 := by
    rw [designedUpper, kNyquistEdgeFraction, if_neg (by norm_num)]
  have haccepted : DesignAccepted 4000 20000 48000 1 :=
    ⟨by norm_num, by norm_num, by norm_num, by norm_num, by rw [hdesigned]; norm_num⟩
  refine ⟨haccepted, and_iff_left_of_imp not_bandPassMeets |>.mpr
    (bandPass_of_not_clear haccepted ?_)⟩
  -- the tangents of a twelfth and of five twelfths of half a turn
  have hlow : prewarp 4000 48000 = 96000 * Real.tan (Real.pi / 12) := by
    rw [prewarp]
    ring_nf
  have hhigh : prewarp 20000 48000 = 96000 * (Real.tan (Real.pi / 12))⁻¹ := by
    rw [prewarp, ← Real.tan_pi_div_two_sub]
    ring_nf
  have hpi := Real.pi_pos
  have htan : 0 < Real.tan (Real.pi / 12) :=
    Real.tan_pos_of_pos_of_lt_pi_div_two (by linarith) (by linarith)
  have hdouble : 1 / √3 = 2 * Real.tan (Real.pi / 12) / (1 - Real.tan (Real.pi / 12) ^ 2) := by
    rw [← Real.tan_two_mul, ← Real.tan_pi_div_six]
    congr 1
    ring
  refine not_polesClear_of_wide (m := 0) le_rfl ?_
  rw [hdesigned, hlow, hhigh]
  generalize Real.tan (Real.pi / 12) = t at htan hdouble ⊢
  have hroot : √3 ^ 2 = 3 := Real.sq_sqrt (by norm_num)
  have hrootpos : 0 < √3 := Real.sqrt_pos.mpr (by norm_num)
  have hne : 1 - t ^ 2 ≠ 0 := by
    intro hzero
    rw [hzero, div_zero] at hdouble
    exact absurd hdouble (one_div_pos.mpr hrootpos).ne'
  have hinv : t * t⁻¹ = 1 := mul_inv_cancel₀ htan.ne'
  have hgap : t⁻¹ - t = 2 * √3 := by
    rw [div_eq_div_iff hrootpos.ne' hne] at hdouble
    linear_combination t⁻¹ * hdouble + (2 * √3 + t) * hinv
  calc 4 * (96000 * t * (96000 * t⁻¹)) = 4 * 96000 ^ 2 * (t * t⁻¹) := by ring
    _ = 4 * 96000 ^ 2 := by rw [hinv, mul_one]
    _ ≤ 96000 ^ 2 * (4 * √3 ^ 2) := by
      rw [hroot]
      norm_num
    _ = 96000 ^ 2 * (t⁻¹ - t) ^ 2 := by
      rw [hgap]
      ring
    _ = (96000 * t⁻¹ - 96000 * t) ^ 2 := by ring

end Dsp

end RtaTool
