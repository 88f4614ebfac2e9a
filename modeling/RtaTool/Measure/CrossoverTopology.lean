import RtaTool.Dsp.BiquadResponse
import RtaTool.Measure.AlignmentWizard

/-!
# The two sides of a crossover

`topologyCascade` of `CycleArrival.cpp` builds the high-pass and the low-pass side of a crossover
from second-order sections, and one of first order where the order is odd. The denominators of the
two sides are the same, section by section, so that the response of the one over that of the other
is a power of the bilinear variable: the order is the power, and the phase is a quarter turn for
each. `expectedOffset` of `CrossoverTopology.cpp` says so in one line.

## Main definitions

* `section`, `topologyCascade`
* `wrapToPiHalfOpen`, `expectedOffset`

## Main results

* `section_ratio` -- one section of the two sides
* `topologyCascade_ratio` -- **Headline.** The two sides, for every topology
-/

namespace RtaTool

namespace Measure

open AutoEq Dsp

/-! ### `CycleArrival.cpp` -/

/-- `section(fcHz, fs, highPass, order, k)`. -/
noncomputable def «section» (fcHz fs : ℝ) (highPass : Bool) (order : ℤ) (k : ℕ) : BiquadCoeffs ℝ :=
  let w0 := 2 * Real.pi * fcHz / fs
  if k = 0 then
    let t := Real.tan (w0 / 2)
    let a0 := 1 + t
    if highPass then { b0 := 1 / a0, b1 := -1 / a0, b2 := 0, a1 := (t - 1) / a0, a2 := 0 }
    else { b0 := t / a0, b1 := t / a0, b2 := 0, a1 := (t - 1) / a0, a2 := 0 }
  else
    let q := 1 / (2 * Real.sin ((2 * k - 1) * Real.pi / (2 * order)))
    let alpha := Real.sin w0 / (2 * q)
    let cw := Real.cos w0
    let a0 := 1 + alpha
    let b1 := if highPass then 1 + cw else 1 - cw
    { b0 := b1 / (2 * a0), b1 := (if highPass then -b1 else b1) / a0, b2 := b1 / (2 * a0)
      a1 := -2 * cw / a0, a2 := (1 - alpha) / a0 }

/-- One pass of the loop of `topologyCascade`. -/
noncomputable def sectionsOf (fcHz fs : ℝ) (highPass : Bool) (order : ℤ) :
    List (BiquadCoeffs ℝ) :=
  (if order.tmod 2 = 1 then [«section» fcHz fs highPass order 0] else []) ++
    (List.range (order.tdiv 2).toNat).map fun k => «section» fcHz fs highPass order (k + 1)

open Classical in
/-- `topologyCascade(topology, highPass, crossoverHz, sampleRate)`. -/
noncomputable def topologyCascade (topology : Topology) (highPass : Bool)
    (crossoverHz sampleRate : ℝ) : List (BiquadCoeffs ℝ) :=
  if ¬ 0 < crossoverHz ∨ ¬ 0 < sampleRate ∨ sampleRate / 2 ≤ crossoverHz then []
  else
    let lr : Bool := topology.family = .linkwitzRiley
    let order := if lr then topology.order.tdiv 2 else topology.order
    if order < 1 ∨ 16 < topology.order ∨ lr ∧ topology.order.tmod 2 ≠ 0 then []
    else
      (List.replicate (if lr then 2 else 1)
        (sectionsOf crossoverHz sampleRate highPass order)).flatten

/-! ### `CrossoverTopology.cpp` -/

section Wrap

variable {K : Type*} [Field K] [LinearOrder K] [FloorRing K]

/-- The nearest integer, the even one of two. -/
def nearestEven (x : K) : ℤ :=
  if x - ⌊x⌋ < 1 / 2 then ⌊x⌋
  else if 1 / 2 < x - ⌊x⌋ then ⌊x⌋ + 1
  else if Even ⌊x⌋ then ⌊x⌋
  else ⌊x⌋ + 1

/-- `std::remainder`. -/
def remainder (x y : K) : K := x - nearestEven (x / y) * y

/-- `wrapToPiHalfOpen(radians)`. -/
def wrapToPiHalfOpen (pi radians : K) : K :=
  let wrapped := remainder radians (2 * pi)
  if wrapped ≤ -pi then wrapped + 2 * pi else wrapped

/-- `ExpectedOffset`. -/
structure ExpectedOffset (K : Type*) [Zero K] where
  radians : K := 0
  ambiguous : Bool := false
  alternativeRadians : K := 0

/-- `expectedOffset(topology, inversion)`. -/
def expectedOffset (pi : K) (topology : Topology) (inversion : ProcessorInversion) :
    ExpectedOffset K :=
  let raw := wrapToPiHalfOpen pi (topology.order * pi / 2)
  let inverted := wrapToPiHalfOpen pi (raw + pi)
  match inversion with
  | .yes => { radians := inverted }
  | .no => { radians := raw }
  | .unknown => { radians := raw, alternativeRadians := inverted, ambiguous := true }

theorem wrapToPiHalfOpen_turns (pi radians : K) :
    ∃ n : ℤ, wrapToPiHalfOpen pi radians = radians + n * (2 * pi) := by
  rw [wrapToPiHalfOpen, remainder]
  split_ifs
  · refine ⟨1 - nearestEven (radians / (2 * pi)), ?_⟩
    push_cast
    ring
  · refine ⟨-nearestEven (radians / (2 * pi)), ?_⟩
    push_cast
    ring

variable [IsStrictOrderedRing K]

theorem abs_sub_nearestEven (x : K) : |x - nearestEven x| ≤ 1 / 2 := by
  have hlow := Int.floor_le x
  have hhigh := Int.lt_floor_add_one x
  rw [nearestEven, abs_le]
  split_ifs
  · constructor <;> linarith
  · push_cast
    constructor <;> linarith
  · constructor <;> linarith
  · push_cast
    constructor <;> linarith

/-- The range is half open: the angle opposite is `pi`. -/
theorem wrapToPiHalfOpen_mem {pi : K} (hpi : 0 < pi) (radians : K) :
    -pi < wrapToPiHalfOpen pi radians ∧ wrapToPiHalfOpen pi radians ≤ pi := by
  have hremainder : |remainder radians (2 * pi)| ≤ pi := by
    have hfactor : remainder radians (2 * pi) =
        (radians / (2 * pi) - nearestEven (radians / (2 * pi))) * (2 * pi) := by
      rw [remainder, sub_mul, div_mul_cancel₀ _ (by positivity)]
    rw [hfactor, abs_mul, abs_of_pos (by positivity : 0 < 2 * pi)]
    have hnear := abs_sub_nearestEven (radians / (2 * pi))
    calc _ ≤ 1 / 2 * (2 * pi) := by gcongr
      _ = pi := by ring
  obtain ⟨hlow, hhigh⟩ := abs_le.mp hremainder
  rw [wrapToPiHalfOpen]
  split_ifs with hend
  · constructor <;> linarith
  · exact ⟨not_le.mp hend, hhigh⟩

end Wrap

/-! ### One section -/

section Ratio

variable {fcHz fs : ℝ} {order : ℤ} {k : ℕ}

/-- The bilinear variable, in units of its value at the corner. -/
noncomputable def bilinearRatio (w0 w : ℝ) : ℂ :=
  Complex.I * Real.tan (w / 2) / Real.tan (w0 / 2)

/-- The angle of a corner below half the sample rate. -/
theorem corner_mem (hfc : 0 < fcHz) (hfs : 0 < fs) (hnyquist : fcHz < fs / 2) :
    0 < 2 * Real.pi * fcHz / fs ∧ 2 * Real.pi * fcHz / fs < Real.pi := by
  have hpi := Real.pi_pos
  refine ⟨by positivity, ?_⟩
  rw [div_lt_iff₀ hfs]
  nlinarith

/-- The sections that a Butterworth filter has. -/
def IsSectionIndex (order : ℤ) (k : ℕ) : Prop := k = 0 ∨ 2 * (k : ℤ) ≤ order

theorem section_alpha_pos {w0 : ℝ} (hw0 : 0 < w0 ∧ w0 < Real.pi) (hk : k ≠ 0)
    (hle : 2 * (k : ℤ) ≤ order) :
    0 < Real.sin w0 /
      (2 * (1 / (2 * Real.sin ((2 * k - 1) * Real.pi / (2 * order))))) := by
  have hkpos : (1 : ℝ) ≤ k := by exact_mod_cast Nat.one_le_iff_ne_zero.mpr hk
  have hle' : 2 * (k : ℝ) ≤ order := by exact_mod_cast hle
  have hpi := Real.pi_pos
  have hangle : 0 < Real.sin ((2 * k - 1) * Real.pi / (2 * order)) := by
    apply Real.sin_pos_of_pos_of_lt_pi
    · apply div_pos (mul_pos (by linarith) hpi) (by linarith)
    · rw [div_lt_iff₀ (by linarith)]
      nlinarith
  have hsin := Real.sin_pos_of_pos_of_lt_pi hw0.1 hw0.2
  positivity

/-- The poles of both sides are inside the unit circle. -/
theorem section_stable (hfc : 0 < fcHz) (hfs : 0 < fs) (hnyquist : fcHz < fs / 2)
    (hk : IsSectionIndex order k) (highPass : Bool) :
    Stable («section» fcHz fs highPass order k) := by
  have hw0 := corner_mem hfc hfs hnyquist
  rw [«section»]
  by_cases hk0 : k = 0
  · rw [if_pos hk0]
    have ht : 0 < Real.tan (2 * Real.pi * fcHz / fs / 2) :=
      Real.tan_pos_of_pos_of_lt_pi_div_two (by linarith) (by linarith)
    have hlinear : |(Real.tan (2 * Real.pi * fcHz / fs / 2) - 1) /
        (1 + Real.tan (2 * Real.pi * fcHz / fs / 2))| < 1 := by
      rw [abs_div, abs_of_pos (by linarith : 0 < 1 + Real.tan (2 * Real.pi * fcHz / fs / 2)),
        div_lt_one (by linarith), abs_lt]
      constructor <;> linarith
    cases highPass <;> exact ⟨by simp, by simpa using hlinear⟩
  · rw [if_neg hk0]
    have halpha := section_alpha_pos hw0 hk0 (hk.resolve_left hk0)
    have hcos := abs_cos_lt_one hw0
    set alpha := Real.sin (2 * Real.pi * fcHz / fs) /
      (2 * (1 / (2 * Real.sin ((2 * k - 1) * Real.pi / (2 * order)))))
    have ha0 : 0 < 1 + alpha := by linarith
    constructor
    · change |(1 - alpha) / (1 + alpha)| < 1
      rw [abs_div, abs_of_pos ha0, div_lt_one ha0, abs_lt]
      constructor <;> linarith
    · change |-2 * Real.cos (2 * Real.pi * fcHz / fs) / (1 + alpha)| <
        1 + (1 - alpha) / (1 + alpha)
      rw [abs_div, abs_of_pos ha0, abs_mul, one_add_div ha0.ne', div_lt_div_iff_of_pos_right ha0]
      norm_num
      linarith

/-- The order of a section. -/
def sectionOrder (k : ℕ) : ℕ := if k = 0 then 1 else 2

/-- A double zero at one end of the unit circle. -/
theorem numerator_square (b a0 a1 a2 sign : ℝ) (hsign : sign ^ 2 = 1) (zInv : ℂ) :
    biquadNumerator ⟨b / (2 * a0), sign * b / a0, b / (2 * a0), a1, a2⟩ zInv =
      ((b / (2 * a0) : ℝ) : ℂ) * (1 + sign * zInv) ^ 2 := by
  have hsq : (sign : ℂ) ^ 2 = 1 := by exact_mod_cast hsign
  rw [biquadNumerator]
  push_cast
  linear_combination (-(b / (2 * a0)) * zInv ^ 2 : ℂ) * hsq

/-- The constants of the two numerators differ by the square of the corner. -/
theorem one_sub_cos (w0 : ℝ) (hw0 : 0 < w0 ∧ w0 < Real.pi) :
    1 - Real.cos w0 = (1 + Real.cos w0) * Real.tan (w0 / 2) ^ 2 := by
  have hcos : Real.cos (w0 / 2) ≠ 0 :=
    (Real.cos_pos_of_mem_Ioo ⟨by linarith [Real.pi_pos], by linarith⟩).ne'
  have hdouble : Real.cos w0 = 2 * Real.cos (w0 / 2) ^ 2 - 1 := by
    rw [← Real.cos_two_mul, mul_div_cancel₀ _ two_ne_zero]
  have hsq := Real.sin_sq_add_cos_sq (w0 / 2)
  rw [Real.tan_eq_sin_div_cos, hdouble]
  field_simp
  linear_combination (-2 * Real.cos (w0 / 2) ^ 2) * hsq

/-- One section of the two sides: the denominators are the same, and what is left of the
numerators is a power of the bilinear variable. -/
theorem section_ratio (hfc : 0 < fcHz) (hfs : 0 < fs) (hnyquist : fcHz < fs / 2)
    (hk : IsSectionIndex order k) {w : ℝ} (hw : 0 < w ∧ w < Real.pi) :
    biquadResponse («section» fcHz fs false order k) w ≠ 0 ∧
      biquadResponse («section» fcHz fs true order k) w =
        biquadResponse («section» fcHz fs false order k) w *
          bilinearRatio (2 * Real.pi * fcHz / fs) w ^ sectionOrder k := by
  have hw0 := corner_mem hfc hfs hnyquist
  set w0 := 2 * Real.pi * fcHz / fs with hw0def
  have ht : 0 < Real.tan (w0 / 2) :=
    Real.tan_pos_of_pos_of_lt_pi_div_two (by linarith) (by linarith)
  have hcosw : 0 < Real.cos (w / 2) :=
    Real.cos_pos_of_mem_Ioo ⟨by linarith [Real.pi_pos], by linarith⟩
  -- the numerators, by the bilinear transform
  have hplus : 1 + zInvAt w ≠ 0 := by
    rw [one_add_zInv]
    refine mul_ne_zero (mul_ne_zero two_ne_zero ?_) (Complex.exp_ne_zero _)
    exact_mod_cast hcosw.ne'
  have hminus : 1 - zInvAt w = (1 + zInvAt w) * (Complex.I * Real.tan (w / 2)) := by
    have hcosne : (Real.cos (w / 2) : ℂ) ≠ 0 := by exact_mod_cast hcosw.ne'
    rw [one_add_zInv, one_sub_zInv, Real.tan_eq_sin_div_cos, Complex.ofReal_div]
    field_simp
  have hden := (section_stable hfc hfs hnyquist hk false).denominator_ne_zero w
  have hsame : biquadDenominator («section» fcHz fs true order k) (zInvAt w) =
      biquadDenominator («section» fcHz fs false order k) (zInvAt w) := by
    rw [biquadDenominator, biquadDenominator, «section», «section»]
    split_ifs <;> rfl
  suffices hnum : biquadNumerator («section» fcHz fs false order k) (zInvAt w) ≠ 0 ∧
      biquadNumerator («section» fcHz fs true order k) (zInvAt w) =
        biquadNumerator («section» fcHz fs false order k) (zInvAt w) *
          bilinearRatio w0 w ^ sectionOrder k by
    refine ⟨div_ne_zero hnum.1 hden, ?_⟩
    rw [biquadResponse, biquadResponse, hsame, hnum.2]
    ring
  have htne : (Real.tan (w0 / 2) : ℂ) ≠ 0 := by exact_mod_cast ht.ne'
  by_cases hk0 : k = 0
  · have ha0 : ((1 + Real.tan (w0 / 2) : ℝ) : ℂ) ≠ 0 := by
      have : 0 < 1 + Real.tan (w0 / 2) := by linarith
      exact_mod_cast this.ne'
    have hlow : biquadNumerator («section» fcHz fs false order k) (zInvAt w) =
        Real.tan (w0 / 2) / ((1 + Real.tan (w0 / 2) : ℝ) : ℂ) * (1 + zInvAt w) := by
      rw [biquadNumerator, «section», if_pos hk0]
      simp only [Bool.false_eq_true, if_false, ← hw0def]
      push_cast
      ring
    have hhigh : biquadNumerator («section» fcHz fs true order k) (zInvAt w) =
        1 / ((1 + Real.tan (w0 / 2) : ℝ) : ℂ) * (1 - zInvAt w) := by
      rw [biquadNumerator, «section», if_pos hk0]
      simp only [if_true, ← hw0def]
      push_cast
      ring
    rw [hlow, hhigh, sectionOrder, if_pos hk0, pow_one, bilinearRatio, hminus]
    refine ⟨mul_ne_zero (div_ne_zero htne ha0) hplus, ?_⟩
    field_simp
  · have halpha := section_alpha_pos hw0 hk0 (hk.resolve_left hk0)
    rw [hw0def] at halpha
    set alpha := Real.sin (2 * Real.pi * fcHz / fs) /
      (2 * (1 / (2 * Real.sin ((2 * k - 1) * Real.pi / (2 * order))))) with halphadef
    have hcos : 0 < 1 + Real.cos w0 := by linarith [(abs_lt.mp (abs_cos_lt_one hw0)).1]
    have hscale : ((1 + Real.cos w0) / (2 * (1 + alpha)) : ℝ) ≠ 0 := by positivity
    have hlow : biquadNumerator («section» fcHz fs false order k) (zInvAt w) =
        (((1 - Real.cos w0) / (2 * (1 + alpha)) : ℝ) : ℂ) * (1 + zInvAt w) ^ 2 := by
      have h := numerator_square (1 - Real.cos w0) (1 + alpha) (-2 * Real.cos w0 / (1 + alpha))
        ((1 - alpha) / (1 + alpha)) 1 (by norm_num) (zInvAt w)
      rw [one_mul, Complex.ofReal_one, one_mul] at h
      rw [← h, «section», if_neg hk0]
      rfl
    have hhigh : biquadNumerator («section» fcHz fs true order k) (zInvAt w) =
        (((1 + Real.cos w0) / (2 * (1 + alpha)) : ℝ) : ℂ) * (1 - zInvAt w) ^ 2 := by
      have h := numerator_square (1 + Real.cos w0) (1 + alpha) (-2 * Real.cos w0 / (1 + alpha))
        ((1 - alpha) / (1 + alpha)) (-1) (by norm_num) (zInvAt w)
      rw [neg_one_mul, Complex.ofReal_neg, Complex.ofReal_one, neg_one_mul, ← sub_eq_add_neg] at h
      rw [← h, «section», if_neg hk0]
      rfl
    have hconst : (((1 - Real.cos w0) / (2 * (1 + alpha)) : ℝ) : ℂ) =
        (((1 + Real.cos w0) / (2 * (1 + alpha)) : ℝ) : ℂ) * (Real.tan (w0 / 2) : ℂ) ^ 2 := by
      rw [one_sub_cos w0 hw0, mul_div_right_comm]
      push_cast
      rfl
    have hscale' : (((1 + Real.cos w0) / (2 * (1 + alpha)) : ℝ) : ℂ) ≠ 0 := by
      exact_mod_cast hscale
    rw [hlow, hhigh, hconst, sectionOrder, if_neg hk0, bilinearRatio, hminus]
    refine ⟨mul_ne_zero (mul_ne_zero hscale' (pow_ne_zero 2 htne)) (pow_ne_zero 2 hplus), ?_⟩
    field_simp

/-! ### The cascade -/

/-- Which sections one pass has. -/
def sectionIndices (order : ℤ) : List ℕ :=
  (if order.tmod 2 = 1 then [0] else []) ++ (List.range (order.tdiv 2).toNat).map (· + 1)

theorem sectionsOf_eq (highPass : Bool) :
    sectionsOf fcHz fs highPass order =
      (sectionIndices order).map («section» fcHz fs highPass order) := by
  rw [sectionsOf, sectionIndices, List.map_append, List.map_map]
  congr 1
  split_ifs <;> rfl

theorem isSectionIndex_of_mem (horder : 0 ≤ order) (hk : k ∈ sectionIndices order) :
    IsSectionIndex order k := by
  rw [sectionIndices, List.mem_append] at hk
  obtain hk | hk := hk
  · refine .inl ?_
    split_ifs at hk
    · exact List.mem_singleton.mp hk
    · cases hk
  · obtain ⟨j, hj, rfl⟩ := List.mem_map.mp hk
    have hlt := List.mem_range.mp hj
    rw [Int.tdiv_eq_ediv_of_nonneg horder] at hlt
    refine .inr ?_
    push_cast
    omega

theorem sum_sectionOrder (horder : 0 ≤ order) :
    ((sectionIndices order).map sectionOrder).sum = order.toNat := by
  have hpairs : (((List.range (order.tdiv 2).toNat).map (· + 1)).map sectionOrder).sum =
      2 * (order.tdiv 2).toNat := by
    rw [List.map_map]
    have hconst : sectionOrder ∘ (· + 1) = fun _ => 2 := funext fun j => rfl
    rw [hconst, List.map_const', List.length_range, List.sum_replicate, smul_eq_mul, mul_comm]
  rw [sectionIndices, List.map_append, List.sum_append, hpairs,
    Int.tdiv_eq_ediv_of_nonneg horder, Int.tmod_eq_emod_of_nonneg horder]
  split_ifs with hodd
  · change 1 + _ = _
    omega
  · change 0 + _ = _
    omega

theorem sections_ratio (hfc : 0 < fcHz) (hfs : 0 < fs) (hnyquist : fcHz < fs / 2) {w : ℝ}
    (hw : 0 < w ∧ w < Real.pi) {ks : List ℕ} (hks : ∀ k ∈ ks, IsSectionIndex order k) :
    cascadeResponse (ks.map («section» fcHz fs false order)) w ≠ 0 ∧
      cascadeResponse (ks.map («section» fcHz fs true order)) w =
        cascadeResponse (ks.map («section» fcHz fs false order)) w *
          bilinearRatio (2 * Real.pi * fcHz / fs) w ^ (ks.map sectionOrder).sum := by
  simp only [cascadeResponse_eq]
  induction ks with
  | nil => simp
  | cons k ks ih =>
    obtain ⟨hk, hrest⟩ := List.forall_mem_cons.mp hks
    obtain ⟨hne, hratio⟩ := section_ratio hfc hfs hnyquist hk hw
    obtain ⟨hne', hratio'⟩ := ih hrest
    simp only [List.map_cons, List.prod_cons, List.sum_cons]
    refine ⟨mul_ne_zero hne hne', ?_⟩
    rw [hratio, hratio', pow_add]
    ring

end Ratio

/-- The sections that are built, for both sides: so many passes of so many sections. -/
theorem topologyCascade_built {topology : Topology} {crossoverHz sampleRate : ℝ}
    (hbuilt : topologyCascade topology true crossoverHz sampleRate ≠ []) :
    0 < crossoverHz ∧ 0 < sampleRate ∧ crossoverHz < sampleRate / 2 ∧ 0 ≤ topology.order ∧
      ∃ (order : ℤ) (ks : List ℕ), (∀ k ∈ ks, IsSectionIndex order k) ∧
        (ks.map sectionOrder).sum = topology.order.toNat ∧
        ∀ highPass, topologyCascade topology highPass crossoverHz sampleRate =
          ks.map («section» crossoverHz sampleRate highPass order) := by
  have hdomain : ¬ (¬ 0 < crossoverHz ∨ ¬ 0 < sampleRate ∨ sampleRate / 2 ≤ crossoverHz) := by
    intro hrefused
    rw [topologyCascade, if_pos hrefused] at hbuilt
    exact hbuilt rfl
  generalize hlr : decide (topology.family = .linkwitzRiley) = lr
  generalize horder : (if lr then topology.order.tdiv 2 else topology.order) = order
  have hunfold : ∀ highPass, topologyCascade topology highPass crossoverHz sampleRate =
      if order < 1 ∨ 16 < topology.order ∨ lr ∧ topology.order.tmod 2 ≠ 0 then []
      else (List.replicate (if lr then 2 else 1)
        (sectionsOf crossoverHz sampleRate highPass order)).flatten := by
    intro highPass
    subst hlr horder
    rw [topologyCascade, if_neg hdomain]
  have hshape : ¬ (order < 1 ∨ 16 < topology.order ∨ lr ∧ topology.order.tmod 2 ≠ 0) := by
    intro hshape
    rw [hunfold, if_pos hshape] at hbuilt
    exact hbuilt rfl
  simp only [if_neg hshape] at hunfold
  rw [not_or, not_or, not_not, not_not, not_le] at hdomain
  rw [not_or, not_or, not_lt, not_lt, not_and, not_not] at hshape
  obtain ⟨hfc, hfs, hnyquist⟩ := hdomain
  obtain ⟨hone, -, heven⟩ := hshape
  have hpos : 0 ≤ topology.order := by
    subst horder
    split_ifs at hone
    · rw [Int.tdiv_eq_ediv, show Int.sign 2 = 1 from rfl] at hone
      split_ifs at hone <;> omega
    · omega
  refine ⟨hfc, hfs, hnyquist, hpos, order,
    (List.replicate (if lr then 2 else 1) (sectionIndices order)).flatten, ?_, ?_,
    fun highPass => ?_⟩
  · intro k hk
    obtain ⟨ks, hks, hmem⟩ := List.mem_flatten.mp hk
    rw [List.eq_of_mem_replicate hks] at hmem
    exact isSectionIndex_of_mem (by omega) hmem
  · rw [List.map_flatten, List.map_replicate, List.sum_flatten, List.map_replicate,
      sum_sectionOrder (by omega), List.sum_replicate, smul_eq_mul]
    subst horder
    -- two passes of half the order, which is even
    split_ifs with hfamily
    · have hrem := heven hfamily
      rw [Int.tdiv_eq_ediv_of_nonneg hpos]
      rw [Int.tmod_eq_emod_of_nonneg hpos] at hrem
      omega
    · rw [one_mul]
  · rw [hunfold highPass, List.map_flatten, List.map_replicate, ← sectionsOf_eq]

/-- **Headline.** Wherever sections are built, the high-pass side over the low-pass side is the
bilinear variable to the power of the order. So their relative phase is the same at every
frequency, and it is the expected offset. -/
theorem topologyCascade_ratio (topology : Topology) (crossoverHz sampleRate w : ℝ)
    (hbuilt : topologyCascade topology true crossoverHz sampleRate ≠ [])
    (hw : 0 < w ∧ w < Real.pi) :
    let highPass := cascadeResponse (topologyCascade topology true crossoverHz sampleRate) w
    let lowPass := cascadeResponse (topologyCascade topology false crossoverHz sampleRate) w
    let w0 := 2 * Real.pi * crossoverHz / sampleRate
    lowPass ≠ 0 ∧ highPass ≠ 0 ∧
      highPass / lowPass =
        (Complex.I * Real.tan (w / 2) / Real.tan (w0 / 2)) ^ topology.order.toNat ∧
      ((Complex.arg highPass - Complex.arg lowPass : ℝ) : Real.Angle) =
        (expectedOffset Real.pi topology .no).radians := by
  intro highPass lowPass w0
  obtain ⟨hfc, hfs, hnyquist, hpos, order, ks, hks, hsum, hcascade⟩ :=
    topologyCascade_built hbuilt
  obtain ⟨hne, hratio⟩ := sections_ratio hfc hfs hnyquist hw hks
  rw [← hcascade, ← hcascade, hsum] at hratio
  rw [← hcascade] at hne
  have hw0 := corner_mem hfc hfs hnyquist
  have hx : 0 < Real.tan (w / 2) / Real.tan (w0 / 2) :=
    div_pos (Real.tan_pos_of_pos_of_lt_pi_div_two (by linarith) (by linarith))
      (Real.tan_pos_of_pos_of_lt_pi_div_two (by linarith) (by linarith))
  have hvar : bilinearRatio w0 w =
      ((Real.tan (w / 2) / Real.tan (w0 / 2) : ℝ) : ℂ) * Complex.I := by
    rw [bilinearRatio]
    push_cast
    ring
  have hvarne : bilinearRatio w0 w ≠ 0 := by
    rw [hvar]
    exact mul_ne_zero (by exact_mod_cast hx.ne') Complex.I_ne_zero
  have hhigh : highPass ≠ 0 := by
    rw [show highPass = _ from hratio]
    exact mul_ne_zero hne (pow_ne_zero _ hvarne)
  have hquotient : highPass / lowPass = bilinearRatio w0 w ^ topology.order.toNat :=
    (div_eq_iff hne).mpr (hratio.trans (mul_comm _ _))
  refine ⟨hne, hhigh, hquotient, ?_⟩
  -- the argument of the quotient is a quarter turn for each order
  have horder : ((topology.order.toNat : ℕ) : ℝ) = topology.order := by
    exact_mod_cast Int.toNat_of_nonneg hpos
  obtain ⟨n, hn⟩ := wrapToPiHalfOpen_turns Real.pi (topology.order * Real.pi / 2)
  have hoffset : (expectedOffset Real.pi topology .no).radians =
      topology.order * Real.pi / 2 + n * (2 * Real.pi) := hn
  have harg : Complex.arg (bilinearRatio w0 w) = Real.pi / 2 := by
    rw [hvar, Complex.arg_real_mul _ hx, Complex.arg_I]
  rw [Real.Angle.coe_sub, ← Complex.arg_div_coe_angle hhigh hne, hquotient,
    Complex.arg_pow_coe_angle, harg, hoffset, ← Real.Angle.coe_nsmul,
    Real.Angle.angle_eq_iff_two_pi_dvd_sub]
  refine ⟨-n, ?_⟩
  rw [nsmul_eq_mul, horder]
  push_cast
  ring

/-- A first-order Butterworth crossover at a quarter of the sample rate. -/
theorem topologyCascade_ratio_first :
    let topology : Topology := { family := .butterworth, order := 1 }
    cascadeResponse (topologyCascade topology true 1 4) 1 /
        cascadeResponse (topologyCascade topology false 1 4) 1 =
      (Complex.I * Real.tan (1 / 2) / Real.tan (2 * Real.pi * 1 / 4 / 2)) ^ 1 := by
  intro topology
  have hbuilt : topologyCascade topology true 1 4 ≠ [] := by
    rw [topologyCascade, if_neg (by norm_num)]
    simp [topology, sectionsOf]
  exact (topologyCascade_ratio topology 1 4 1 hbuilt
    ⟨one_pos, by linarith [Real.pi_gt_three]⟩).2.2.1

end Measure

end RtaTool
