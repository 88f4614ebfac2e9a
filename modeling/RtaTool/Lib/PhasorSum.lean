import RtaTool.Lib.Numerals
import Mathlib.Analysis.SpecialFunctions.Complex.Circle

/-!
# Sums of phasors

Phasors with weights that are not negative, each turning at a frequency of its own. At zero they
point the same way and the modulus of their sum is the sum of the weights. Away from there it falls,
at least until the two that differ most are half a turn apart. Farther away it may rise again, and a
step that is small enough still tells the first lobe from everything else in a bounded range, unless
the phasors all meet again there.

## Main definitions

* `phasorSum`

## Main results

* `sq_norm_phasorSum` -- the square of the modulus, by the differences of the frequencies
* `norm_phasorSum_lt` -- the modulus falls
* `exists_step` -- a step that is small enough
-/

namespace RtaTool

namespace PhasorSum

open Complex

variable {ι : Type*} {s : Finset ι} {w f : ι → ℝ}

/-- The sum of the phasors after some time. -/
noncomputable def phasorSum (s : Finset ι) (w f : ι → ℝ) (t : ℝ) : ℂ :=
  ∑ i ∈ s, w i * exp ((2 * Real.pi * f i * t : ℝ) * I)

theorem sq_norm_phasorSum (s : Finset ι) (w f : ι → ℝ) (t : ℝ) :
    ‖phasorSum s w f t‖ ^ 2 =
      ∑ i ∈ s, ∑ j ∈ s, w i * w j * Real.cos (2 * Real.pi * (f i - f j) * t) := by
  have hre : (phasorSum s w f t).re = ∑ i ∈ s, w i * Real.cos (2 * Real.pi * f i * t) := by
    rw [phasorSum, re_sum]
    refine Finset.sum_congr rfl fun i _ => ?_
    rw [re_ofReal_mul, exp_ofReal_mul_I_re]
  have him : (phasorSum s w f t).im = ∑ i ∈ s, w i * Real.sin (2 * Real.pi * f i * t) := by
    rw [phasorSum, im_sum]
    refine Finset.sum_congr rfl fun i _ => ?_
    rw [im_ofReal_mul, exp_ofReal_mul_I_im]
  rw [Complex.sq_norm, normSq_apply, hre, him, Finset.sum_mul_sum, Finset.sum_mul_sum,
    ← Finset.sum_add_distrib]
  refine Finset.sum_congr rfl fun i _ => ?_
  rw [← Finset.sum_add_distrib]
  refine Finset.sum_congr rfl fun j _ => ?_
  have hangle : 2 * Real.pi * (f i - f j) * t =
      2 * Real.pi * f i * t - 2 * Real.pi * f j * t := by ring
  rw [hangle, Real.cos_sub]
  ring

/-- Of a difference of frequencies only the size matters. -/
theorem cos_turn_abs (d t : ℝ) :
    Real.cos (2 * Real.pi * d * t) = Real.cos (2 * Real.pi * |d| * t) := by
  obtain h | h := abs_choice d
  · rw [h]
  · rw [h, mul_neg, neg_mul, Real.cos_neg]

theorem norm_phasorSum_neg (s : Finset ι) (w f : ι → ℝ) (t : ℝ) :
    ‖phasorSum s w f (-t)‖ = ‖phasorSum s w f t‖ := by
  refine (sq_eq_sq₀ (norm_nonneg _) (norm_nonneg _)).mp ?_
  simp only [sq_norm_phasorSum, mul_neg, Real.cos_neg]

theorem norm_phasorSum_zero (hw : ∀ i ∈ s, 0 ≤ w i) : ‖phasorSum s w f 0‖ = ∑ i ∈ s, w i := by
  have hsum : phasorSum s w f 0 = ((∑ i ∈ s, w i : ℝ) : ℂ) := by simp [phasorSum]
  rw [hsum, norm_real, Real.norm_of_nonneg (Finset.sum_nonneg hw)]

theorem norm_phasorSum_le (hw : ∀ i ∈ s, 0 ≤ w i) (t : ℝ) :
    ‖phasorSum s w f t‖ ≤ ∑ i ∈ s, w i := by
  refine (norm_sum_le _ _).trans_eq (Finset.sum_congr rfl fun i hi => ?_)
  rw [norm_mul, norm_exp_ofReal_mul_I, mul_one, norm_real, Real.norm_of_nonneg (hw i hi)]

/-- Phasors of one frequency stay together. -/
theorem norm_phasorSum_of_same (hw : ∀ i ∈ s, 0 ≤ w i) (hsame : ∀ i ∈ s, ∀ j ∈ s, f i = f j)
    (t : ℝ) : ‖phasorSum s w f t‖ = ∑ i ∈ s, w i := by
  refine (sq_eq_sq₀ (norm_nonneg _) (Finset.sum_nonneg hw)).mp ?_
  rw [sq_norm_phasorSum, sq, Finset.sum_mul_sum]
  refine Finset.sum_congr rfl fun i hi => Finset.sum_congr rfl fun j hj => ?_
  rw [hsame i hi j hj, sub_self, mul_zero, zero_mul, Real.cos_zero, mul_one]

theorem continuous_norm_phasorSum (s : Finset ι) (w f : ι → ℝ) :
    Continuous fun t => ‖phasorSum s w f t‖ := by
  unfold phasorSum
  fun_prop

section

variable (hw : ∀ i ∈ s, 0 < w i) (htwo : ∃ i ∈ s, ∃ j ∈ s, f i ≠ f j)

include hw htwo

/-- The modulus falls, until the two that differ most are half a turn apart. -/
theorem norm_phasorSum_lt {t u : ℝ}
    (hlt : |t| < |u|) (hspread : ∀ i ∈ s, ∀ j ∈ s, |f i - f j| * |u| ≤ 1 / 2) :
    ‖phasorSum s w f u‖ < ‖phasorSum s w f t‖ := by
  have habs : ∀ d v : ℝ, Real.cos (2 * Real.pi * d * v) = Real.cos (2 * Real.pi * (|d| * |v|)) := by
    intro d v
    rw [← Real.cos_abs, mul_assoc, abs_mul, abs_mul d v, abs_of_pos Real.two_pi_pos]
  have hrange : ∀ x : ℝ, 0 ≤ x → x ≤ 1 / 2 → 2 * Real.pi * x ∈ Set.Icc 0 Real.pi := by
    intro x hx hhalf
    have hpi := Real.pi_pos
    constructor
    · positivity
    · nlinarith
  have hcos : ∀ i ∈ s, ∀ j ∈ s, f i ≠ f j →
      Real.cos (2 * Real.pi * (f i - f j) * u) < Real.cos (2 * Real.pi * (f i - f j) * t) := by
    intro i hi j hj hne
    have hd : 0 < |f i - f j| := abs_pos.mpr (sub_ne_zero.mpr hne)
    have hshort : |f i - f j| * |t| < |f i - f j| * |u| := mul_lt_mul_of_pos_left hlt hd
    have hhalf := hspread i hi j hj
    rw [habs, habs]
    refine Real.strictAntiOn_cos (hrange _ (by positivity) (hshort.le.trans hhalf))
      (hrange _ (by positivity) hhalf) ?_
    exact mul_lt_mul_of_pos_left hshort Real.two_pi_pos
  have hterm : ∀ i ∈ s, ∀ j ∈ s,
      w i * w j * Real.cos (2 * Real.pi * (f i - f j) * u) ≤
        w i * w j * Real.cos (2 * Real.pi * (f i - f j) * t) := by
    intro i hi j hj
    obtain heq | hne := eq_or_ne (f i) (f j)
    · simp [heq]
    · exact mul_le_mul_of_nonneg_left (hcos i hi j hj hne).le (mul_pos (hw i hi) (hw j hj)).le
  refine lt_of_pow_lt_pow_left₀ 2 (norm_nonneg _) ?_
  rw [sq_norm_phasorSum, sq_norm_phasorSum]
  obtain ⟨i, hi, j, hj, hne⟩ := htwo
  refine Finset.sum_lt_sum (fun k hk => Finset.sum_le_sum (hterm k hk)) ⟨i, hi, ?_⟩
  refine Finset.sum_lt_sum (hterm i hi) ⟨j, hj, ?_⟩
  exact mul_lt_mul_of_pos_left (hcos i hi j hj hne) (mul_pos (hw i hi) (hw j hj))

/-- There is a lobe around zero over which the modulus falls. -/
theorem exists_radius :
    ∃ r > 0, ∀ t u, |t| < |u| → |u| ≤ r → ‖phasorSum s w f u‖ < ‖phasorSum s w f t‖ := by
  have hspreads : 0 ≤ ∑ i ∈ s, ∑ j ∈ s, |f i - f j| :=
    Finset.sum_nonneg fun i _ => Finset.sum_nonneg fun j _ => abs_nonneg _
  refine ⟨1 / (2 * (∑ i ∈ s, ∑ j ∈ s, |f i - f j| + 1)), by positivity, fun t u hlt hu => ?_⟩
  refine norm_phasorSum_lt hw htwo hlt fun i hi j hj => ?_
  have hle : |f i - f j| ≤ ∑ i ∈ s, ∑ j ∈ s, |f i - f j| :=
    (Finset.single_le_sum (fun j _ => abs_nonneg (f i - f j)) hj).trans
      (Finset.single_le_sum (f := fun i => ∑ j ∈ s, |f i - f j|)
        (fun i _ => Finset.sum_nonneg fun j _ => abs_nonneg _) hi)
  calc |f i - f j| * |u| ≤ (∑ i ∈ s, ∑ j ∈ s, |f i - f j| + 1) *
        (1 / (2 * (∑ i ∈ s, ∑ j ∈ s, |f i - f j| + 1))) :=
        mul_le_mul (by linarith) hu (abs_nonneg u) (by positivity)
    _ = 1 / 2 := by field_simp

omit hw htwo in
/-- Where the phasors do not meet again the modulus stays away from the sum of the weights. -/
theorem exists_level (hw : ∀ i ∈ s, 0 ≤ w i) {centre range r : ℝ} (hr : 0 < r)
    (honce : ∀ t, |t| ≤ range → ‖phasorSum s w f (t - centre)‖ = ∑ i ∈ s, w i → t = centre) :
    ∃ level < ∑ i ∈ s, w i, ∀ t, |t| ≤ range → r ≤ |t - centre| →
      ‖phasorSum s w f (t - centre)‖ ≤ level := by
  have hcompact : IsCompact (Set.Icc (-range) range ∩ {t | r ≤ |t - centre|}) :=
    isCompact_Icc.inter_right (isClosed_le continuous_const (by fun_prop))
  obtain hempty | hsome := (Set.Icc (-range) range ∩ {t | r ≤ |t - centre|}).eq_empty_or_nonempty
  · refine ⟨∑ i ∈ s, w i - 1, by linarith, fun t ht hfar => ?_⟩
    have hmem : t ∈ Set.Icc (-range) range ∩ {t | r ≤ |t - centre|} := ⟨abs_le.mp ht, hfar⟩
    rw [hempty] at hmem
    exact absurd hmem (Set.notMem_empty t)
  · obtain ⟨peak, ⟨hin, hfar⟩, hmax⟩ := hcompact.exists_isMaxOn hsome
      (((continuous_norm_phasorSum s w f).comp (continuous_sub_right centre)).continuousOn)
    refine ⟨‖phasorSum s w f (peak - centre)‖, ?_, fun t ht hfar => hmax ⟨abs_le.mp ht, hfar⟩⟩
    refine (norm_phasorSum_le hw _).lt_of_ne fun heq => ?_
    have hat : r ≤ |peak - centre| := hfar
    rw [honce peak (abs_le.mpr hin) heq, sub_self, abs_zero] at hat
    exact hat.not_gt hr

/-- A step that is small enough: the modulus falls over one and a half of it, and what is farther
away in the range is below what it is after one. -/
theorem exists_step {centre range : ℝ}
    (honce : ∀ t, |t| ≤ range → ‖phasorSum s w f (t - centre)‖ = ∑ i ∈ s, w i → t = centre) :
    ∃ bound > 0, ∀ step, 0 < step → step ≤ bound →
      (∀ t u, |t| < |u| → |u| ≤ 3 / 2 * step → ‖phasorSum s w f u‖ < ‖phasorSum s w f t‖) ∧
      ∀ t, |t| ≤ range → step < |t - centre| →
        ‖phasorSum s w f (t - centre)‖ < ‖phasorSum s w f step‖ := by
  have hnonneg : ∀ i ∈ s, 0 ≤ w i := fun i hi => (hw i hi).le
  obtain ⟨r, hr, hfalls⟩ := exists_radius hw htwo
  obtain ⟨level, hlevel, houtside⟩ := exists_level hnonneg hr honce
  -- A step whose modulus is above the level, and of which one and a half are in the lobe.
  have hnear : ∀ᶠ t in nhds 0, level < ‖phasorSum s w f t‖ := by
    refine (continuous_norm_phasorSum s w f).continuousAt.eventually (lt_mem_nhds ?_)
    show level < ‖phasorSum s w f 0‖
    rwa [norm_phasorSum_zero hnonneg]
  obtain ⟨ε, hε, hball⟩ := Metric.eventually_nhds_iff.mp hnear
  refine ⟨min (2 / 3 * r) (ε / 2), by positivity, fun step hstep hbound => ⟨?_, ?_⟩⟩
  · intro t u hlt hu
    have hthird := hbound.trans (min_le_left _ _)
    exact hfalls t u hlt (by linarith)
  · intro t ht hfar
    have hthird := hbound.trans (min_le_left _ _)
    have hhalf := hbound.trans (min_le_right _ _)
    obtain hout | hin := le_total r |t - centre|
    · refine (houtside t ht hout).trans_lt (hball ?_)
      rw [Real.dist_0_eq_abs, abs_of_pos hstep]
      linarith
    · exact hfalls step _ (by rwa [abs_of_pos hstep]) hin

end

end PhasorSum

end RtaTool
