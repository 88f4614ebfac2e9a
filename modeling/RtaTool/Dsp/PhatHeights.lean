import RtaTool.Dsp.HalfSpectrum
import RtaTool.Dsp.PhatCorrelation

/-!
# How high a correlation is

Over the reals a weighted bin is in the unit disc, and so no sample of the correlation is higher than
the bins of the band weigh. Two impulses reach that. There is nothing to see in a correlation exactly
when no bin of the band has anything of both sides.

## Main definitions

* `realDelay` -- the real functions
* `bandWeight` -- what the bins of a band weigh

## Main results

* `computePhatCorrelation_eq` -- every size that memory has room for is answered
* `abs_phat_le` -- **Headline.** The height of a correlation
* `phat_impulses` -- two impulses are as high as that
* `phat_eq_zero_iff` -- **Headline.** When there is nothing to see
-/

namespace RtaTool

namespace Dsp

open Fft

/-- The real functions. -/
noncomputable def realDelay : DelayMath ℝ :=
  { trig := realTrig, sqrt := Real.sqrt, log := Real.log }

/-! ### The size -/

theorem max_le_phatSize (n : ℕ) : max (2 * n) 4 ≤ phatSize n := Nat.le_pow_clog Nat.one_lt_two _

theorem phatSize_eq (n : ℕ) : ∃ levels, phatSize n = 2 ^ (levels + 2) := by
  have hfour : 2 ^ 2 ≤ 2 ^ Nat.clog 2 (max (2 * n) 4) :=
    (le_max_right (2 * n) 4).trans (max_le_phatSize n)
  obtain ⟨levels, hlevels⟩ :=
    Nat.exists_eq_add_of_le' ((Nat.pow_le_pow_iff_right Nat.one_lt_two).mp hfour)
  exact ⟨levels, by rw [phatSize, bitCeil, hlevels]⟩

/-! ### The transform of a span -/

/-- The bins of a span, with zeros after it. -/
noncomputable def spanBins (m : ℕ) (span : List ℝ) : ℕ → Cplx ℝ :=
  realFftForward realTrig m fun n => span.getD n 0

variable {levels : ℕ} {options : PhatOptions ℝ}

theorem toComplex_spanBins {k : ℕ} (hk : k ≤ 2 ^ levels) (span : List ℝ) :
    toComplex (spanBins (2 ^ (levels + 1)) span k) =
      ∑ n ∈ Finset.range (2 ^ (levels + 1)), (span.getD n 0 : ℂ) *
        Complex.exp (-(2 * Real.pi * Complex.I * (k * n : ℕ)) / (2 ^ (levels + 1) : ℕ)) := by
  rw [spanBins, trigRoots_real.realFftForward_apply hk, toComplex_dft]
  rfl

theorem spanBins_end_im {k : ℕ} (hk : k = 0 ∨ k = 2 ^ levels) (span : List ℝ) :
    (spanBins (2 ^ (levels + 1)) span k).im = 0 := by
  have hdouble : 2 ^ (levels + 1) = 2 ^ levels + 2 ^ levels := by ring
  have h := trigRoots_real
  have hle : k ≤ 2 ^ levels := by
    obtain rfl | rfl := hk
    · exact Nat.zero_le _
    · exact le_rfl
  rw [spanBins, h.realFftForward_apply hle]
  refine TrigRoots.im_eq_zero ?_
  obtain rfl | rfl := hk
  · rw [h.star_dft (Nat.zero_add _), ← dft_mod h.tower, Nat.mod_self]
  · rw [h.star_dft hdouble.symm]

theorem spanBins_zero {k : ℕ} (hk : k ≤ 2 ^ levels) {span : List ℝ} (hspan : ∀ v ∈ span, v = 0) :
    spanBins (2 ^ (levels + 1)) span k = 0 := by
  have hgetD : ∀ n, span.getD n 0 = 0 := fun n => by
    by_cases hn : n < span.length
    · rw [List.getD_eq_getElem _ _ hn]
      exact hspan _ (List.getElem_mem hn)
    · exact List.getD_eq_default _ _ (not_lt.mp hn)
  rw [spanBins, trigRoots_real.realFftForward_apply hk]
  refine Finset.sum_eq_zero fun n _ => ?_
  dsimp only
  rw [hgetD]
  exact zero_mul _

/-! ### The answer -/

theorem magG_eq_norm (m : ℕ) (x y : ℕ → Cplx ℝ) (k : ℕ) :
    magG realDelay options m x y k = ‖toComplex (crossBin options m x y k)‖ := by
  rw [magG, ← cplxAbs_eq_norm]
  split_ifs with hband
  · rfl
  · rw [crossBin, if_neg hband, cplxAbs_eq_norm, map_zero, norm_zero]

variable {m : ℕ} {x y x' y' : ℕ → Cplx ℝ}

theorem mem_bandBins {k : ℕ} : k ∈ bandBins options m ↔ k ≤ m / 2 ∧ inBand options m k = true := by
  rw [bandBins, List.mem_filter, List.mem_range, Nat.lt_succ_iff]

theorem weightedBin_congr (hx : ∀ k ≤ m / 2, x k = x' k) (hy : ∀ k ≤ m / 2, y k = y' k) {k : ℕ}
    (hk : k ≤ m / 2) :
    weightedBin realDelay options m x y k = weightedBin realDelay options m x' y' k := by
  have hcross : ∀ k ≤ m / 2, crossBin options m x y k = crossBin options m x' y' k := by
    intro k hk
    rw [crossBin, crossBin, hx k hk, hy k hk]
  have hmag : ∀ k ≤ m / 2, magG realDelay options m x y k = magG realDelay options m x' y' k := by
    intro k hk
    rw [magG_eq_norm, magG_eq_norm, hcross k hk]
  have hfloor : phatFloor realDelay options m x y = phatFloor realDelay options m x' y' := by
    rw [phatFloor, phatFloor]
    refine congrArg (options.regularisation * ·) (List.foldl_ext _ _ _ fun _ k hk => ?_)
    rw [hmag k (mem_bandBins.mp hk).1]
  rw [weightedBin, weightedBin, hmag k hk, hcross k hk, hfloor]

/-- The inverse reads the bins of the half spectrum. -/
theorem realFftInverse_congr {p : ℕ} (hp : p < 2 ^ (levels + 1))
    (hx : ∀ k ≤ 2 ^ levels, x k = x' k) :
    realFftInverse realTrig (2 ^ (levels + 1)) x p =
      realFftInverse realTrig (2 ^ (levels + 1)) x' p := by
  rw [realFftInverse_eq_sum hp, realFftInverse_eq_sum hp, hx 0 (Nat.zero_le _), hx _ le_rfl]
  congr 3
  refine Finset.sum_congr rfl fun k hk => ?_
  rw [hx k (Finset.mem_Ico.mp hk).2.le]

/-- The weighted bins of two spans. -/
noncomputable def phatBins (options : PhatOptions ℝ) (m : ℕ) (reference measurement : List ℝ) :
    ℕ → Cplx ℝ :=
  weightedBin realDelay options m (spanBins m reference) (spanBins m measurement)

/-- What is answered, and that there is an answer wherever memory has room. -/
theorem computePhatCorrelation_eq (reference measurement : List ℝ) (options : PhatOptions ℝ)
    (hroom : phatSize reference.length ≤ (2 ^ 63 - 1) / 4) : ∃ correlation,
    computePhatCorrelation realDelay reference measurement options =
      .ok ⟨correlation, phatSize reference.length,
        (bandBins options (phatSize reference.length)).length⟩ ∧
    ∀ p < phatSize reference.length, correlation p =
      realFftInverse realTrig (phatSize reference.length)
        (phatBins options (phatSize reference.length) reference measurement) p := by
  obtain ⟨levels, hsize⟩ := phatSize_eq reference.length
  rw [computePhatCorrelation, checkVector, if_neg (not_lt.mpr hroom), hsize]
  have hhalf : 2 ^ (levels + 2) / 2 = 2 ^ (levels + 1) := Fft.two_pow_half _
  obtain ⟨half, hmake⟩ := RealFftTables.exists_make realTrig levels
  obtain ⟨x, hforwardX, hx⟩ := RealFftTables.forward_eq hmake fun n => reference.getD n 0
  obtain ⟨y, hforwardY, hy⟩ := RealFftTables.forward_eq hmake fun n => measurement.getD n 0
  obtain ⟨correlation, hinverse, hsamples⟩ := RealFftTables.inverse_eq trigRoots_real hmake
    (weightedBin realDelay options (2 ^ (levels + 2)) x y)
  refine ⟨correlation, ?_, fun p hp => ?_⟩
  · simp only [show realDelay.trig = realTrig from rfl, hmake, bind, Except.bind,
      RealFftTables.numBins, hforwardX, hforwardY, hinverse]
    rfl
  · rw [hsamples p hp]
    exact realFftInverse_congr hp fun k hk =>
      weightedBin_congr hx hy (hk.trans_eq hhalf.symm)

/-! ### How high -/

/-- What the bins of the band weigh. -/
noncomputable def bandWeight (options : PhatOptions ℝ) (m : ℕ) : ℝ :=
  ∑ k ∈ Finset.range (m / 2 + 1), if inBand options m k then halfWeight (m / 2) k else 0

theorem halfWeight_pos (m k : ℕ) : 0 < halfWeight m k := by
  rw [halfWeight]
  split_ifs
  · exact one_pos
  · exact two_pos

section

variable (options : PhatOptions ℝ)

/-- What the largest of the magnitudes is. -/
theorem phatFloor_eq (m : ℕ) (x y : ℕ → Cplx ℝ) : ∃ maxAbsG,
    phatFloor realDelay options m x y = options.regularisation * maxAbsG ∧
    IsGreatest {v | v = 0 ∨ ∃ k ∈ bandBins options m, v = magG realDelay options m x y k} maxAbsG :=
  ⟨_, rfl, isGreatest_foldl_max _ _ _⟩

theorem norm_weightedBin_le (x y : ℕ → Cplx ℝ) {k : ℕ} (hk : k ≤ m / 2) :
    ‖toComplex (weightedBin realDelay options m x y k)‖ ≤
      if inBand options m k then 1 / max 1 options.regularisation else 0 := by
  have hlimit : 0 < max 1 options.regularisation := lt_max_of_lt_left one_pos
  rw [weightedBin]
  by_cases hmag : magG realDelay options m x y k ≤ 0
  · rw [if_pos hmag, map_zero, norm_zero]
    split_ifs
    · positivity
    · exact le_rfl
  · have hband : inBand options m k = true := by
      by_contra hband
      rw [magG, if_neg hband] at hmag
      exact hmag le_rfl
    have hpos := not_le.mp hmag
    rw [if_neg hmag, if_pos hband]
    obtain ⟨maxAbsG, hfloor, hgreatest⟩ := phatFloor_eq options m x y
    have hmax : magG realDelay options m x y k ≤ maxAbsG :=
      hgreatest.2 (.inr ⟨k, mem_bandBins.mpr ⟨hk, hband⟩, rfl⟩)
    have hdenom : max 1 options.regularisation * magG realDelay options m x y k ≤
        max (magG realDelay options m x y k) (phatFloor realDelay options m x y) := by
      rw [max_mul_of_nonneg _ _ hpos.le, one_mul]
      refine max_le (le_max_left _ _) ?_
      obtain hreg | hreg := le_total 0 options.regularisation
      · exact (mul_le_mul_of_nonneg_left hmax hreg).trans (hfloor.ge.trans (le_max_right _ _))
      · exact (mul_nonpos_of_nonpos_of_nonneg hreg hpos.le).trans
          (hpos.le.trans (le_max_left _ _))
    have hdenomPos := hpos.trans_le
      (le_max_left _ (phatFloor realDelay options m x y))
    dsimp only
    rw [toComplex_smul, norm_mul, Complex.norm_real, ← magG_eq_norm,
      Real.norm_of_nonneg (one_div_nonneg.mpr hdenomPos.le), one_div_mul_eq_div,
      div_le_div_iff₀ hdenomPos hlimit, one_mul, mul_comm]
    exact hdenom

/-- **Headline.** No sample of the correlation is higher than the bins of the band weigh. -/
theorem abs_phat_le {p : ℕ} (hp : p < 2 ^ (levels + 1)) (options : PhatOptions ℝ)
    (reference measurement : List ℝ) :
    |realFftInverse realTrig (2 ^ (levels + 1))
        (phatBins options (2 ^ (levels + 1)) reference measurement) p| ≤
      bandWeight options (2 ^ (levels + 1)) /
        ((2 ^ (levels + 1) : ℕ) * max 1 options.regularisation) := by
  have hhalf : 2 ^ (levels + 1) / 2 = 2 ^ levels := Fft.two_pow_half _
  have hterm : ∀ k ∈ Finset.range (2 ^ levels + 1),
      halfWeight (2 ^ levels) k *
        ‖toComplex (phatBins options (2 ^ (levels + 1)) reference measurement k)‖ ≤
      (if inBand options (2 ^ (levels + 1)) k then halfWeight (2 ^ levels) k else 0) *
        (1 / max 1 options.regularisation) := by
    intro k hk
    have hle : k ≤ 2 ^ (levels + 1) / 2 :=
      (Nat.lt_succ_iff.mp (Finset.mem_range.mp hk)).trans_eq hhalf.symm
    have hbin := mul_le_mul_of_nonneg_left
      (norm_weightedBin_le options (spanBins (2 ^ (levels + 1)) reference)
        (spanBins (2 ^ (levels + 1)) measurement) hle) (halfWeight_pos (2 ^ levels) k).le
    refine hbin.trans_eq ?_
    split_ifs <;> ring
  refine (abs_realFftInverse_le hp _).trans ?_
  refine (mul_le_mul_of_nonneg_left (Finset.sum_le_sum hterm) (by positivity)).trans_eq ?_
  rw [← Finset.sum_mul, bandWeight, hhalf]
  field_simp

/-! ### Two impulses -/

/-- A span of `n` samples with a one at `a`. -/
def impulse (n a : ℕ) : List ℝ := (List.range n).map fun (i : ℕ) => if i = a then 1 else 0

theorem length_impulse (n a : ℕ) : (impulse n a).length = n := by
  rw [impulse, List.length_map, List.length_range]

theorem getD_impulse {n a : ℕ} (ha : a < n) (i : ℕ) :
    (impulse n a).getD i 0 = if i = a then 1 else 0 := by
  by_cases hi : i < n
  · rw [List.getD_eq_getElem _ _ (hi.trans_eq (length_impulse n a).symm)]
    simp [impulse]
  · rw [List.getD_eq_default _ _ ((length_impulse n a).trans_le (not_lt.mp hi)), if_neg (by omega)]

theorem toComplex_spanBins_impulse {n a k : ℕ} (ha : a < n) (hn : n ≤ 2 ^ (levels + 1))
    (hk : k ≤ 2 ^ levels) :
    toComplex (spanBins (2 ^ (levels + 1)) (impulse n a) k) =
      Complex.exp (-(2 * Real.pi * Complex.I * (k * a : ℕ)) / (2 ^ (levels + 1) : ℕ)) := by
  rw [toComplex_spanBins hk, Finset.sum_eq_single a]
  · rw [getD_impulse ha, if_pos rfl, Complex.ofReal_one, one_mul]
  · intro i _ hne
    rw [getD_impulse ha, if_neg hne, Complex.ofReal_zero, zero_mul]
  · exact fun hmem => absurd (Finset.mem_range.mpr (ha.trans_le hn)) hmem

/-- The place where two impulses meet. -/
theorem toComplex_cross_impulses {n a b k p : ℕ} (ha : a < n) (hb : b < n)
    (hn : n ≤ 2 ^ (levels + 1)) (hk : k ≤ 2 ^ levels) (hmeet : (p + a) % 2 ^ (levels + 1) = b) :
    toComplex (star (spanBins (2 ^ (levels + 1)) (impulse n a) k) *
        spanBins (2 ^ (levels + 1)) (impulse n b) k) =
      Complex.exp (-((2 * Real.pi * k * p / (2 ^ (levels + 1) : ℕ) : ℝ) * Complex.I)) := by
  set N := 2 ^ (levels + 1) with hN
  have hpos : (N : ℂ) ≠ 0 := Nat.cast_ne_zero.mpr (Nat.two_pow_pos _).ne'
  have hplace : ((p + a : ℕ) : ℂ) = N * ((p + a) / N : ℕ) + b := by
    conv_lhs => rw [← Nat.div_add_mod (p + a) N, hmeet]
    push_cast
    ring
  -- the turn from one impulse to the other, up to whole turns
  have hturn : (starRingEnd ℂ) (-(2 * Real.pi * Complex.I * (k * a : ℕ)) / N) +
      -(2 * Real.pi * Complex.I * (k * b : ℕ)) / N =
      -((2 * Real.pi * k * p / (N : ℕ) : ℝ) * Complex.I) +
        (k * ((p + a) / N) : ℕ) * (2 * Real.pi * Complex.I) := by
    have hb' : (b : ℂ) = p + a - N * ((p + a) / N : ℕ) := by
      rw [eq_sub_iff_add_eq, add_comm, ← hplace]
      push_cast
      ring
    simp only [map_div₀, map_neg, map_mul, Complex.conj_I, Complex.conj_ofReal, map_natCast,
      map_ofNat]
    push_cast
    rw [hb']
    field_simp
    push_cast
    ring
  rw [map_mul, toComplex_star, toComplex_spanBins_impulse ha hn hk, toComplex_spanBins_impulse hb hn hk,
    ← Complex.exp_conj, ← Complex.exp_add, hturn, Complex.exp_add, Complex.exp_nat_mul_two_pi_mul_I,
    mul_one]

/-- Two impulses are as high as a correlation can be, where they meet. -/
theorem phat_impulses {n a b p : ℕ} (ha : a < n) (hb : b < n)
    (hn : n ≤ 2 ^ (levels + 1)) (hp : p < 2 ^ (levels + 1)) (hmeet : (p + a) % 2 ^ (levels + 1) = b) :
    realFftInverse realTrig (2 ^ (levels + 1))
        (phatBins options (2 ^ (levels + 1)) (impulse n a) (impulse n b)) p =
      bandWeight options (2 ^ (levels + 1)) /
        ((2 ^ (levels + 1) : ℕ) * max 1 options.regularisation) := by
  have hhalf : 2 ^ (levels + 1) / 2 = 2 ^ levels := Fft.two_pow_half _
  have hcross : ∀ k ≤ 2 ^ levels, inBand options (2 ^ (levels + 1)) k = true →
      toComplex (crossBin options (2 ^ (levels + 1)) (spanBins (2 ^ (levels + 1)) (impulse n a))
        (spanBins (2 ^ (levels + 1)) (impulse n b)) k) =
      Complex.exp (-((2 * Real.pi * k * p / (2 ^ (levels + 1) : ℕ) : ℝ) * Complex.I)) := by
    intro k hk hband
    rw [crossBin, if_pos hband]
    exact toComplex_cross_impulses ha hb hn hk hmeet
  have hmag : ∀ k ≤ 2 ^ levels, inBand options (2 ^ (levels + 1)) k = true →
      magG realDelay options (2 ^ (levels + 1)) (spanBins (2 ^ (levels + 1)) (impulse n a))
        (spanBins (2 ^ (levels + 1)) (impulse n b)) k = 1 := by
    intro k hk hband
    rw [magG_eq_norm, hcross k hk hband, ← neg_mul, ← Complex.ofReal_neg,
      Complex.norm_exp_ofReal_mul_I]
  have hfloor : ∀ k ≤ 2 ^ levels, inBand options (2 ^ (levels + 1)) k = true →
      phatFloor realDelay options (2 ^ (levels + 1)) (spanBins (2 ^ (levels + 1)) (impulse n a))
        (spanBins (2 ^ (levels + 1)) (impulse n b)) = options.regularisation := by
    intro k hk hband
    obtain ⟨maxAbsG, hfloor, hmem, hbound⟩ := phatFloor_eq options (2 ^ (levels + 1))
      (spanBins (2 ^ (levels + 1)) (impulse n a)) (spanBins (2 ^ (levels + 1)) (impulse n b))
    have hone : 1 ≤ maxAbsG :=
      hbound (.inr ⟨k, mem_bandBins.mpr ⟨hk.trans_eq hhalf.symm, hband⟩, (hmag k hk hband).symm⟩)
    obtain hzero | ⟨j, hj, heq⟩ := hmem
    · linarith
    · obtain ⟨hle, hin⟩ := mem_bandBins.mp hj
      rw [hfloor, heq, hmag j (hle.trans_eq hhalf) hin, mul_one]
  have hturned : ∀ k ∈ Finset.range (2 ^ levels + 1), halfWeight (2 ^ levels) k *
      turned (phatBins options (2 ^ (levels + 1)) (impulse n a) (impulse n b) k)
        (2 * Real.pi * k * p / (2 ^ (levels + 1) : ℕ)) =
      (if inBand options (2 ^ (levels + 1)) k then halfWeight (2 ^ levels) k else 0) *
        (1 / max 1 options.regularisation) := by
    intro k hk
    have hle := Nat.lt_succ_iff.mp (Finset.mem_range.mp hk)
    rw [phatBins, weightedBin, ← toComplex_mul_exp_re]
    by_cases hband : inBand options (2 ^ (levels + 1)) k = true
    · rw [hmag k hle hband, if_neg (not_le.mpr one_pos), if_pos hband]
      dsimp only
      rw [hfloor k hle hband, toComplex_smul, hcross k hle hband, mul_assoc, ← Complex.exp_add,
        neg_add_cancel, Complex.exp_zero, mul_one, Complex.ofReal_re]
    · rw [magG, if_neg hband, if_pos le_rfl, if_neg hband]
      simp
  rw [realFftInverse_eq_sum_halfWeight hp, Finset.sum_congr rfl hturned, ← Finset.sum_mul,
    bandWeight, hhalf]
  field_simp

/-! ### Nothing to see -/

theorem weightedBin_eq_zero_iff (m : ℕ) (x y : ℕ → Cplx ℝ) (k : ℕ) :
    weightedBin realDelay options m x y k = 0 ↔ crossBin options m x y k = 0 := by
  have hnorm : magG realDelay options m x y k ≤ 0 ↔ crossBin options m x y k = 0 := by
    rw [magG_eq_norm, norm_le_zero_iff, map_eq_zero_iff _ toComplex_injective]
  rw [weightedBin]
  by_cases hmag : magG realDelay options m x y k ≤ 0
  · rw [if_pos hmag]
    exact iff_of_true rfl (hnorm.mp hmag)
  · have hdenom := (not_le.mp hmag).trans_le (le_max_left _ (phatFloor realDelay options m x y))
    rw [if_neg hmag]
    exact smul_eq_zero_iff_right (one_div_ne_zero hdenom.ne')

end

theorem weightedBin_im {k : ℕ} (hx : (x k).im = 0) (hy : (y k).im = 0) :
    (weightedBin realDelay options m x y k).im = 0 := by
  have hcross : (crossBin options m x y k).im = 0 := by
    rw [crossBin]
    split_ifs
    · simp [hx, hy]
    · rfl
  rw [weightedBin]
  split_ifs
  · rfl
  · dsimp only
    rw [QuadraticAlgebra.im_smul, hcross, smul_zero]

/-- Without a bin that both sides have, in the band, there is nothing to see; and otherwise there
is. -/
theorem phat_eq_zero_iff (options : PhatOptions ℝ) (levels : ℕ) (reference measurement : List ℝ) :
    (∀ p < 2 ^ (levels + 1), realFftInverse realTrig (2 ^ (levels + 1))
      (phatBins options (2 ^ (levels + 1)) reference measurement) p = 0) ↔
    ∀ k ∈ bandBins options (2 ^ (levels + 1)), spanBins (2 ^ (levels + 1)) reference k = 0 ∨
      spanBins (2 ^ (levels + 1)) measurement k = 0 := by
  have hhalf : 2 ^ (levels + 1) / 2 = 2 ^ levels := Fft.two_pow_half _
  have hpos := Nat.two_pow_pos levels
  constructor
  · intro hflat k hk
    obtain ⟨hle, hband⟩ := mem_bandBins.mp hk
    rw [hhalf] at hle
    have hlt : k < 2 ^ (levels + 1) := by
      rw [pow_succ]
      omega
    have hzero : hermitian (2 ^ levels)
        (phatBins options (2 ^ (levels + 1)) reference measurement) k = 0 := by
      rw [hermitian_eq_dft hlt]
      refine Finset.sum_eq_zero fun n hn => ?_
      dsimp only
      rw [hflat n (Finset.mem_range.mp hn)]
      exact zero_mul _
    have hbin : phatBins options (2 ^ (levels + 1)) reference measurement k = 0 := by
      by_cases hend : k = 0 ∨ k = 2 ^ levels
      · -- an end bin is real, and the real part is what is transformed
        have hre : (phatBins options (2 ^ (levels + 1)) reference measurement k).re = 0 := by
          obtain rfl | rfl := hend
          · exact congrArg QuadraticAlgebra.re ((hermitian_zero _ _).symm.trans hzero)
          · exact congrArg QuadraticAlgebra.re ((hermitian_self hpos _).symm.trans hzero)
        exact QuadraticAlgebra.ext hre (weightedBin_im (spanBins_end_im hend reference)
          (spanBins_end_im hend measurement))
      · rwa [hermitian_of_lt (by omega) (by omega)] at hzero
    rw [phatBins, weightedBin_eq_zero_iff, crossBin, if_pos hband,
      ← map_eq_zero_iff _ toComplex_injective, map_mul, mul_eq_zero,
      map_eq_zero_iff _ toComplex_injective, map_eq_zero_iff _ toComplex_injective,
      star_eq_zero] at hbin
    exact hbin
  · intro hnone p hp
    have hbin : ∀ k ≤ 2 ^ levels,
        phatBins options (2 ^ (levels + 1)) reference measurement k = 0 := by
      intro k hk
      rw [phatBins, weightedBin_eq_zero_iff, crossBin]
      split_ifs with hband
      · obtain hx | hy := hnone k (mem_bandBins.mpr ⟨hk.trans_eq hhalf.symm, hband⟩)
        · rw [hx, star_zero, zero_mul]
        · rw [hy, mul_zero]
      · rfl
    rw [realFftInverse_eq_sum_halfWeight hp]
    refine mul_eq_zero_of_right _ (Finset.sum_eq_zero fun k hk => ?_)
    rw [hbin k (Nat.lt_succ_iff.mp (Finset.mem_range.mp hk)), turned]
    simp

end Dsp

end RtaTool
