import RtaTool.Dsp.PhatHeights

/-!
# The residual delay

`ResidualTracker.cpp`. The averaged cross spectrum, turned into unit phasors and weighted by the
coherence, is transformed back, and the largest sample is the peak. The mean of the coherence counts
every bin of the half spectrum once, and the transform counts those between the ends twice; so the
mean bounds the peak when the ends have their share.

## Main definitions

* `DelayTrack`, `ResidualDelayTracker`
* `ResidualDelayTracker.update`
* `attainablePeak` -- how high a peak can be

## Main results

* `update_peak` -- **Headline.** When the mean of the coherence bounds the peak
-/

namespace RtaTool

namespace Dsp

/-- `DelayTrack`. -/
structure DelayTrack (K : Type*) where
  residualSamples : ℤ
  subSample : K
  peak : K
  meanCoherence : K
  inverted : Bool

/-- `ResidualDelayTracker`, without its scratch. -/
structure ResidualDelayTracker (K : Type*) [CommRing K] where
  fft : RealFftTables K

namespace ResidualDelayTracker

universe u

variable {K : Type u} [Field K] [LinearOrder K] (math : DelayMath K)

/-- `ResidualDelayTracker::ResidualDelayTracker`. -/
def make (fftSize : ℕ) : Except String (ResidualDelayTracker K) := do
  let fft ← RealFftTables.make math.trig fftSize
  return { fft }

/-- `weighted_[k]`. -/
def weighted (sxy : List (Cplx K)) (coherence : List K) (k : ℕ) : Cplx K :=
  let gamma2 := coherence.getD k 0
  let magSxy := cplxAbs math.sqrt (sxy.getD k 0)
  if magSxy ≤ 0 then 0
  else
    let scale := gamma2 / magSxy
    ⟨(sxy.getD k 0).re * scale, (sxy.getD k 0).im * scale⟩

/-- `meanCoherence`. -/
def meanCoherence (coherence : List K) (numBins : ℕ) : K :=
  let coherenceSum := (List.range numBins).foldl (fun sum k => sum + coherence.getD k 0) 0
  if 0 < numBins then coherenceSum / numBins else 0

/-- `ResidualDelayTracker::update(engine, snapshot)`, of an engine with the averages `sxy`. -/
def update (tracker : ResidualDelayTracker K) (sxy : List (Cplx K)) (snapshot : TransferSnapshot K) :
    Except String (Option (DelayTrack K)) :=
  match snapshot.coherence with
  | none => .ok none
  | some coherence =>
    let numBins := tracker.fft.numBins
    if sxy.length ≠ numBins ∨ coherence.length ≠ numBins then
      .error ("ResidualDelayTracker::update: engine/snapshot bin count does not match " ++
        "the fftSize this tracker was constructed for")
    else do
      let correlation ← tracker.fft.inverse numBins (weighted math sxy coherence) tracker.fft.size
      let peak := pickBestPeak correlation tracker.fft.size
      return some
        { residualSamples := peak.lag
          subSample := peak.subSample
          peak := |peak.height|
          meanCoherence := meanCoherence coherence numBins
          inverted := peak.height < 0 }

/-! ### The weights -/

/-- Of a cross spectrum that is there in the bins of `support`, the highest peak. -/
noncomputable def attainablePeak (support : ℕ → Bool) (coherence : List ℝ) (size : ℕ) : ℝ :=
  1 / (size : ℕ) * ∑ k ∈ Finset.range (size / 2 + 1),
    if support k then halfWeight (size / 2) k * coherence.getD k 0 else 0

theorem meanCoherence_eq (coherence : List ℝ) (numBins : ℕ) :
    meanCoherence coherence numBins =
      (∑ k ∈ Finset.range numBins, coherence.getD k 0) / numBins := by
  have hsum : (List.range numBins).foldl (fun sum k => sum + coherence.getD k 0) 0 =
      ∑ k ∈ Finset.range numBins, coherence.getD k 0 := by
    induction numBins with
    | zero => rfl
    | succ n ih =>
      rw [List.range_succ, List.foldl_append, ih, Finset.sum_range_succ]
      rfl
  rw [meanCoherence, hsum]
  split_ifs with hpos
  · rfl
  · rw [Nat.eq_zero_of_not_pos hpos, Nat.cast_zero, div_zero]

variable {sxy : List (Cplx ℝ)} {coherence : List ℝ}

theorem getD_nonneg (hcoherence : ∀ g ∈ coherence, 0 ≤ g) (k : ℕ) : 0 ≤ coherence.getD k 0 := by
  by_cases hk : k < coherence.length
  · rw [List.getD_eq_getElem _ _ hk]
    exact hcoherence _ (List.getElem_mem hk)
  · rw [List.getD_eq_default _ _ (not_lt.mp hk)]

theorem norm_weighted (hcoherence : ∀ g ∈ coherence, 0 ≤ g) (k : ℕ) :
    ‖toComplex (weighted realDelay sxy coherence k)‖ =
      if sxy.getD k 0 = 0 then 0 else coherence.getD k 0 := by
  have hgamma := getD_nonneg hcoherence k
  have hmag : cplxAbs realDelay.sqrt (sxy.getD k 0) = ‖toComplex (sxy.getD k 0)‖ :=
    cplxAbs_eq_norm _
  have hzero : ‖toComplex (sxy.getD k 0)‖ ≤ 0 ↔ sxy.getD k 0 = 0 := by
    rw [norm_le_zero_iff, map_eq_zero_iff _ toComplex_injective]
  rw [weighted, hmag]
  by_cases hsxy : sxy.getD k 0 = 0
  · rw [if_pos (hzero.mpr hsxy), if_pos hsxy, map_zero, norm_zero]
  · have hpos := not_le.mp (mt hzero.mp hsxy)
    have hsmul : (⟨(sxy.getD k 0).re * (coherence.getD k 0 / ‖toComplex (sxy.getD k 0)‖),
        (sxy.getD k 0).im * (coherence.getD k 0 / ‖toComplex (sxy.getD k 0)‖)⟩ : Cplx ℝ) =
        (coherence.getD k 0 / ‖toComplex (sxy.getD k 0)‖) • sxy.getD k 0 := by
      apply QuadraticAlgebra.ext <;> simp [mul_comm]
    rw [if_neg (mt hzero.mp hsxy), if_neg hsxy]
    dsimp only
    rw [hsmul, toComplex_smul, norm_mul, Complex.norm_real,
      Real.norm_of_nonneg (div_nonneg hgamma hpos.le), div_mul_cancel₀ _ hpos.ne']

theorem weighted_of_one {k : ℕ} (hsxy : sxy.getD k 0 = ofReal 1) :
    weighted realDelay sxy coherence k = ofReal (coherence.getD k 0) := by
  have hmag : cplxAbs realDelay.sqrt (ofReal 1) = 1 := by
    rw [show realDelay.sqrt = Real.sqrt from rfl, cplxAbs_eq_norm, toComplex_ofReal,
      Complex.ofReal_one, norm_one]
  rw [weighted, hsxy, hmag, if_neg (not_le.mpr one_pos)]
  apply QuadraticAlgebra.ext <;> simp [ofReal]

theorem weighted_of_zero {k : ℕ} (hsxy : sxy.getD k 0 = 0) :
    weighted realDelay sxy coherence k = 0 := by
  have hmag : cplxAbs realDelay.sqrt (0 : Cplx ℝ) = 0 := by
    rw [show realDelay.sqrt = Real.sqrt from rfl, cplxAbs_eq_norm, map_zero, norm_zero]
  rw [weighted, hsxy, hmag, if_pos le_rfl]

/-! ### The peak -/

variable {size : ℕ} {tracker : ResidualDelayTracker ℝ} {snapshot : TransferSnapshot ℝ}

/-- The sizes are those of the transform. -/
theorem size_eq (hmake : make realDelay size = .ok tracker) : ∃ levels, size = 2 ^ (levels + 2) := by
  obtain ⟨fft, hfft, -⟩ := DualFftEngine.ok_of_bind hmake
  obtain ⟨levels, -, hsize, -⟩ := RealFftTables.make_eq_ok.mp hfft
  exact ⟨levels, hsize⟩

section

variable (hmake : make realDelay size = .ok tracker)
  (hsnapshot : snapshot.coherence = some coherence) (hsxy : sxy.length = size / 2 + 1)
  (hlength : coherence.length = size / 2 + 1)

include hmake hsnapshot hsxy hlength

/-- What is answered behind an open gate. -/
theorem update_eq : ∃ correlation, update realDelay tracker sxy snapshot = .ok (some
      { residualSamples := (pickBestPeak correlation size).lag
        subSample := (pickBestPeak correlation size).subSample
        peak := |(pickBestPeak correlation size).height|
        meanCoherence := meanCoherence coherence (size / 2 + 1)
        inverted := (pickBestPeak correlation size).height < 0 }) ∧
    ∀ p < size, correlation p =
      realFftInverse realTrig size (weighted realDelay sxy coherence) p := by
  obtain ⟨fft, hfft, htracker⟩ := DualFftEngine.ok_of_bind hmake
  obtain rfl := Except.ok.inj htracker
  obtain ⟨levels, half, -, -, rfl⟩ := RealFftTables.make_eq_ok.mp hfft
  obtain ⟨correlation, hinverse, hsamples⟩ := RealFftTables.inverse_eq trigRoots_real hfft
    (weighted realDelay sxy coherence)
  refine ⟨correlation, ?_, hsamples⟩
  rw [update.eq_def, hsnapshot]
  simp only [RealFftTables.numBins, hsxy, hlength, ne_eq, not_true_eq_false, or_self, if_false,
    hinverse, bind, Except.bind]
  rfl

omit hmake hsnapshot hsxy hlength in
/-- The largest sample, of those that are scanned. -/
theorem pickBestPeak_isGreatest (correlation : ℕ → ℝ) (hsize : 0 < size) :
    IsGreatest {v | ∃ i < size, v = |correlation i|} |(pickBestPeak correlation size).height| := by
  obtain ⟨i, hi, hfirst, hbest⟩ := pickBestPeak_eq correlation hsize
  rw [hbest]
  refine ⟨⟨i, hi, rfl⟩, ?_⟩
  rintro v ⟨j, hj, rfl⟩
  exact (mem_of_firstMax hfirst).2 j (List.mem_range.mpr hj)

variable {support : ℕ → Bool}

/-- A cross spectrum without phase reaches the bound, at the lag zero. -/
theorem attainablePeak_le
    (hbin : ∀ k ≤ size / 2, sxy.getD k 0 = if support k then ofReal 1 else 0) :
    ∃ track, update realDelay tracker sxy snapshot = .ok (some track) ∧
      track.meanCoherence =
        (∑ k ∈ Finset.range (size / 2 + 1), coherence.getD k 0) / (size / 2 + 1 : ℕ) ∧
      attainablePeak support coherence size ≤ track.peak := by
  obtain ⟨levels, hsize⟩ := size_eq hmake
  have hhalf : size / 2 = 2 ^ (levels + 1) := by rw [hsize, Fft.two_pow_half]
  have hpos : 0 < size := hsize ▸ Nat.two_pow_pos _
  obtain ⟨correlation, hupdate, hsamples⟩ := update_eq hmake hsnapshot hsxy hlength
  refine ⟨_, hupdate, meanCoherence_eq coherence (size / 2 + 1), ?_⟩
  have hzero := (pickBestPeak_isGreatest correlation hpos).2 ⟨0, hpos, rfl⟩
  refine le_trans ((le_abs_self _).trans_eq' ?_) hzero
  have hturned : ∀ k ∈ Finset.range (2 ^ (levels + 1) + 1), halfWeight (2 ^ (levels + 1)) k *
      turned (weighted realDelay sxy coherence k)
        (2 * Real.pi * k * (0 : ℕ) / (2 ^ (levels + 2) : ℕ)) =
      if support k then halfWeight (2 ^ (levels + 1)) k * coherence.getD k 0 else 0 := by
    intro k hk
    have hbin := hbin k ((Nat.lt_succ_iff.mp (Finset.mem_range.mp hk)).trans_eq hhalf.symm)
    split_ifs at hbin ⊢ with hsupport
    · rw [weighted_of_one hbin]
      simp [turned, ofReal]
    · rw [weighted_of_zero hbin]
      simp [turned]
  rw [hsamples 0 hpos, attainablePeak, hhalf]
  rw [hsize] at hpos ⊢
  rw [realFftInverse_eq_sum_halfWeight hpos]
  exact congrArg _ (Finset.sum_congr rfl hturned)

theorem peak_le_attainablePeak (hcoherence : ∀ g ∈ coherence, 0 ≤ g)
    (hsupport : ∀ k ≤ size / 2, support k = true ↔ sxy.getD k 0 ≠ 0) :
    ∃ track, update realDelay tracker sxy snapshot = .ok (some track) ∧
      track.meanCoherence =
        (∑ k ∈ Finset.range (size / 2 + 1), coherence.getD k 0) / (size / 2 + 1 : ℕ) ∧
      0 ≤ track.peak ∧ track.peak ≤ attainablePeak support coherence size := by
  obtain ⟨levels, hsize⟩ := size_eq hmake
  have hhalf : size / 2 = 2 ^ (levels + 1) := by rw [hsize, Fft.two_pow_half]
  have hpos : 0 < size := hsize ▸ Nat.two_pow_pos _
  obtain ⟨correlation, hupdate, hsamples⟩ := update_eq hmake hsnapshot hsxy hlength
  refine ⟨_, hupdate, meanCoherence_eq coherence (size / 2 + 1), abs_nonneg _, ?_⟩
  obtain ⟨⟨p, hp, hpeak⟩, -⟩ := pickBestPeak_isGreatest correlation hpos
  dsimp only
  rw [hpeak, hsamples p hp, attainablePeak, hhalf]
  rw [hsize] at hp ⊢
  refine (abs_realFftInverse_le hp _).trans_eq ?_
  congr 1
  refine Finset.sum_congr rfl fun k hk => ?_
  have hle := (Nat.lt_succ_iff.mp (Finset.mem_range.mp hk)).trans_eq hhalf.symm
  rw [norm_weighted hcoherence]
  by_cases hbin : sxy.getD k 0 = 0
  · rw [if_pos hbin, mul_zero, if_neg fun hk => (hsupport k hle).mp hk hbin]
  · rw [if_neg hbin, if_pos ((hsupport k hle).mpr hbin)]

end

/-- **Headline.** Of all averaged cross spectra that are there in the same bins, with the same
coherence, there is a reading, and in every one of them the peak is bounded by the mean of the
coherence exactly when the bins, counted as the transform counts them, have no more of it than the
mean. -/
theorem update_peak (size : ℕ) (tracker : ResidualDelayTracker ℝ) (snapshot : TransferSnapshot ℝ)
    (coherence : List ℝ) (support : ℕ → Bool) (hmake : make realDelay size = .ok tracker)
    (hsnapshot : snapshot.coherence = some coherence) (hlength : coherence.length = size / 2 + 1)
    (hcoherence : ∀ g ∈ coherence, 0 ≤ g ∧ g ≤ 1) :
    (∀ sxy : List (Cplx ℝ), sxy.length = size / 2 + 1 →
      (∀ k ≤ size / 2, support k = true ↔ sxy.getD k 0 ≠ 0) →
      ∃ track, update realDelay tracker sxy snapshot = .ok (some track) ∧
        track.meanCoherence =
          (∑ k ∈ Finset.range (size / 2 + 1), coherence.getD k 0) / (size / 2 + 1 : ℕ) ∧
        0 ≤ track.peak ∧ track.peak ≤ track.meanCoherence) ↔
    attainablePeak support coherence size ≤
      (∑ k ∈ Finset.range (size / 2 + 1), coherence.getD k 0) / (size / 2 + 1 : ℕ) := by
  constructor
  · intro hall
    let sxy : List (Cplx ℝ) := (List.range (size / 2 + 1)).map fun (k : ℕ) =>
      if support k then ofReal 1 else 0
    have hsxy : sxy.length = size / 2 + 1 := by simp [sxy]
    have hone : ofReal (1 : ℝ) ≠ 0 := fun h => one_ne_zero (congrArg QuadraticAlgebra.re h)
    have hbin : ∀ k ≤ size / 2, sxy.getD k 0 = if support k then ofReal 1 else 0 := by
      intro k hk
      have hlt : k < sxy.length := by simpa [sxy] using Nat.lt_succ_of_le hk
      rw [List.getD_eq_getElem _ _ hlt]
      simp [sxy]
    obtain ⟨track, hupdate, hmean, -, hle⟩ := hall sxy hsxy fun k hk => by
      rw [hbin k hk]
      split_ifs with hsupport
      · exact iff_of_true hsupport hone
      · exact iff_of_false hsupport (not_not_intro rfl)
    obtain ⟨track', hupdate', -, hreached⟩ :=
      attainablePeak_le hmake hsnapshot hsxy hlength hbin
    obtain rfl := Option.some.inj (Except.ok.inj (hupdate.symm.trans hupdate'))
    exact hreached.trans (hle.trans_eq hmean)
  · intro hcovers sxy hsxy hsupport
    obtain ⟨track, hupdate, hmean, hnonneg, hle⟩ := peak_le_attainablePeak hmake hsnapshot hsxy
      hlength (fun g hg => (hcoherence g hg).1) hsupport
    exact ⟨track, hupdate, hmean, hnonneg, (hle.trans hcovers).trans_eq hmean.symm⟩

/-- A snapshot with a coherence of three bins. -/
def snapshotOf (coherence : List ℝ) : TransferSnapshot ℝ :=
  { sampleRate := 48000, binWidthHz := 12000, h := [0, 0, 0], coherence := some coherence }

theorem make_four : ∃ tracker, make realDelay 4 = .ok tracker := by
  obtain ⟨half, hmake⟩ := RealFftTables.exists_make realTrig 0
  have hmake : RealFftTables.make realDelay.trig 4 = _ := hmake
  exact ⟨_, by rw [make, hmake]; rfl⟩

theorem update_peak_uniform : ∃ tracker track, make realDelay 4 = .ok tracker ∧
    update realDelay tracker [1, 1, 1] (snapshotOf [1, 1, 1]) = .ok (some track) ∧
    track.peak ≤ track.meanCoherence := by
  obtain ⟨tracker, hmake⟩ := make_four
  have hcovers : attainablePeak (fun _ => true) [1, 1, 1] 4 ≤
      (∑ k ∈ Finset.range (4 / 2 + 1), ([1, 1, 1] : List ℝ).getD k 0) / (4 / 2 + 1 : ℕ) := by
    norm_num [attainablePeak, halfWeight, Finset.sum_range_succ]
  obtain ⟨track, hupdate, -, -, hle⟩ := (update_peak 4 tracker (snapshotOf [1, 1, 1]) [1, 1, 1]
    (fun _ => true) hmake rfl rfl (by simp)).mpr hcovers [1, 1, 1] rfl (by
      intro k hk
      interval_cases k <;> simp)
  exact ⟨tracker, track, hmake, hupdate, hle⟩

/-- A coherence of one between the ends and of zero at them: the peak is a half, and the mean a
third. -/
theorem update_peak_exceeds : ∃ tracker track, make realDelay 4 = .ok tracker ∧
    update realDelay tracker [0, ofReal 1, 0] (snapshotOf [0, 1, 0]) = .ok (some track) ∧
    track.meanCoherence = 1 / 3 ∧ 1 / 2 ≤ track.peak := by
  obtain ⟨tracker, hmake⟩ := make_four
  obtain ⟨track, hupdate, hmean, hpeak⟩ := @attainablePeak_le [0, ofReal 1, 0] [0, 1, 0] 4 tracker
    (snapshotOf [0, 1, 0]) hmake rfl rfl rfl (fun k => k == 1) (by
      intro k hk
      interval_cases k <;> simp)
  refine ⟨tracker, track, hmake, hupdate, ?_, hpeak.trans' ?_⟩
  · rw [hmean]
    norm_num [Finset.sum_range_succ]
  · norm_num [attainablePeak, halfWeight, Finset.sum_range_succ]

end ResidualDelayTracker

end Dsp

end RtaTool
