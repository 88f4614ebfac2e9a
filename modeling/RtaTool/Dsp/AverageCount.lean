import RtaTool.Dsp.TransferAverages

/-!
# How many averages there are

Overlapping frames share samples, so they are not as many averages as they are frames. How much two
of them share is the correlation of the window with itself, at a lag of some hops; the count of a
FIFO divides by what the correlations add up to, and that of an exponential average by the same for
frames without end.

An exponential average weighs its frames unequally. Its count starts from Kish's effective size of
the weights, in closed form; the weights themselves are what the recursion of the engine makes of
the frames, which is read off its answers to unit sequences here.

## Main definitions

* `overlapCorrelation`, `fifoEffectiveAverages`, `exponentialEffectiveAverages`
* `exponentialMeans`, `appliedWeight` -- what the recursion of the engine does

## Main results

* `overlapCorrelation_sq_le` -- Cauchy-Schwarz
* `fifoEffectiveAverages_mem`
* `effectiveAverages_spec` -- **Headline.** Both counts, and the weights of the second
-/

namespace RtaTool

namespace Dsp

variable {K : Type} [Field K] [LinearOrder K]

/-! ### The counts -/

/-- `overlapCorrelation(window, lag)`. -/
def overlapCorrelation (window : List K) (lag : ℕ) : K :=
  if lag = 0 then 1
  else if window.length ≤ lag then 0
  else if sumSquares window ≤ 0 then 0
  else
    (∑ n ∈ Finset.range (window.length - lag), window.getD n 0 * window.getD (n + lag) 0) /
      sumSquares window

/-- The turns of a loop over the lags `m * hop` below the window's length, while `more` holds of
`m`. There is no turn from `m = size` on. -/
def overlapTurns (size hop : ℕ) (more : ℕ → Bool) : List ℕ :=
  (List.range' 1 size).takeWhile fun m => decide (m * hop < size) && more m

/-- `fifoEffectiveAverages(window, hop, frames)`. -/
def fifoEffectiveAverages (window : List K) (hop frames : ℕ) : K :=
  if frames = 0 then 0
  else if hop = 0 then 1
  else
    let k : K := frames
    let sum := ((overlapTurns window.length hop fun m => decide (m < frames)).map fun m =>
      let c := overlapCorrelation window (m * hop)
      (1 - m / k) * c * c).sum
    k / (1 + 2 * sum)

/-- The clamp of `alpha`. -/
def clampAlpha (alpha : K) : K :=
  if ¬0 < alpha then 1 / 10 ^ 12 else if ¬alpha ≤ 1 then 1 else alpha

/-- `d`: what the overlap takes off, for frames without end. -/
def overlapPenalty (window : List K) (hop : ℕ) : K :=
  1 + 2 * ((overlapTurns window.length hop fun _ => true).map fun m =>
    let c := overlapCorrelation window (m * hop)
    c * c).sum

/-- `exponentialEffectiveAverages(window, hop, alpha, frames)`. -/
def exponentialEffectiveAverages (window : List K) (hop : ℕ) (alpha : K) (frames : ℕ) : K :=
  if frames = 0 then 0
  else if hop = 0 then 1
  else
    let a := clampAlpha alpha
    let onePower := (1 - a) ^ (2 * (frames - 1))
    let s := onePower * (2 - 2 * a) / (2 - a) + a / (2 - a)
    let raw := 1 / s
    1 + (raw - 1) / overlapPenalty window hop

/-- `effectiveAverages()`. -/
def TransferEngine.effectiveAverages (e : TransferEngine K) : K :=
  let config := e.streams.config
  if config.averaging = .fifo then
    fifoEffectiveAverages e.scales.window config.hopSize
      (min e.streams.frameCount config.fifoDepth)
  else
    exponentialEffectiveAverages e.scales.window config.hopSize e.scales.alpha
      e.streams.frameCount

/-! ### The correlation -/

section Correlation

variable [IsStrictOrderedRing K] (window : List K)

omit [LinearOrder K] [IsStrictOrderedRing K] in
theorem sumSquares_eq : sumSquares window =
    ∑ n ∈ Finset.range window.length, window.getD n 0 ^ 2 := by
  induction window with
  | nil => rfl
  | cons w window ih =>
    rw [List.length_cons, Finset.sum_range_succ', sumSquares, List.map_cons, List.sum_cons]
    simp only [List.getD_cons_succ, List.getD_cons_zero]
    rw [← ih, sumSquares, sq, add_comm]

/-- Cauchy-Schwarz, over the samples that both copies of the window have. -/
theorem sq_lagged_le (lag : ℕ) :
    (∑ n ∈ Finset.range (window.length - lag), window.getD n 0 * window.getD (n + lag) 0) ^ 2 ≤
      sumSquares window ^ 2 := by
  have hhead : ∑ n ∈ Finset.range (window.length - lag), window.getD n 0 ^ 2 ≤
      sumSquares window := by
    rw [sumSquares_eq]
    refine Finset.sum_le_sum_of_subset_of_nonneg ?_ fun n _ _ => sq_nonneg _
    exact Finset.range_subset_range.mpr (Nat.sub_le _ _)
  have htail : ∑ n ∈ Finset.range (window.length - lag), window.getD (n + lag) 0 ^ 2 ≤
      sumSquares window := by
    rw [sumSquares_eq, ← Finset.sum_image (s := Finset.range (window.length - lag))
      (g := (· + lag)) (f := fun n => window.getD n 0 ^ 2) fun a _ b _ h => Nat.add_right_cancel h]
    refine Finset.sum_le_sum_of_subset_of_nonneg (fun n hn => ?_) fun n _ _ => sq_nonneg _
    obtain ⟨m, hm, rfl⟩ := Finset.mem_image.mp hn
    rw [Finset.mem_range] at hm ⊢
    omega
  refine (Finset.sum_mul_sq_le_sq_mul_sq _ _ _).trans ?_
  rw [sq (sumSquares window)]
  refine mul_le_mul hhead htail (Finset.sum_nonneg fun n _ => sq_nonneg _) ?_
  exact (Finset.sum_nonneg fun n _ => sq_nonneg _).trans hhead

theorem overlapCorrelation_sq_le (lag : ℕ) :
    overlapCorrelation window lag * overlapCorrelation window lag ≤ 1 := by
  rw [overlapCorrelation]
  split_ifs with hzero hlong hsilent
  · rw [mul_one]
  · rw [mul_zero]
    exact zero_le_one
  · rw [mul_zero]
    exact zero_le_one
  · rw [← sq, div_pow, div_le_one (pow_pos (not_le.mp hsilent) 2)]
    exact sq_lagged_le window lag

end Correlation

/-! ### The turns of the loops -/

theorem mem_overlapTurns {size hop m : ℕ} {more : ℕ → Bool} (h : m ∈ overlapTurns size hop more) :
    1 ≤ m ∧ more m = true := by
  have hturn := List.mem_takeWhile_imp h
  rw [Bool.and_eq_true] at hturn
  exact ⟨(List.mem_range'_1.mp ((List.takeWhile_sublist _).subset h)).1, hturn.2⟩

theorem nodup_overlapTurns (size hop : ℕ) (more : ℕ → Bool) :
    (overlapTurns size hop more).Nodup :=
  (List.takeWhile_sublist _).nodup List.nodup_range'

/-- What is left of `k` frames when each counts less the more it overlaps. -/
theorem sum_remaining [CharZero K] {k : ℕ} (hk : k ≠ 0) :
    1 + 2 * ∑ m ∈ Finset.Ico 1 k, (1 - (m : K) / k) = k := by
  have hk' : (k : K) ≠ 0 := Nat.cast_ne_zero.mpr hk
  have hall : ∑ m ∈ Finset.range k, (1 - (m : K) / k) =
      1 + ∑ m ∈ Finset.Ico 1 k, (1 - (m : K) / k) := by
    rw [Finset.range_eq_Ico, Finset.sum_eq_sum_Ico_succ_bot (Nat.pos_of_ne_zero hk), Nat.cast_zero,
      zero_div, sub_zero]
  have hgauss : (∑ m ∈ Finset.range k, (m : K)) * 2 = k * (k - 1) := by
    have hnat := congrArg (Nat.cast (R := K)) (Finset.sum_range_id_mul_two k)
    rwa [Nat.cast_mul, Nat.cast_mul, Nat.cast_sum, Nat.cast_sub (Nat.pos_of_ne_zero hk),
      Nat.cast_ofNat, Nat.cast_one] at hnat
  have hsum : ∑ m ∈ Finset.range k, (1 - (m : K) / k) =
      k - (∑ m ∈ Finset.range k, (m : K)) / k := by
    rw [Finset.sum_sub_distrib, Finset.sum_const, Finset.card_range, nsmul_one, Finset.sum_div]
  rw [← add_right_inj (2 * (1 : K))]
  calc 2 * 1 + (1 + 2 * ∑ m ∈ Finset.Ico 1 k, (1 - (m : K) / k))
      = 1 + 2 * ∑ m ∈ Finset.range k, (1 - (m : K) / k) := by
        rw [hall]
        ring
    _ = 1 + 2 * k - (∑ m ∈ Finset.range k, (m : K)) * 2 / k := by
        rw [hsum]
        ring
    _ = 2 * 1 + k := by
        rw [hgauss]
        field_simp
        ring

/-! ### The count of a FIFO -/

section Counts

variable [IsStrictOrderedRing K] (window : List K) (hop : ℕ)

variable {frames : ℕ}

theorem fifoEffectiveAverages_mem (hframes : 1 ≤ frames) :
    1 ≤ fifoEffectiveAverages window hop frames ∧
      fifoEffectiveAverages window hop frames ≤ frames := by
  have hk : (1 : K) ≤ frames := Nat.one_le_cast.mpr hframes
  have hpos : (0 : K) < frames := zero_lt_one.trans_le hk
  rw [fifoEffectiveAverages, if_neg (Nat.one_le_iff_ne_zero.mp hframes)]
  split
  · exact ⟨le_rfl, hk⟩
  · set turns := overlapTurns window.length hop fun m => decide (m < frames) with hturns
    have hterm : ∀ m ∈ turns.toFinset, 0 ≤ (1 - (m : K) / frames) ∧ m ∈ Finset.Ico 1 frames := by
      intro m hm
      obtain ⟨hone, hlt⟩ := mem_overlapTurns (List.mem_toFinset.mp hm)
      have hlt' : m < frames := of_decide_eq_true hlt
      refine ⟨sub_nonneg.mpr ((div_le_one hpos).mpr (Nat.cast_le.mpr hlt'.le)), ?_⟩
      exact Finset.mem_Ico.mpr ⟨hone, hlt'⟩
    have hsum : (turns.map fun m : ℕ => (1 - (m : K) / frames) *
          overlapCorrelation window (m * hop) * overlapCorrelation window (m * hop)).sum =
        ∑ m ∈ turns.toFinset, (1 - (m : K) / frames) *
          (overlapCorrelation window (m * hop) * overlapCorrelation window (m * hop)) := by
      rw [← List.sum_toFinset _ (nodup_overlapTurns _ _ _)]
      exact Finset.sum_congr rfl fun m _ => mul_assoc _ _ _
    have hnonneg : 0 ≤ ∑ m ∈ turns.toFinset, (1 - (m : K) / frames) *
        (overlapCorrelation window (m * hop) * overlapCorrelation window (m * hop)) :=
      Finset.sum_nonneg fun m hm => mul_nonneg (hterm m hm).1 (mul_self_nonneg _)
    have hle : ∑ m ∈ turns.toFinset, (1 - (m : K) / frames) *
          (overlapCorrelation window (m * hop) * overlapCorrelation window (m * hop)) ≤
        ∑ m ∈ Finset.Ico 1 frames, (1 - (m : K) / frames) := by
      calc _ ≤ ∑ m ∈ turns.toFinset, (1 - (m : K) / frames) :=
            Finset.sum_le_sum fun m hm =>
              mul_le_of_le_one_right (hterm m hm).1 (overlapCorrelation_sq_le window _)
        _ ≤ ∑ m ∈ Finset.Ico 1 frames, (1 - (m : K) / frames) := by
            refine Finset.sum_le_sum_of_subset_of_nonneg (fun m hm => (hterm m hm).2) ?_
            intro m hm _
            rw [Finset.mem_Ico] at hm
            exact sub_nonneg.mpr ((div_le_one hpos).mpr (Nat.cast_le.mpr hm.2.le))
    have htotal := sum_remaining (K := K) (Nat.one_le_iff_ne_zero.mp hframes)
    dsimp only
    rw [hsum]
    have hdenom : 0 < 1 + 2 * ∑ m ∈ turns.toFinset, (1 - (m : K) / frames) *
        (overlapCorrelation window (m * hop) * overlapCorrelation window (m * hop)) := by
      linarith
    constructor
    · rw [one_le_div hdenom]
      linarith
    · refine div_le_self hpos.le ?_
      linarith

/-! ### The count of an exponential average -/

/-- A bin after some frames, by the recursion of the engine. -/
def exponentialMeans {V : Type} [AddCommGroup V] [Module K V] (alpha : K) (frames : ℕ)
    (x : ℕ → V) : V :=
  ((List.range frames).foldl
    (fun a i => SpectrumAverage.accumulateExponential alpha (i + 1) 0 (x i) a) .empty).mean 0

/-- The weight of a frame: what the recursion makes of a one at that frame. -/
def appliedWeight (alpha : K) (frames i : ℕ) : K :=
  exponentialMeans alpha frames fun j => if j = i then 1 else 0

omit [LinearOrder K] [IsStrictOrderedRing K] in
theorem exponentialMeans_eq {V : Type} [AddCommGroup V] [Module K V] (alpha : K) (frames : ℕ)
    (x : ℕ → V) :
    exponentialMeans alpha frames x = smoothedMean alpha ((List.range frames).map x) := by
  refine foldl_range_invariant
    (fun n (a : SpectrumAverage V) => a.mean 0 = smoothedMean alpha ((List.range n).map x)) rfl ?_
  intro i _ a ha
  rw [List.range_succ, List.map_append, List.map_singleton, smoothedMean_concat, List.length_map,
    List.length_range, SpectrumAverage.accumulateExponential]
  simp only [Function.update_self, Nat.add_eq_right, ha]
  rfl

omit [LinearOrder K] [IsStrictOrderedRing K] in
theorem appliedWeight_eq (alpha : K) {frames i : ℕ} (hi : i < frames) :
    appliedWeight alpha frames i = smoothedWeight alpha frames i := by
  rw [appliedWeight, exponentialMeans_eq, smoothedMean_eq_sum _ _ (Nat.ne_zero_of_lt hi)]
  simp [hi]

theorem clampAlpha_mem (alpha : K) : 0 < clampAlpha alpha ∧ clampAlpha alpha ≤ 1 := by
  rw [clampAlpha]
  split_ifs with hpos hle
  · exact ⟨hpos, hle⟩
  · exact ⟨zero_lt_one, le_rfl⟩
  · refine ⟨by positivity, ?_⟩
    rw [div_le_one (by positivity)]
    exact one_le_pow₀ (by norm_num)

theorem one_le_overlapPenalty : 1 ≤ overlapPenalty window hop := by
  rw [overlapPenalty]
  have hsum : 0 ≤ ((overlapTurns window.length hop fun _ => true).map fun m =>
      overlapCorrelation window (m * hop) * overlapCorrelation window (m * hop)).sum := by
    refine List.sum_nonneg fun x hx => ?_
    obtain ⟨m, -, rfl⟩ := List.mem_map.mp hx
    exact mul_self_nonneg _
  dsimp only
  linarith

theorem exponentialEffectiveAverages_eq (alpha : K) (hframes : 1 ≤ frames) :
    exponentialEffectiveAverages window hop alpha frames =
      if hop = 0 then 1
      else 1 + (kishSize frames (appliedWeight (clampAlpha alpha) frames) - 1) /
        overlapPenalty window hop := by
  have hne := Nat.one_le_iff_ne_zero.mp hframes
  have htwo : 2 - clampAlpha alpha ≠ 0 := by
    have hle := (clampAlpha_mem alpha).2
    exact (by linarith : (0 : K) < 2 - clampAlpha alpha).ne'
  have hsq : ∑ i ∈ Finset.range frames, appliedWeight (clampAlpha alpha) frames i ^ 2 =
      (1 - clampAlpha alpha) ^ (2 * (frames - 1)) * (2 - 2 * clampAlpha alpha) /
        (2 - clampAlpha alpha) + clampAlpha alpha / (2 - clampAlpha alpha) := by
    rw [← sum_sq_smoothedWeight htwo hne]
    refine Finset.sum_congr rfl fun i hi => ?_
    rw [appliedWeight_eq _ (Finset.mem_range.mp hi)]
  rw [exponentialEffectiveAverages, if_neg hne, kishSize, hsq]

theorem appliedWeight_mean (alpha : K) (hframes : 1 ≤ frames) :
    (∀ i < frames, 0 ≤ appliedWeight (clampAlpha alpha) frames i) ∧
      ∑ i ∈ Finset.range frames, appliedWeight (clampAlpha alpha) frames i = 1 := by
  obtain ⟨hpos, hle⟩ := clampAlpha_mem alpha
  constructor
  · intro i hi
    rw [appliedWeight_eq _ hi]
    exact smoothedWeight_nonneg hpos.le hle _ _
  · rw [← sum_smoothedWeight (clampAlpha alpha) (Nat.one_le_iff_ne_zero.mp hframes)]
    exact Finset.sum_congr rfl fun i hi => appliedWeight_eq _ (Finset.mem_range.mp hi)

theorem exponentialEffectiveAverages_mem (alpha : K) (hframes : 1 ≤ frames) :
    1 ≤ exponentialEffectiveAverages window hop alpha frames ∧
      exponentialEffectiveAverages window hop alpha frames ≤ frames := by
  have hk : (1 : K) ≤ frames := Nat.one_le_cast.mpr hframes
  rw [exponentialEffectiveAverages_eq window hop alpha hframes]
  split
  · exact ⟨le_rfl, hk⟩
  · obtain ⟨hweights, hsum⟩ := appliedWeight_mean alpha hframes
    obtain ⟨hone, hle⟩ := kishSize_mem hweights hsum
    have hpenalty := one_le_overlapPenalty window hop
    have hshare := div_le_self (sub_nonneg.mpr hone) hpenalty
    have hnonneg := div_nonneg (sub_nonneg.mpr hone) (zero_le_one.trans hpenalty)
    constructor
    · linarith
    · linarith

/-- **Headline.** Both counts are between one and the number of frames; and the closed form of the
second is Kish's size of the weights that the recursion of the engine applies to the frames, with
the overlap taken off. -/
theorem effectiveAverages_spec {V : Type} [AddCommGroup V] [Module K V] (alpha : K) {frames : ℕ}
    (hframes : 1 ≤ frames) :
    (1 ≤ fifoEffectiveAverages window hop frames ∧
      fifoEffectiveAverages window hop frames ≤ frames) ∧
    (0 < alpha → alpha ≤ 1 → clampAlpha alpha = alpha) ∧
    (∀ x : ℕ → V, exponentialMeans (clampAlpha alpha) frames x =
      ∑ i ∈ Finset.range frames, appliedWeight (clampAlpha alpha) frames i • x i) ∧
    ∑ i ∈ Finset.range frames, appliedWeight (clampAlpha alpha) frames i = 1 ∧
    exponentialEffectiveAverages window hop alpha frames =
      (if hop = 0 then 1
        else
          1 + (1 / ∑ i ∈ Finset.range frames, appliedWeight (clampAlpha alpha) frames i ^ 2 - 1) /
            overlapPenalty window hop) ∧
    1 ≤ exponentialEffectiveAverages window hop alpha frames ∧
    exponentialEffectiveAverages window hop alpha frames ≤ frames := by
  refine ⟨fifoEffectiveAverages_mem window hop hframes, fun hpos hle => ?_, fun x => ?_,
    (appliedWeight_mean alpha hframes).2, exponentialEffectiveAverages_eq window hop alpha hframes,
    exponentialEffectiveAverages_mem window hop alpha hframes⟩
  · rw [clampAlpha, if_neg (not_not.mpr hpos), if_neg (not_not.mpr hle)]
  · rw [exponentialMeans_eq, smoothedMean_eq_sum _ _ (Nat.one_le_iff_ne_zero.mp hframes)]
    refine Finset.sum_congr rfl fun i hi => ?_
    rw [appliedWeight_eq _ (Finset.mem_range.mp hi)]

/-- Three frames of a window that overlaps by half. -/
theorem effectiveAverages_spec_three :
    fifoEffectiveAverages ([1, 2, 2, 1] : List ℚ) 2 3 ≤ 3 ∧
      (1 : ℚ) ≤ exponentialEffectiveAverages ([1, 2, 2, 1] : List ℚ) 2 (1 / 2) 3 := by
  obtain ⟨⟨-, hfifo⟩, -, -, -, -, hexp, -⟩ := effectiveAverages_spec (V := ℚ)
    ([1, 2, 2, 1] : List ℚ) 2 (1 / 2) (by decide : 1 ≤ 3)
  exact ⟨hfifo, hexp⟩

end Counts

end Dsp

end RtaTool
