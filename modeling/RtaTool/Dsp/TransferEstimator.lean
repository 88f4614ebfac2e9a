import RtaTool.Dsp.FftSpectrum
import RtaTool.Dsp.TransferRuns

/-!
# Transfer estimates and the coherence

The three spectra of a frame at a bin are a semidefinite matrix. In either mode an average is a sum
of such matrices with weights that are not negative, so it is one too: in FIFO mode this is read off
the mean of the frames that are left, since subtracting a matrix from a sum says nothing by itself.

Over such a matrix each of the three estimates is a positive multiple of the cross spectrum. How far
the multiples are apart is, up to positive factors, how far `Sxx + Syy` is above the root in `Hv`,
and that is zero exactly when the coherence is one.

## Main definitions

* `estimateH1`, `estimateH2`, `estimateHv`, `magnitudeSquaredCoherence`
* `BinState` -- spectra at a bin, with what makes them a semidefinite matrix

## Main results

* `TransferEngine.Valid.mem_semidefiniteCone` -- the averages of an engine are a `BinState`
* `coherence_of_run` -- **Headline.** The coherence of an engine needs no clamp
* `estimates_of_binState` -- **Headline.** One phase, and `|H1| <= |Hv| <= |H2|`
-/

namespace RtaTool

namespace Dsp

/-- `TransferSnapshot`, as far as it is read. -/
structure TransferSnapshot (K : Type*) [CommRing K] where
  sampleRate : K
  binWidthHz : K
  h : List (Cplx K)
  coherence : Option (List K)

/-! ### The estimates -/

section Estimates

variable {K : Type*} [Field K] [LinearOrder K]

/-- `std::abs` of a complex number. -/
def cplxAbs (sqrt : K → K) (z : Cplx K) : K := sqrt z.norm

/-- A real number over a complex one. -/
def realDiv (a : K) (z : Cplx K) : Cplx K := (a / z.norm) • star z

/-- `estimateH1`. -/
def estimateH1 (sxy : Cplx K) (sxx : K) : Cplx K := if ¬0 < sxx then 0 else sxx⁻¹ • sxy

/-- `estimateH2`. -/
def estimateH2 (sqrt : K → K) (sxy : Cplx K) (syy : K) : Cplx K :=
  if cplxAbs sqrt sxy = 0 then 0 else realDiv syy (star sxy)

/-- `estimateHv`. -/
def estimateHv (sqrt : K → K) (sxy : Cplx K) (sxx syy : K) : Cplx K :=
  if cplxAbs sqrt sxy = 0 then 0
  else
    let diff := syy - sxx
    let radicand := diff * diff + 4 * sxy.norm
    let numeratorReal := diff + sqrt radicand
    realDiv numeratorReal ((2 : K) • star sxy)

/-- `std::clamp`, with its bounds in order. -/
def clampBetween (lo hi v : K) : K := if v < lo then lo else if hi < v then hi else v

/-- `magnitudeSquaredCoherence`. -/
def magnitudeSquaredCoherence (sxy : Cplx K) (sxx syy : K) : K :=
  if ¬0 < sxx ∨ ¬0 < syy then 0 else clampBetween 0 1 (sxy.norm / (sxx * syy))

theorem clampBetween_eq {lo hi v : K} (hlo : lo ≤ v) (hhi : v ≤ hi) : clampBetween lo hi v = v := by
  rw [clampBetween, if_neg hlo.not_gt, if_neg hhi.not_gt]

end Estimates

/-- `Sxx`, `Syy` and `Sxy` at a bin. -/
structure BinState (K : Type*) [Field K] [LinearOrder K] where
  sxx : K
  syy : K
  sxy : Cplx K
  sxx_nonneg : 0 ≤ sxx
  syy_nonneg : 0 ≤ syy
  norm_le : sxy.norm ≤ sxx * syy

section Coherence

variable {K : Type*} [Field K] [LinearOrder K] [IsStrictOrderedRing K]

/-- `magnitudeSquaredCoherence` of a bin. -/
def BinState.coherence (s : BinState K) : K := magnitudeSquaredCoherence s.sxy s.sxx s.syy

theorem BinState.coherence_eq (s : BinState K) (hx : 0 < s.sxx) (hy : 0 < s.syy) :
    s.coherence = s.sxy.norm / (s.sxx * s.syy) := by
  rw [coherence, magnitudeSquaredCoherence, if_neg (by simp [hx, hy])]
  refine clampBetween_eq (div_nonneg (norm_nonneg_of_order s.sxy) (mul_pos hx hy).le) ?_
  exact (div_le_one (mul_pos hx hy)).mpr s.norm_le

theorem BinState.coherence_mem (s : BinState K) : 0 ≤ s.coherence ∧ s.coherence ≤ 1 := by
  by_cases hpos : 0 < s.sxx ∧ 0 < s.syy
  · rw [s.coherence_eq hpos.1 hpos.2]
    exact ⟨div_nonneg (norm_nonneg_of_order s.sxy) (mul_pos hpos.1 hpos.2).le,
      (div_le_one (mul_pos hpos.1 hpos.2)).mpr s.norm_le⟩
  · rw [coherence, magnitudeSquaredCoherence, if_pos (not_and_or.mp hpos)]
    exact ⟨le_rfl, zero_le_one⟩

end Coherence

/-! ### The averages of an engine -/

section Engine

variable {K V W : Type} [Field K] [AddCommGroup V] [Module K V] [AddCommGroup W] [Module K W]

theorem averageOf_map (L : V →ₗ[K] W) (config : DualFftConfig) (alpha : K) (xs : List V) :
    averageOf config alpha (xs.map L) = L (averageOf config alpha xs) := by
  rw [averageOf, averageOf]
  split
  · rw [List.rtake, List.rtake, ← List.map_drop, List.length_map, listMean_map]
  · exact smoothedMean_map L alpha xs

theorem averageOf_singleton {config : DualFftConfig}
    (hdepth : config.averaging = .fifo → 0 < config.fifoDepth) (alpha : K) (x : V) :
    averageOf config alpha [x] = x := by
  rw [averageOf]
  split
  · rename_i hfifo
    have hmin : min [x].length config.fifoDepth = 1 := Nat.min_eq_left (hdepth hfifo)
    have hall : [x].rtake 1 = [x] := rtake_of_length_le le_rfl
    rw [hmin, hall, listMean, List.length_singleton, List.sum_singleton, Nat.cast_one, inv_one,
      one_smul]
  · rfl

variable {trig : Trig K} {config : DualFftConfig} {scales : TransferScales K}

section

variable (trig : Trig K) (config : DualFftConfig) (scales : TransferScales K) (k : ℕ)
  (pair : List K × List K)

theorem binSpectra_eq :
    binSpectra trig config scales k pair =
      (scales.densityScale * binFactor k (numBins config)) •
        ((frameBin trig config.fftSize scales.window pair.1 k).norm,
          (frameBin trig config.fftSize scales.window pair.2 k).norm,
          star (frameBin trig config.fftSize scales.window pair.1 k) *
            frameBin trig config.fftSize scales.window pair.2 k) := by
  rw [binSpectra, Prod.smul_mk, Prod.smul_mk, smul_eq_mul, smul_eq_mul]
  simp only [mul_comm]

theorem norm_binSpectra :
    (binSpectra trig config scales k pair).2.2.norm =
      (binSpectra trig config scales k pair).1 * (binSpectra trig config scales k pair).2.1 := by
  rw [binSpectra_eq]
  simp only [Prod.smul_mk, smul_eq_mul]
  rw [norm_smul_eq, norm_star_mul]
  ring

end

theorem TransferEngine.Valid.means_eq {e : TransferEngine K} {stream : List (K × K)}
    (h : Valid trig config scales e stream) {k : ℕ} (hk : k < numBins config) :
    (e.sxx.mean k, e.syy.mean k, e.sxy.mean k) =
      averageOf config scales.alpha
        (e.streams.frames.map (binSpectra trig config scales k)) := by
  have hfst := averageOf_map (LinearMap.fst K K (K × Cplx K)) config scales.alpha
    (e.streams.frames.map (binSpectra trig config scales k))
  have hsnd := averageOf_map ((LinearMap.fst K K (Cplx K)).comp (LinearMap.snd K K (K × Cplx K)))
    config scales.alpha (e.streams.frames.map (binSpectra trig config scales k))
  have htrd := averageOf_map ((LinearMap.snd K K (Cplx K)).comp (LinearMap.snd K K (K × Cplx K)))
    config scales.alpha (e.streams.frames.map (binSpectra trig config scales k))
  rw [List.map_map] at hfst hsnd htrd
  rw [(h.bins.sxx k hk).mean, (h.bins.syy k hk).mean, (h.bins.sxy k hk).mean]
  exact Prod.ext hfst (Prod.ext hsnd htrd)

variable [LinearOrder K] [IsStrictOrderedRing K]

theorem averageOf_mem (C : PointedCone K V) {alpha : K}
    (halpha : config.averaging = .exponential → 0 ≤ alpha ∧ alpha ≤ 1) {xs : List V}
    (h : ∀ x ∈ xs, x ∈ C) : averageOf config alpha xs ∈ C := by
  rw [averageOf]
  split
  · exact listMean_mem C fun x hx => h x (List.mem_of_mem_drop hx)
  · rename_i hexp
    obtain ⟨hpos, hle⟩ := halpha (by
      cases heq : config.averaging with
      | fifo => exact absurd heq hexp
      | exponential => rfl)
    exact smoothedMean_mem C hpos hle h

theorem binFactor_nonneg (bin bins : ℕ) : 0 ≤ (binFactor bin bins : K) := by
  rw [binFactor]
  split
  · exact one_half_pos.le
  · exact zero_le_one

theorem binSpectra_mem (hscale : 0 ≤ scales.densityScale) (k : ℕ) (pair : List K × List K) :
    binSpectra trig config scales k pair ∈ semidefiniteCone K := by
  rw [binSpectra_eq]
  exact smul_mem_cone _ (mul_nonneg hscale (binFactor_nonneg _ _)) (outer_mem _ _)

namespace TransferEngine.Valid

variable {e : TransferEngine K} {stream : List (K × K)}

theorem mem_semidefiniteCone (h : Valid trig config scales e stream)
    (hscale : 0 ≤ scales.densityScale)
    (halpha : config.averaging = .exponential → 0 ≤ scales.alpha ∧ scales.alpha ≤ 1) {k : ℕ}
    (hk : k < numBins config) :
    (e.sxx.mean k, e.syy.mean k, e.sxy.mean k) ∈ semidefiniteCone K := by
  rw [h.means_eq hk]
  refine averageOf_mem _ halpha fun x hx => ?_
  obtain ⟨pair, -, rfl⟩ := List.mem_map.mp hx
  exact binSpectra_mem hscale k pair

/-- After one frame the matrix is on the border of the cone. -/
theorem norm_eq_of_frameCount (h : Valid trig config scales e stream) {k : ℕ}
    (hk : k < numBins config) (hone : e.streams.frameCount = 1) :
    (e.sxy.mean k).norm = e.sxx.mean k * e.syy.mean k := by
  rw [h.aligned.frameCount] at hone
  obtain ⟨pair, hpair⟩ := List.length_eq_one_iff.mp hone
  have hmeans := h.means_eq hk
  rw [hpair, List.map_singleton, averageOf_singleton h.depth_pos] at hmeans
  have hnorm := norm_binSpectra trig config scales k pair
  rw [← hmeans] at hnorm
  exact hnorm

end TransferEngine.Valid

omit [AddCommGroup V] [Module K V] in
theorem psdScale_nonneg {rate : K} (hrate : 0 < rate) (window : List K) :
    0 ≤ psdScale rate (sumSquares window) := by
  have hsum : 0 ≤ sumSquares window := by
    refine List.sum_nonneg fun x hx => ?_
    obtain ⟨w, -, rfl⟩ := List.mem_map.mp hx
    exact mul_self_nonneg w
  exact div_nonneg zero_le_two (mul_nonneg hrate.le hsum)

end Engine

/-- An accepted time constant gives a share of the difference between none and all of it. -/
theorem smoothingAlpha_mem {config : DualFftConfig} (hvalid : config.validate = .ok ())
    (hexp : config.averaging = .exponential) :
    0 < smoothingAlpha Real.exp config ∧ smoothingAlpha Real.exp config < 1 := by
  obtain ⟨hrate, -, htime⟩ := validate_eq_ok hvalid
  have hhop : 0 < (config.hopSize : ℝ) :=
    Nat.cast_pos.mpr (DualFftEngine.accepted_of_validate hvalid).hop_pos
  have hrate' : 0 < (config.sampleRate : ℝ) := Rat.cast_pos.mpr hrate
  have htime' : 0 < (config.timeConstantSeconds : ℝ) := Rat.cast_pos.mpr (htime hexp)
  have hneg : -((config.hopSize : ℝ) / config.sampleRate) / config.timeConstantSeconds < 0 :=
    div_neg_of_neg_of_pos (neg_neg_of_pos (div_pos hhop hrate')) htime'
  rw [smoothingAlpha]
  exact ⟨sub_pos.mpr (Real.exp_lt_one_iff.mpr hneg), sub_lt_self _ (Real.exp_pos _)⟩

/-- The averages of an engine at a bin. -/
def TransferEngine.Valid.binState {trig : Trig ℝ} {config : DualFftConfig} {window : List ℝ}
    {e : TransferEngine ℝ} {stream : List (ℝ × ℝ)}
    (h : Valid trig config (.make Real.exp config window) e stream)
    (hvalid : config.validate = .ok ()) {k : ℕ} (hk : k < numBins config) : BinState ℝ :=
  have hrate : 0 < (config.sampleRate : ℝ) := Rat.cast_pos.mpr (validate_eq_ok hvalid).1
  have hmem := h.mem_semidefiniteCone (psdScale_nonneg hrate window)
    (fun hexp => ⟨(smoothingAlpha_mem hvalid hexp).1.le, (smoothingAlpha_mem hvalid hexp).2.le⟩) hk
  { sxx := e.sxx.mean k
    syy := e.syy.mean k
    sxy := e.sxy.mean k
    sxx_nonneg := hmem.1
    syy_nonneg := hmem.2.1
    norm_le := hmem.2.2 }

/-- **Headline.** In both modes, after any calls, `|Sxy| ^ 2 <= Sxx * Syy` at every bin, with
equality after one frame; and the coherence is between zero and one without its clamp. -/
theorem coherence_of_run {config : DualFftConfig} {window : List ℝ} {e : TransferEngine ℝ}
    (trig : Trig ℝ) (hmake : TransferEngine.make Real.exp config window = .ok e)
    (calls : List (EngineCall ℝ)) :
    ∃ t, e.run trig calls = .ok t ∧ ∀ k < numBins config,
      (t.sxy.mean k).norm ≤ t.sxx.mean k * t.syy.mean k ∧
        (t.streams.frameCount = 1 → (t.sxy.mean k).norm = t.sxx.mean k * t.syy.mean k) ∧
        0 ≤ magnitudeSquaredCoherence (t.sxy.mean k) (t.sxx.mean k) (t.syy.mean k) ∧
        magnitudeSquaredCoherence (t.sxy.mean k) (t.sxx.mean k) (t.syy.mean k) ≤ 1 ∧
        (0 < t.sxx.mean k → 0 < t.syy.mean k →
          magnitudeSquaredCoherence (t.sxy.mean k) (t.sxx.mean k) (t.syy.mean k) =
            (t.sxy.mean k).norm / (t.sxx.mean k * t.syy.mean k)) := by
  obtain ⟨h, hvalid⟩ := TransferEngine.valid_of_make trig hmake
  obtain ⟨t, hrun, ht⟩ := h.run calls
  refine ⟨t, hrun, fun k hk => ?_⟩
  have hmem := (ht.binState hvalid hk).coherence_mem
  exact ⟨(ht.binState hvalid hk).norm_le, ht.norm_eq_of_frameCount hk, hmem.1, hmem.2,
    (ht.binState hvalid hk).coherence_eq⟩

/-- An engine after its first frame. -/
theorem coherence_of_run_one : ∃ e t : TransferEngine ℝ,
    TransferEngine.make Real.exp TransferEngine.twoFrames [1, 1, 1, 1] = .ok e ∧
    e.run realTrig [.process [(1, 4), (2, 3), (3, 2), (4, 1)]] = .ok t ∧
    (t.sxy.mean 1).norm ≤ t.sxx.mean 1 * t.syy.mean 1 := by
  obtain ⟨e, hmake⟩ := TransferEngine.exists_make_twoFrames Real.exp [1, 1, 1, 1]
  obtain ⟨t, hrun, hbins⟩ := coherence_of_run realTrig hmake
    [.process [(1, 4), (2, 3), (3, 2), (4, 1)]]
  exact ⟨e, t, hmake, hrun, (hbins 1 (by decide)).1⟩

/-! ### The three estimates of a bin -/

theorem norm_eq_zero_iff (z : Cplx ℝ) : z.norm = 0 ↔ z = 0 := by
  rw [norm_eq_sq_add_sq, add_eq_zero_iff_of_nonneg (sq_nonneg _) (sq_nonneg _)]
  constructor
  · rintro ⟨hre, him⟩
    exact QuadraticAlgebra.ext (pow_eq_zero_iff two_ne_zero |>.mp hre)
      (pow_eq_zero_iff two_ne_zero |>.mp him)
  · rintro rfl
    simp

theorem cplxAbs_eq_norm (z : Cplx ℝ) : cplxAbs Real.sqrt z = ‖toComplex z‖ := by
  rw [cplxAbs, Complex.norm_def, Complex.normSq_apply, QuadraticAlgebra.norm_def]
  congr 1
  change _ = z.re * z.re + z.im * z.im
  ring

theorem cplxAbs_smul {r : ℝ} (hr : 0 ≤ r) (z : Cplx ℝ) :
    cplxAbs Real.sqrt (r • z) = r * cplxAbs Real.sqrt z := by
  rw [cplxAbs, cplxAbs, norm_smul_eq, Real.sqrt_mul (sq_nonneg r), Real.sqrt_sq hr]

/-- `std::atan2(h.imag(), h.real())`. -/
noncomputable def phaseRadians (h : Cplx ℝ) : ℝ := Complex.arg (toComplex h)

theorem phaseRadians_smul {r : ℝ} (hr : 0 < r) (z : Cplx ℝ) :
    phaseRadians (r • z) = phaseRadians z := by
  rw [phaseRadians, toComplex_smul, Complex.arg_real_mul _ hr, phaseRadians]

namespace BinState

variable (s : BinState ℝ)

/-- `estimateH1` of a bin. -/
noncomputable def h1 : Cplx ℝ := estimateH1 s.sxy s.sxx

/-- `estimateH2` of a bin. -/
noncomputable def h2 : Cplx ℝ := estimateH2 Real.sqrt s.sxy s.syy

/-- `estimateHv` of a bin. -/
noncomputable def hv : Cplx ℝ := estimateHv Real.sqrt s.sxy s.sxx s.syy

/-- The root in `Hv`. -/
noncomputable def root : ℝ :=
  Real.sqrt ((s.syy - s.sxx) * (s.syy - s.sxx) + 4 * s.sxy.norm)

variable {s} (hne : s.sxy ≠ 0)
include hne

theorem norm_pos : 0 < s.sxy.norm :=
  lt_of_le_of_ne (norm_nonneg_of_order s.sxy) fun h => hne ((norm_eq_zero_iff s.sxy).mp h.symm)

theorem sxx_pos : 0 < s.sxx := by
  refine lt_of_le_of_ne s.sxx_nonneg fun h => ?_
  have hle := s.norm_le
  rw [← h, zero_mul] at hle
  exact absurd (norm_pos hne) hle.not_gt

theorem syy_pos : 0 < s.syy := by
  refine lt_of_le_of_ne s.syy_nonneg fun h => ?_
  have hle := s.norm_le
  rw [← h, mul_zero] at hle
  exact absurd (norm_pos hne) hle.not_gt

theorem cplxAbs_pos : 0 < cplxAbs Real.sqrt s.sxy := Real.sqrt_pos.mpr (norm_pos hne)

/-! Each estimate is a positive multiple of the cross spectrum. -/

theorem h1_eq : s.h1 = s.sxx⁻¹ • s.sxy := by
  rw [h1, estimateH1, if_neg (not_not.mpr (sxx_pos hne))]

theorem h2_eq : s.h2 = (s.syy / s.sxy.norm) • s.sxy := by
  rw [h2, estimateH2, if_neg (cplxAbs_pos hne).ne', realDiv, QuadraticAlgebra.norm_star, star_star]

theorem hv_eq : s.hv = ((s.syy - s.sxx + s.root) / (2 * s.sxy.norm)) • s.sxy := by
  have hstar : star ((2 : ℝ) • star s.sxy) = (2 : ℝ) • s.sxy := by
    ext <;> simp
  rw [hv, estimateHv, if_neg (cplxAbs_pos hne).ne', realDiv, norm_smul_eq,
    QuadraticAlgebra.norm_star, hstar, smul_smul]
  congr 1
  have hnorm := (norm_pos hne).ne'
  rw [root]
  field_simp

/-! How far apart the multiples are. -/

theorem root_sq : s.root * s.root = (s.syy - s.sxx) * (s.syy - s.sxx) + 4 * s.sxy.norm :=
  Real.mul_self_sqrt (add_nonneg (mul_self_nonneg _)
    (mul_nonneg zero_le_four (norm_pos hne).le))

theorem root_add_pos : 0 < s.syy - s.sxx + s.root := by
  have habs : |s.syy - s.sxx| < s.root := by
    refine abs_lt_of_sq_lt_sq ?_ (Real.sqrt_nonneg _)
    rw [sq, sq, root_sq hne]
    exact lt_add_of_pos_right _ (mul_pos zero_lt_four (norm_pos hne))
  have hneg := neg_abs_le (s.syy - s.sxx)
  linarith

theorem root_le : s.root ≤ s.sxx + s.syy := by
  have hsum : 0 ≤ s.sxx + s.syy := add_nonneg s.sxx_nonneg s.syy_nonneg
  refine abs_le_of_sq_le_sq' ?_ hsum |>.2
  have hsq := root_sq hne
  have hle := s.norm_le
  linarith [sq s.root, sq (s.sxx + s.syy)]

theorem root_eq_iff : s.root = s.sxx + s.syy ↔ s.coherence = 1 := by
  rw [s.coherence_eq (sxx_pos hne) (syy_pos hne),
    div_eq_one_iff_eq (mul_pos (sxx_pos hne) (syy_pos hne)).ne']
  have hsq := root_sq hne
  constructor
  · intro h
    rw [h] at hsq
    linarith
  · intro h
    have hsum : 0 ≤ s.sxx + s.syy := add_nonneg s.sxx_nonneg s.syy_nonneg
    refine (mul_self_inj (Real.sqrt_nonneg _) hsum).mp ?_
    rw [← root, hsq, h]
    ring

theorem gap_nonneg : 0 ≤ s.sxx + s.syy - s.root := sub_nonneg.mpr (root_le hne)

theorem gap_eq_zero_iff : s.sxx + s.syy - s.root = 0 ↔ s.coherence = 1 := by
  rw [← root_eq_iff hne, sub_eq_zero]
  exact eq_comm

theorem hv_sub_h1 : (s.syy - s.sxx + s.root) / (2 * s.sxy.norm) - s.sxx⁻¹ =
    (s.syy - s.sxx + s.root) / (4 * s.sxx * s.sxy.norm) * (s.sxx + s.syy - s.root) := by
  have hnorm := (norm_pos hne).ne'
  have hx := (sxx_pos hne).ne'
  field_simp
  linear_combination 2 * root_sq hne

theorem h2_sub_hv : s.syy / s.sxy.norm - (s.syy - s.sxx + s.root) / (2 * s.sxy.norm) =
    1 / (2 * s.sxy.norm) * (s.sxx + s.syy - s.root) := by
  have hnorm := (norm_pos hne).ne'
  field_simp
  ring

end BinState

/-- The order of two positive multiples of a number that is not zero, of which the second is ahead
by a positive multiple of a gap. -/
theorem cplxAbs_order {z : Cplx ℝ} (hz : 0 < cplxAbs Real.sqrt z) {r r' c gap : ℝ} (hr : 0 ≤ r)
    (hr' : 0 ≤ r') (hc : 0 < c) (hgap : 0 ≤ gap) (hsub : r' - r = c * gap) :
    cplxAbs Real.sqrt (r • z) ≤ cplxAbs Real.sqrt (r' • z) ∧
      (cplxAbs Real.sqrt (r • z) = cplxAbs Real.sqrt (r' • z) ↔ gap = 0) := by
  rw [cplxAbs_smul hr, cplxAbs_smul hr']
  constructor
  · refine mul_le_mul_of_nonneg_right (sub_nonneg.mp ?_) hz.le
    rw [hsub]
    exact mul_nonneg hc.le hgap
  · rw [mul_left_inj' hz.ne', eq_comm, ← sub_eq_zero, hsub, mul_eq_zero_iff_left hc.ne']

/-- **Headline.** Where the cross spectrum is not zero, the three estimates have one phase, `Hv` is
between the other two, and any two of them are as large only where the coherence is one. -/
theorem estimates_of_binState (s : BinState ℝ) (hne : s.sxy ≠ 0) :
    (phaseRadians s.h1 = phaseRadians s.hv ∧ phaseRadians s.hv = phaseRadians s.h2) ∧
      (cplxAbs Real.sqrt s.h1 ≤ cplxAbs Real.sqrt s.hv ∧
        cplxAbs Real.sqrt s.hv ≤ cplxAbs Real.sqrt s.h2) ∧
      (cplxAbs Real.sqrt s.h1 = cplxAbs Real.sqrt s.hv ↔ s.coherence = 1) ∧
      (cplxAbs Real.sqrt s.hv = cplxAbs Real.sqrt s.h2 ↔ s.coherence = 1) ∧
      (cplxAbs Real.sqrt s.h1 = cplxAbs Real.sqrt s.h2 ↔ s.coherence = 1) := by
  have hx := BinState.sxx_pos hne
  have hn := BinState.norm_pos hne
  have h1 : 0 < s.sxx⁻¹ := inv_pos.mpr hx
  have h2 : 0 < s.syy / s.sxy.norm := div_pos (BinState.syy_pos hne) hn
  have hv : 0 < (s.syy - s.sxx + s.root) / (2 * s.sxy.norm) :=
    div_pos (BinState.root_add_pos hne) (mul_pos two_pos hn)
  have hlow := cplxAbs_order (BinState.cplxAbs_pos hne) h1.le hv.le
    (div_pos (BinState.root_add_pos hne) (mul_pos (mul_pos four_pos hx) hn))
    (BinState.gap_nonneg hne) (BinState.hv_sub_h1 hne)
  have hhigh := cplxAbs_order (BinState.cplxAbs_pos hne) hv.le h2.le
    (one_div_pos.mpr (mul_pos two_pos hn)) (BinState.gap_nonneg hne) (BinState.h2_sub_hv hne)
  rw [BinState.gap_eq_zero_iff hne, ← BinState.hv_eq hne] at hlow hhigh
  rw [← BinState.h1_eq hne] at hlow
  rw [← BinState.h2_eq hne] at hhigh
  have hphase : phaseRadians s.h1 = phaseRadians s.hv ∧ phaseRadians s.hv = phaseRadians s.h2 := by
    rw [BinState.h1_eq hne, BinState.hv_eq hne, BinState.h2_eq hne, phaseRadians_smul h1,
      phaseRadians_smul hv, phaseRadians_smul h2]
    exact ⟨rfl, rfl⟩
  refine ⟨hphase, ⟨hlow.1, hhigh.1⟩, hlow.2, hhigh.2, fun h => ?_, fun h => ?_⟩
  · exact hlow.2.mp (le_antisymm hlow.1 (hhigh.1.trans h.ge))
  · exact (hlow.2.mpr h).trans (hhigh.2.mpr h)

/-- A bin with a coherence of one quarter, whose estimates all differ. -/
theorem estimates_of_binState_quarter : ∃ s : BinState ℝ, s.coherence = 1 / 4 ∧
    cplxAbs Real.sqrt s.h1 < cplxAbs Real.sqrt s.hv ∧
    cplxAbs Real.sqrt s.hv < cplxAbs Real.sqrt s.h2 := by
  let s : BinState ℝ :=
    { sxx := 2
      syy := 2
      sxy := ⟨0, 1⟩
      sxx_nonneg := zero_le_two
      syy_nonneg := zero_le_two
      norm_le := by
        rw [norm_eq_sq_add_sq]
        norm_num }
  have hne : s.sxy ≠ 0 := fun h => one_ne_zero (congrArg QuadraticAlgebra.im h)
  have hcoherence : s.coherence = 1 / 4 := by
    rw [s.coherence_eq two_pos two_pos, norm_eq_sq_add_sq]
    norm_num [s]
  have hother : s.coherence ≠ 1 := by
    rw [hcoherence]
    norm_num
  obtain ⟨-, ⟨hlow, hhigh⟩, hlow', hhigh', -⟩ := estimates_of_binState s hne
  exact ⟨s, hcoherence, lt_of_le_of_ne hlow fun h => hother (hlow'.mp h),
    lt_of_le_of_ne hhigh fun h => hother (hhigh'.mp h)⟩

end Dsp

end RtaTool
