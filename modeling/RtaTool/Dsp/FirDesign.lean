import RtaTool.Dsp.HalfSpectrum
import RtaTool.Dsp.MinimumPhase
import RtaTool.Dsp.TransferEstimator
import RtaTool.Dsp.Window

/-!
# Filters with a finite response

`FirDesign.cpp`. A magnitude on a half grid is transformed back to a response that is even in time,
of which as many samples as there are taps are taken around the middle and windowed. An odd length
has a tap on the axis and reads the response at whole samples; an even length has none, and reads it
half a sample further, which is a turn of the spectrum.

Sizes are those of arrays that can be had, so that none of the products wraps.

## Main definitions

* `FirTarget`, `FirResult`, `FirMath`
* `linearPhaseWrites`, `designLinearPhaseCore`, `measureDesign`, `designFirCore`
* `interpolateFirTargetDb`, `designFirToTarget`, `designFir`

## Main results

* `linearPhaseWrites_eq` -- where the loop writes, and what
* `designFir_linearPhase` -- **Headline.** The taps of the linear phase path
-/

namespace RtaTool

namespace Dsp

/-! ### Targets and results -/

/-- `FirPhase`. -/
inductive FirPhase
  | linear
  | minimum
  deriving DecidableEq, Repr

/-- `FirMethod`. -/
inductive FirMethod
  | frequencySampling
  | leastSquares
  deriving DecidableEq, Repr

/-- `FirTarget`. -/
structure FirTarget (K : Type*) where
  frequencyHz : List K
  gainDb : List K

/-- `FirResult`. -/
structure FirResult (K : Type*) where
  taps : List K
  sampleRate : K
  phase : FirPhase
  method : FirMethod
  window : WindowType
  groupDelaySamples : ℕ
  peakGainDb : K
  coefficientPeak : K
  truncationLossDb : Option K
  designFftSize : ℕ

/-- The functions of the standard library. -/
structure FirMath (K : Type*) [CommRing K] extends CepstrumMath K where
  sqrt : K → K
  log10 : K → K

variable {K : Type*} [Field K] [LinearOrder K] (math : FirMath K)

/-- `kCepstralOversamplingFactor`. -/
def kCepstralOversamplingFactor : ℕ := 8

/-- `validateCommon(sampleRate, taps)`. -/
def validateCommon (sampleRate : K) (taps : ℕ) : Except String PUnit :=
  if sampleRate ≤ 0 then .error "designFir: sampleRate must be > 0"
  else if taps < 8 then .error "designFir: taps must be >= 8"
  else .ok ⟨⟩

/-- `validateTarget(target)`. -/
def validateTarget (target : FirTarget K) : Except String PUnit :=
  if target.frequencyHz = [] ∨ target.frequencyHz.length ≠ target.gainDb.length then
    .error "designFir: target.frequencyHz and target.gainDb must be non-empty and equal-sized"
  else if ¬ target.frequencyHz.IsChain (· < ·) then
    .error "designFir: target.frequencyHz must be strictly ascending"
  else .ok ⟨⟩

/-- `interpolateFirTargetDb(target, frequencyHz)`. -/
def interpolateFirTargetDb (target : FirTarget K) (frequencyHz : K) : Except String K :=
  let fs := target.frequencyHz
  let gs := target.gainDb
  match fs with
  | [] => .error "interpolateFirTargetDb: target.frequencyHz must not be empty"
  | front :: _ =>
    if frequencyHz ≤ front then .ok (gs.headD 0)
    else if fs.getLastD 0 ≤ frequencyHz then .ok (gs.getLastD 0)
    else
      -- `std::lower_bound`
      let hi := (fs.takeWhile (· < frequencyHz)).length
      let lo := hi - 1
      if fs.getD hi 0 = frequencyHz then .ok (gs.getD hi 0)
      else
        let logLo := math.log10 (fs.getD lo 0)
        let logHi := math.log10 (fs.getD hi 0)
        let logF := math.log10 frequencyHz
        let t := (logF - logLo) / (logHi - logLo)
        .ok (gs.getD lo 0 + t * (gs.getD hi 0 - gs.getD lo 0))

/-- `sampleTargetMagnitude(target, sampleRate, m)`. -/
def sampleTargetMagnitude (target : FirTarget K) (sampleRate : K) (m : ℕ) :
    Except String (List K) :=
  (List.range (m / 2 + 1)).mapM fun (k : ℕ) => do
    let f := k * sampleRate / m
    let db ← interpolateFirTargetDb math target f
    return math.pow10 (db / 20)

/-! ### The linear phase core -/

/-- The bins that are transformed back: those of the grid, turned by half a sample for an even
number of taps. -/
def linearPhaseSpectrum (magnitudeHalfGrid : List K) (m n : ℕ) (k : ℕ) : Cplx K :=
  let bin := ofReal (magnitudeHalfGrid.getD k 0)
  if n % 2 = 0 then
    let nyquist := m / 2
    if k < nyquist then bin * cis math.trig (math.trig.pi * k / m)
    else if k = nyquist then ofReal 0
    else bin
  else bin

/-- Where tap `i` finds its sample of the response. -/
def sourceIndex (m n i : ℕ) : ℤ :=
  let half := (n - 1) / 2
  if n % 2 = 0 then (half : ℤ) - i
  else
    let offset := (i : ℤ) - half
    (offset.tmod m + m).tmod m

/-- The turns of the loop over the taps: what is written, and where, in order. -/
def tapWrites (m n : ℕ) (hZero : ℕ → K) (coeffs : List K) : List (ℕ × K) :=
  let half := (n - 1) / 2
  (List.range (half + 1)).flatMap fun i =>
    let source := hZero (sourceIndex m n i).toNat
    let windowedValue := source * coeffs.getD i 0
    [(i, windowedValue), (n - 1 - i, windowedValue)]

/-- `designLinearPhaseCore`, up to its writes. -/
def linearPhaseWrites (magnitudeHalfGrid : List K) (m n : ℕ) (windowType : WindowType) :
    Except String (List (ℕ × K)) := do
  let fft ← RealFftTables.make math.trig m
  if magnitudeHalfGrid.length ≠ fft.numBins then
    .error "designFir: magnitude grid size does not match M/2+1"
  else
    let spectrum := linearPhaseSpectrum math magnitudeHalfGrid m n
    let hZero ← fft.inverse fft.numBins spectrum m
    let window ← Window.make math.trig windowType n (1 / 2)
    return tapWrites m n hZero window.coefficients

/-- An array of `n` zeros, written to. -/
def writeTaps (n : ℕ) (writes : List (ℕ × K)) : List K :=
  writes.foldl (fun taps write => taps.set write.1 write.2) (List.replicate n 0)

/-- `designLinearPhaseCore(magnitudeHalfGrid, m, n, windowType)`. -/
def designLinearPhaseCore (magnitudeHalfGrid : List K) (m n : ℕ) (windowType : WindowType) :
    Except String (List K) := do
  let writes ← linearPhaseWrites math magnitudeHalfGrid m n windowType
  return writeTaps n writes

/-! ### Designs -/

/-- `DesignMetrics`. -/
structure DesignMetrics (K : Type*) where
  peakGainDb : K
  coefficientPeak : K

/-- `measureDesign(taps, m)`. -/
def measureDesign (taps : List K) (m : ℕ) : Except String (DesignMetrics K) := do
  let fft ← RealFftTables.make math.trig m
  let spectrum ← fft.forward m (fun i => taps.getD i 0) fft.numBins
  let peakMag := (List.range fft.numBins).foldl
    (fun peakMag k => max peakMag (cplxAbs math.sqrt (spectrum k))) 0
  return {
    peakGainDb := 20 * math.log10 (max peakMag (1e-12 : ℚ))
    coefficientPeak := taps.foldl (fun peak t => max peak |t|) 0 }

/-- The branch of `designFirCore` for the minimum phase: the taps, the size of the transform and the
loss. -/
def designMinimumPhase (magnitudeHalfGrid : List K) (m taps : ℕ) (window : WindowType) :
    Except String (List K × ℕ × K) := do
  let hLin ← designLinearPhaseCore math magnitudeHalfGrid m taps window
  let nFft := (taps * kCepstralOversamplingFactor).nextPowerOfTwo
  let fullFft ← FftTables.make math.trig nFft
  let spectrum ← fullFft.forward nFft fun i => ofReal (hLin.getD i 0)
  let magnitude := (List.range nFft).map fun i => cplxAbs math.sqrt (spectrum i)
  let minPhase ← minimumPhaseFromMagnitude math.toCepstrumMath magnitude kMinPhaseFloorDb
  let hMinSpectrum ← fullFft.inverse nFft fun i => minPhase.spectrum.getD i 0
  let hMinFull := (List.range nFft).map fun i => (hMinSpectrum i).re
  let energyAll := (hMinFull.map fun h => h * h).sum
  let kept := hMinFull.take taps
  let energyKept := (kept.map fun h => h * h).sum
  let energyLost := max (energyAll - energyKept) 0
  let fraction := if 0 < energyAll then energyLost / energyAll else 0
  let truncationLossDb := if 0 < fraction then 10 * math.log10 fraction else kMinPhaseFloorDb
  return (kept, nFft, truncationLossDb)

/-- `designFirCore(magnitudeHalfGrid, m, sampleRate, taps, phase, window)`. -/
def designFirCore (magnitudeHalfGrid : List K) (m : ℕ) (sampleRate : K) (taps : ℕ)
    (phase : FirPhase) (window : WindowType) : Except String (FirResult K) := do
  validateCommon sampleRate taps
  if magnitudeHalfGrid.length ≠ m / 2 + 1 then
    .error "designFir: magnitude grid size does not match M/2+1"
  else if m / 2 < taps then
    .error "designFir: taps exceeds the design grid (record Sec.10)"
  else
    let result : FirResult K :=
      { taps := [], sampleRate, phase, method := .frequencySampling, window
        groupDelaySamples := 0, peakGainDb := 0, coefficientPeak := 0
        truncationLossDb := none, designFftSize := m }
    let result ← match phase with
      | .linear => do
        let designed ← designLinearPhaseCore math magnitudeHalfGrid m taps window
        pure { result with taps := designed, groupDelaySamples := taps / 2 }
      | .minimum => do
        let (designed, nFft, loss) ← designMinimumPhase math magnitudeHalfGrid m taps window
        pure { result with
          taps := designed, designFftSize := nFft, truncationLossDb := some loss }
    let metrics ← measureDesign math result.taps m
    return { result with
      peakGainDb := metrics.peakGainDb, coefficientPeak := metrics.coefficientPeak }

/-- `designFir`, from breakpoints. -/
def designFirToTarget (target : FirTarget K) (sampleRate : K) (taps : ℕ) (phase : FirPhase)
    (window : WindowType) (method : FirMethod) : Except String (FirResult K) := do
  validateCommon sampleRate taps
  validateTarget target
  if method ≠ .frequencySampling then
    .error "designFir: only FrequencySampling is implemented in v1"
  else
    let m := (8 * taps).nextPowerOfTwo
    let magnitude ← sampleTargetMagnitude math target sampleRate m
    designFirCore math magnitude m sampleRate taps phase window

/-- `designFir`, from a half grid. -/
def designFir (magnitudeHalfGrid : List K) (sampleRate : K) (taps : ℕ) (phase : FirPhase)
    (window : WindowType) (method : FirMethod) : Except String (FirResult K) := do
  validateCommon sampleRate taps
  if method ≠ .frequencySampling then
    .error "designFir: only FrequencySampling is implemented in v1"
  else
    let bins := magnitudeHalfGrid.length
    if bins < 5 || !isPowerOfTwo (bins - 1) then
      .error "designFir: magnitudeHalfGrid.size() must be 2^k + 1, k >= 3"
    else
      let m := 2 * (bins - 1)
      designFirCore math magnitudeHalfGrid m sampleRate taps phase window

/-! ### What is written -/

section Writes

omit [LinearOrder K]

theorem length_foldl_set (writes : List (ℕ × K)) (taps : List K) :
    (writes.foldl (fun taps write => taps.set write.1 write.2) taps).length = taps.length := by
  induction writes generalizing taps with
  | nil => rfl
  | cons write writes ih => rw [List.foldl_cons, ih, List.length_set]

/-- A place that is only ever written one value holds it, once it is written. -/
theorem getElem?_foldl_set {p : ℕ} {v : K} {writes : List (ℕ × K)} {taps : List K}
    (hp : p < taps.length) (hvalue : ∀ write ∈ writes, write.1 = p → write.2 = v)
    (hwritten : taps[p]? = some v ∨ ∃ write ∈ writes, write.1 = p) :
    (writes.foldl (fun taps write => taps.set write.1 write.2) taps)[p]? = some v := by
  induction writes generalizing taps with
  | nil =>
    obtain hheld | ⟨write, hmem, -⟩ := hwritten
    · exact hheld
    · exact absurd hmem List.not_mem_nil
  | cons write writes ih =>
    rw [List.foldl_cons]
    refine ih (by rwa [List.length_set])
      (fun later hlater => hvalue later (List.mem_cons_of_mem _ hlater)) ?_
    by_cases hhere : write.1 = p
    · left
      rw [hhere, List.getElem?_set_self hp, hvalue write List.mem_cons_self hhere]
    · obtain hheld | ⟨later, hmem, hlater⟩ := hwritten
      · left
        rw [List.getElem?_set_ne hhere, hheld]
      · obtain rfl | hmem := List.mem_cons.mp hmem
        · exact absurd hlater hhere
        · exact .inr ⟨later, hmem, hlater⟩

variable (m n : ℕ) (hZero : ℕ → K) (coeffs : List K)

/-- What the turn `i` of the loop writes. -/
def windowedValue (i : ℕ) : K := hZero (sourceIndex m n i).toNat * coeffs.getD i 0

theorem mem_tapWrites {write : ℕ × K} :
    write ∈ tapWrites m n hZero coeffs ↔ ∃ i ≤ (n - 1) / 2,
      (write.1 = i ∨ write.1 = n - 1 - i) ∧ write.2 = windowedValue m n hZero coeffs i := by
  simp only [tapWrites, List.mem_flatMap, List.mem_range, Nat.lt_succ_iff, List.mem_cons,
    List.not_mem_nil, or_false, windowedValue, Prod.ext_iff]
  refine exists_congr fun i => and_congr_right fun _ => ?_
  constructor
  · rintro (⟨hplace, hvalue⟩ | ⟨hplace, hvalue⟩)
    · exact ⟨.inl hplace, hvalue⟩
    · exact ⟨.inr hplace, hvalue⟩
  · rintro ⟨hplace | hplace, hvalue⟩
    · exact .inl ⟨hplace, hvalue⟩
    · exact .inr ⟨hplace, hvalue⟩

theorem count_tapWrites {p : ℕ} (hp : p < n) :
    ((tapWrites m n hZero coeffs).map Prod.fst).count p =
      if n % 2 = 1 ∧ p = (n - 1) / 2 then 2 else 1 := by
  have hcount : ∀ turns, turns ≤ n →
      (((List.range turns).flatMap fun i =>
        [(i, windowedValue m n hZero coeffs i),
          (n - 1 - i, windowedValue m n hZero coeffs i)]).map Prod.fst).count p =
      (if p < turns then 1 else 0) + if n - 1 - p < turns then 1 else 0 := by
    intro turns hturns
    induction turns with
    | zero => rfl
    | succ turns ih =>
      rw [List.range_succ, List.flatMap_append, List.map_append, List.count_append, ih (by omega)]
      simp only [List.flatMap_cons, List.flatMap_nil, List.append_nil, List.map_cons, List.map_nil,
        List.count_cons, List.count_nil, beq_iff_eq]
      split_ifs <;> omega
  refine (hcount ((n - 1) / 2 + 1) (by omega)).trans ?_
  split_ifs <;> omega

theorem length_writeTaps (writes : List (ℕ × K)) : (writeTaps n writes).length = n := by
  rw [writeTaps, length_foldl_set, List.length_replicate]

theorem getD_writeTaps {p : ℕ} (hp : p < n) :
    (writeTaps n (tapWrites m n hZero coeffs)).getD p 0 =
      windowedValue m n hZero coeffs (min p (n - 1 - p)) := by
  have hheld : (writeTaps n (tapWrites m n hZero coeffs))[p]? =
      some (windowedValue m n hZero coeffs (min p (n - 1 - p))) := by
    refine getElem?_foldl_set (by rwa [List.length_replicate]) ?_ (.inr ?_)
    · intro write hmem hplace
      obtain ⟨i, hi, hside, hvalue⟩ := (mem_tapWrites m n hZero coeffs).mp hmem
      have hmin : min p (n - 1 - p) = i := by omega
      rw [hvalue, hmin]
    · refine ⟨(p, windowedValue m n hZero coeffs (min p (n - 1 - p))),
        (mem_tapWrites m n hZero coeffs).mpr ⟨min p (n - 1 - p), by omega, ?_, rfl⟩, rfl⟩
      dsimp only
      omega
  rw [List.getD_eq_getElem?_getD, hheld, Option.getD_some]

end Writes

/-- Where the samples are found is inside the response. -/
theorem sourceIndex_mem {m n i : ℕ} (hi : i ≤ (n - 1) / 2) (hm : n ≤ m) (hn : 0 < n) :
    0 ≤ sourceIndex m n i ∧ sourceIndex m n i < m := by
  rw [sourceIndex]
  dsimp only
  split_ifs
  · omega
  · have hlow := Int.lt_tmod_of_pos ((i : ℤ) - ((n - 1) / 2 : ℕ)) (b := m) (by omega)
    refine ⟨Int.tmod_nonneg _ (by omega), Int.tmod_lt_of_pos _ (by omega)⟩

/-- Of an odd number of taps, the samples before the middle one are found a turn later. -/
theorem sourceIndex_odd {m n i : ℕ} (hodd : n % 2 = 1) (hi : i ≤ (n - 1) / 2) (hm : n ≤ m) :
    ∃ turns : ℕ, turns ≤ 1 ∧ sourceIndex m n i = (i : ℤ) - ((n - 1) / 2 : ℕ) + turns * m := by
  have hback : ((i : ℤ) - ((n - 1) / 2 : ℕ)).tmod m = (i : ℤ) - ((n - 1) / 2 : ℕ) := by
    have hneg : (i : ℤ) - ((n - 1) / 2 : ℕ) = -(((n - 1) / 2 - i : ℕ) : ℤ) := by omega
    rw [hneg, Int.neg_tmod, Int.tmod_eq_of_lt (by omega) (by omega)]
  rw [sourceIndex]
  dsimp only
  rw [if_neg (by omega), hback]
  obtain hmiddle | hbefore := hi.eq_or_lt
  · refine ⟨0, zero_le_one, ?_⟩
    have hzero : (i : ℤ) - ((n - 1) / 2 : ℕ) = 0 := by omega
    rw [hzero, zero_add, Int.tmod_self]
    simp
  · refine ⟨1, le_rfl, ?_⟩
    rw [Int.tmod_eq_of_lt (by omega) (by omega)]
    simp

/-! ### The response -/

/-- The real functions. -/
noncomputable def realFir : FirMath ℝ where
  toCepstrumMath := realCepstrum
  sqrt := Real.sqrt
  log10 x := Real.log x / Real.log 10

/-- The grid that is interpolated: the one that is given, and for an even number of taps without its
Nyquist bin. -/
def interpolatedGrid (magnitudeHalfGrid : List ℝ) (m n k : ℕ) : ℝ :=
  if n % 2 = 0 ∧ k = m / 2 then 0 else magnitudeHalfGrid.getD k 0

/-- A bin turned by half a sample, turned on by whole ones. -/
theorem turned_mul_cis (x angle more : ℝ) :
    turned (ofReal x * cis realTrig angle) more = x * Real.cos (angle + more) := by
  rw [turned, Real.cos_add, cis, ofReal]
  simp only [QuadraticAlgebra.re_mul, QuadraticAlgebra.im_mul, realTrig]
  ring

variable {levels n p : ℕ} (A : List ℝ)

/-- The bins of an even number of taps give the response half a sample after the whole ones. -/
theorem response_even (heven : n % 2 = 0) (hp : p < 2 ^ (levels + 1)) :
    realFftInverse realTrig (2 ^ (levels + 1))
        (linearPhaseSpectrum realFir A (2 ^ (levels + 1)) n) p =
      trigInterpolation (2 ^ levels) (interpolatedGrid A (2 ^ (levels + 1)) n) (p + 1 / 2) := by
  have hpos := Nat.two_pow_pos levels
  have hhalf : 2 ^ (levels + 1) / 2 = 2 ^ levels := Fft.two_pow_half _
  have hzero : (linearPhaseSpectrum realFir A (2 ^ (levels + 1)) n 0).re = A.getD 0 0 := by
    rw [linearPhaseSpectrum, if_pos heven]
    dsimp only
    rw [hhalf, if_pos hpos]
    simp [ofReal, cis, realFir, realCepstrum, realTrig]
  have hnyquist : (linearPhaseSpectrum realFir A (2 ^ (levels + 1)) n (2 ^ levels)).re = 0 := by
    rw [linearPhaseSpectrum, if_pos heven]
    dsimp only
    rw [hhalf, if_neg (lt_irrefl _), if_pos rfl]
    rfl
  have hinterior : ∀ k ∈ Finset.Ico 1 (2 ^ levels),
      turned (linearPhaseSpectrum realFir A (2 ^ (levels + 1)) n k)
          (2 * Real.pi * k * p / (2 ^ (levels + 1) : ℕ)) =
        interpolatedGrid A (2 ^ (levels + 1)) n k *
          Real.cos (2 * Real.pi * k * (p + 1 / 2) / (2 * 2 ^ levels : ℕ)) := by
    intro k hk
    obtain ⟨-, hlt⟩ := Finset.mem_Ico.mp hk
    rw [linearPhaseSpectrum, if_pos heven]
    dsimp only
    rw [hhalf, if_pos hlt, interpolatedGrid, hhalf, if_neg fun h => hlt.ne h.2]
    refine (turned_mul_cis _ _ _).trans ?_
    congr 2
    rw [← pow_succ']
    simp only [realFir, realCepstrum, realTrig]
    ring
  rw [realFftInverse_eq_sum hp, hzero, hnyquist, Finset.sum_congr rfl hinterior, trigInterpolation,
    interpolatedGrid, interpolatedGrid, hhalf, if_neg fun h => hpos.ne h.2, if_pos ⟨heven, rfl⟩,
    ← pow_succ', zero_mul, zero_mul]

/-- Those of an odd number give it at the whole samples. -/
theorem response_odd (hodd : n % 2 = 1) (hp : p < 2 ^ (levels + 1)) :
    realFftInverse realTrig (2 ^ (levels + 1))
        (linearPhaseSpectrum realFir A (2 ^ (levels + 1)) n) p =
      trigInterpolation (2 ^ levels) (interpolatedGrid A (2 ^ (levels + 1)) n) p := by
  have hspectrum : linearPhaseSpectrum realFir A (2 ^ (levels + 1)) n =
      fun k => ofReal (interpolatedGrid A (2 ^ (levels + 1)) n k) := by
    funext k
    rw [linearPhaseSpectrum, if_neg (by omega), interpolatedGrid, if_neg (by omega)]
  rw [hspectrum, realFftInverse_ofReal hp]

/-- The sample of the response that a tap is made of. -/
theorem response_sourceIndex {i : ℕ} (hn : 0 < n) (hm : n ≤ 2 ^ (levels + 1))
    (hi : i ≤ (n - 1) / 2) :
    realFftInverse realTrig (2 ^ (levels + 1))
        (linearPhaseSpectrum realFir A (2 ^ (levels + 1)) n)
        (sourceIndex (2 ^ (levels + 1)) n i).toNat =
      trigInterpolation (2 ^ levels) (interpolatedGrid A (2 ^ (levels + 1)) n)
        ((i : ℝ) - ((n : ℝ) - 1) / 2) := by
  obtain ⟨hnonneg, hlt⟩ := sourceIndex_mem hi hm hn
  have hp : (sourceIndex (2 ^ (levels + 1)) n i).toNat < 2 ^ (levels + 1) := by omega
  have hcast : ((sourceIndex (2 ^ (levels + 1)) n i).toNat : ℝ) =
      ((sourceIndex (2 ^ (levels + 1)) n i : ℤ) : ℝ) := by
    rw [← Int.cast_natCast, Int.toNat_of_nonneg hnonneg]
  obtain ⟨half, hhalf⟩ : ∃ half, half = (n - 1) / 2 := ⟨_, rfl⟩
  obtain heven | hodd := Nat.mod_two_eq_zero_or_one n
  · have hindex : sourceIndex (2 ^ (levels + 1)) n i = half - i := by
      rw [sourceIndex, hhalf]
      exact if_pos heven
    have hlength : (n : ℝ) = 2 * half + 2 := by
      have : n = 2 * half + 2 := by omega
      exact_mod_cast this
    have htime : (i : ℝ) - ((n : ℝ) - 1) / 2 =
        -((sourceIndex (2 ^ (levels + 1)) n i : ℤ) + 1 / 2 : ℝ) := by
      rw [hindex, hlength]
      push_cast
      ring
    rw [response_even A heven hp, hcast, htime, trigInterpolation_neg]
  · obtain ⟨turns, hturns, hindex⟩ := sourceIndex_odd hodd hi hm
    have hlength : (n : ℝ) = 2 * half + 1 := by
      have : n = 2 * half + 1 := by omega
      exact_mod_cast this
    have htime : ((sourceIndex (2 ^ (levels + 1)) n i : ℤ) : ℝ) =
        (i : ℝ) - ((n : ℝ) - 1) / 2 + turns * (2 * 2 ^ levels : ℕ) := by
      rw [hindex, hlength, ← hhalf]
      push_cast
      ring
    rw [response_odd A hodd hp, hcast, htime]
    obtain rfl | rfl := Nat.le_one_iff_eq_zero_or_eq_one.mp hturns
    · rw [Nat.cast_zero, zero_mul, add_zero]
    · rw [Nat.cast_one, one_mul, trigInterpolation_add_turn (Nat.two_pow_pos levels)]

/-! ### The linear phase path -/

/-- What the loop writes, for a size that the transform takes. -/
theorem linearPhaseWrites_eq (windowType : WindowType) (hn : 0 < n)
    (hgrid : A.length = 2 ^ (levels + 1) + 1) :
    ∃ hZero w, Window.make realTrig windowType n (1 / 2) = .ok w ∧
      linearPhaseWrites realFir A (2 ^ (levels + 2)) n windowType =
        .ok (tapWrites (2 ^ (levels + 2)) n hZero w.coefficients) ∧
      ∀ p < 2 ^ (levels + 2), hZero p = realFftInverse realTrig (2 ^ (levels + 2))
        (linearPhaseSpectrum realFir A (2 ^ (levels + 2)) n) p := by
  have hhalf : 2 ^ (levels + 2) / 2 = 2 ^ (levels + 1) := Fft.two_pow_half _
  obtain ⟨half, hmake⟩ := RealFftTables.exists_make realTrig levels
  obtain ⟨hZero, hinverse, hsamples⟩ := RealFftTables.inverse_eq trigRoots_real hmake
    (linearPhaseSpectrum realFir A (2 ^ (levels + 2)) n)
  refine ⟨hZero, _, Window.make_eq realTrig windowType hn (1 / 2), ?_, hsamples⟩
  rw [hhalf] at hinverse
  rw [linearPhaseWrites, show realFir.trig = realTrig from rfl, hmake]
  simp only [bind, Except.bind, RealFftTables.numBins, hhalf, hgrid, ne_eq, not_true_eq_false,
    if_false, hinverse, Window.make_eq realTrig windowType hn]
  rfl

theorem measureDesign_eq_ok (taps : List ℝ) (levels : ℕ) :
    ∃ metrics, measureDesign realFir taps (2 ^ (levels + 2)) = .ok metrics := by
  obtain ⟨half, hmake⟩ := RealFftTables.exists_make realTrig levels
  obtain ⟨spectrum, hforward, -⟩ := RealFftTables.forward_eq hmake fun i => taps.getD i 0
  rw [measureDesign, show realFir.trig = realTrig from rfl, hmake]
  simp only [bind, Except.bind, RealFftTables.numBins, hforward]
  exact ⟨_, rfl⟩

theorem designFir_eq (windowType : WindowType) {sampleRate : ℝ} {writes : List (ℕ × ℝ)}
    (hrate : 0 < sampleRate) (hn : 8 ≤ n) (hgrid : A.length = 2 ^ (levels + 1) + 1)
    (hfit : n ≤ 2 ^ (levels + 1))
    (hwrites : linearPhaseWrites realFir A (2 ^ (levels + 2)) n windowType = .ok writes) :
    ∃ result, designFir realFir A sampleRate n .linear windowType .frequencySampling = .ok result ∧
      result.taps = writeTaps n writes := by
  have hhalf : 2 ^ (levels + 2) / 2 = 2 ^ (levels + 1) := Fft.two_pow_half _
  have hsize : 2 * 2 ^ (levels + 1) = 2 ^ (levels + 2) := (pow_succ' 2 (levels + 1)).symm
  have hcommon : (validateCommon sampleRate n : Except String PUnit.{1}) = .ok ⟨⟩ := by
    rw [validateCommon, if_neg hrate.not_ge, if_neg (by omega)]
  have hbins : ¬ 2 ^ (levels + 1) + 1 < 5 := by omega
  obtain ⟨metrics, hmetrics⟩ := measureDesign_eq_ok (writeTaps n writes) levels
  simp only [designFir, designFirCore, designLinearPhaseCore, hcommon, hgrid, Nat.add_sub_cancel,
    isPowerOfTwo_two_pow, hbins, hsize, hhalf, hwrites, hmetrics, bind, Except.bind, pure,
    Except.pure, ne_eq, not_true_eq_false, decide_false, Bool.not_true, Bool.or_self,
    Bool.false_eq_true, if_false, not_lt.mpr hfit]
  exact ⟨_, rfl, rfl⟩

omit levels p A in
/-- An even number of taps that are alike from both ends has no response at Nyquist. -/
theorem sum_alternating_eq_zero {taps : ℕ → ℝ} (heven : n % 2 = 0)
    (hmirror : ∀ i < n, taps i = taps (n - 1 - i)) :
    ∑ i ∈ Finset.range n, (-1) ^ i * taps i = 0 := by
  have hreflect := Finset.sum_range_reflect (fun i => (-1) ^ i * taps i) n
  have hopposite : ∑ i ∈ Finset.range n, (-1) ^ (n - 1 - i) * taps (n - 1 - i) =
      -∑ i ∈ Finset.range n, (-1) ^ i * taps i := by
    rw [← Finset.sum_neg_distrib]
    refine Finset.sum_congr rfl fun i hi => ?_
    have hi := Finset.mem_range.mp hi
    have hsign : (-1 : ℝ) ^ (n - 1 - i) = -(-1) ^ i := by
      have hodd : Odd (n - 1 - i + i) := by
        rw [Nat.odd_iff]
        omega
      have hprod : (-1 : ℝ) ^ (n - 1 - i) * (-1) ^ i = -1 := by
        rw [← pow_add, hodd.neg_one_pow]
      have hsquare : (-1 : ℝ) ^ i * (-1) ^ i = 1 := by
        rw [← mul_pow, neg_one_mul, neg_neg, one_pow]
      linear_combination (-1 : ℝ) ^ i * hprod - (-1 : ℝ) ^ (n - 1 - i) * hsquare
    rw [hsign, ← hmirror i hi, neg_mul]
  linarith

/-- **Headline.** The linear phase path of `designFir`: the loop writes every tap once, but for the
middle one of an odd number, that it writes twice with one value; the taps are alike from both ends,
and are the windowed response around the middle, that of an even number having no Nyquist bin. -/
theorem designFir_linearPhase (magnitudeHalfGrid : List ℝ) (sampleRate : ℝ) (N levels : ℕ)
    (windowType : WindowType) (hrate : 0 < sampleRate) (hN : 8 ≤ N)
    (hgrid : magnitudeHalfGrid.length = 2 ^ levels + 1) (hfit : 2 * N ≤ 2 ^ (levels + 1)) :
    ∃ (result : FirResult ℝ) (writes : List (ℕ × ℝ)) (w : Window ℝ),
      designFir realFir magnitudeHalfGrid sampleRate N .linear windowType .frequencySampling =
        .ok result ∧
      linearPhaseWrites realFir magnitudeHalfGrid (2 ^ (levels + 1)) N windowType = .ok writes ∧
      Window.make realTrig windowType N (1 / 2) = .ok w ∧
      result.taps = writeTaps N writes ∧ result.taps.length = N ∧
      (∀ n < N, (writes.map Prod.fst).count n = if N % 2 = 1 ∧ n = (N - 1) / 2 then 2 else 1) ∧
      (∀ write ∈ writes, write.1 < N ∧ result.taps.getD write.1 0 = write.2) ∧
      (∀ n ≤ (N - 1) / 2, n < w.coefficients.length ∧
        0 ≤ sourceIndex (2 ^ (levels + 1)) N n ∧
        sourceIndex (2 ^ (levels + 1)) N n < (2 ^ (levels + 1) : ℕ)) ∧
      (∀ n < N, result.taps.getD n 0 = result.taps.getD (N - 1 - n) 0) ∧
      (∀ n ≤ (N - 1) / 2, result.taps.getD n 0 = w.coefficients.getD n 0 *
        trigInterpolation (2 ^ levels) (interpolatedGrid magnitudeHalfGrid (2 ^ (levels + 1)) N)
          ((n : ℝ) - ((N : ℝ) - 1) / 2)) ∧
      (N % 2 = 0 → ∑ n ∈ Finset.range N, (-1) ^ n * result.taps.getD n 0 = 0) := by
  obtain ⟨levels, rfl⟩ : ∃ more, levels = more + 1 := by
    refine Nat.exists_eq_succ_of_ne_zero fun hzero => ?_
    rw [hzero] at hfit
    omega
  have hsize : 2 * 2 ^ (levels + 1) = 2 ^ (levels + 2) := (pow_succ' 2 (levels + 1)).symm
  obtain ⟨hZero, w, hmake, hwrites, hresponse⟩ :=
    linearPhaseWrites_eq magnitudeHalfGrid windowType (by omega : 0 < N) hgrid
  obtain ⟨result, hresult, htaps⟩ :=
    designFir_eq magnitudeHalfGrid windowType hrate hN hgrid (by omega) hwrites
  have hw : w.coefficients.length = N := by
    rw [Window.make_eq realTrig windowType (by omega : 0 < N)] at hmake
    rw [← Except.ok.inj hmake, List.length_map, List.length_range]
  have htap : ∀ n < N, result.taps.getD n 0 =
      windowedValue (2 ^ (levels + 2)) N hZero w.coefficients (min n (N - 1 - n)) := by
    intro n hn
    rw [htaps, getD_writeTaps _ _ _ _ hn]
  have hmirror : ∀ n < N, result.taps.getD n 0 = result.taps.getD (N - 1 - n) 0 := by
    intro n hn
    have hmin : min (N - 1 - n) (N - 1 - (N - 1 - n)) = min n (N - 1 - n) := by omega
    rw [htap n hn, htap (N - 1 - n) (by omega), hmin]
  refine ⟨result, _, w, hresult, hwrites, hmake, htaps, ?_, fun n hn => count_tapWrites _ _ _ _ hn,
    fun write hmem => ?_, fun n hn => ?_, hmirror, fun n hn => ?_,
    fun heven => sum_alternating_eq_zero heven hmirror⟩
  · rw [htaps, length_writeTaps]
  · obtain ⟨i, hi, hside, hvalue⟩ := (mem_tapWrites _ _ _ _).mp hmem
    have hlt : write.1 < N := by omega
    have hmin : min write.1 (N - 1 - write.1) = i := by omega
    exact ⟨hlt, by rw [htap _ hlt, hmin, hvalue]⟩
  · exact ⟨by omega, sourceIndex_mem hn (by omega) (by omega)⟩
  · have hmin : min n (N - 1 - n) = n := by omega
    obtain ⟨hnonneg, hlt⟩ := sourceIndex_mem (m := 2 ^ (levels + 2)) hn (by omega) (by omega)
    rw [htap n (by omega), hmin, windowedValue, hresponse _ (by omega),
      response_sourceIndex magnitudeHalfGrid (by omega) (by omega) hn, mul_comm]

/-- Nine taps of a flat grid. -/
theorem designFir_linearPhase_nine : ∃ result : FirResult ℝ,
    designFir realFir (List.replicate 17 1) 48000 9 .linear .hann .frequencySampling =
        .ok result ∧
      result.taps.length = 9 ∧ result.taps.getD 0 0 = result.taps.getD 8 0 := by
  obtain ⟨result, writes, w, hresult, -, -, -, hlength, -, -, -, hmirror, -⟩ :=
    designFir_linearPhase (List.replicate 17 1) 48000 9 4 .hann (by norm_num) (by norm_num) rfl
      (by norm_num)
  exact ⟨result, hresult, hlength, hmirror 0 (by norm_num)⟩

/-- The middle one of nine taps is written twice. -/
theorem linearPhaseWrites_nine : ∃ writes,
    linearPhaseWrites realFir (List.replicate 17 1) 32 9 .hann = .ok writes ∧
      (writes.map Prod.fst).count 4 = 2 ∧
      ¬ ∀ n < 9, (writes.map Prod.fst).count n = 1 := by
  have hgrid : (List.replicate 17 (1 : ℝ)).length = 2 ^ (3 + 1) + 1 := rfl
  obtain ⟨hZero, w, -, hwrites, -⟩ :=
    linearPhaseWrites_eq (List.replicate 17 1) .hann (by norm_num : 0 < 9) hgrid
  have hcount := count_tapWrites (2 ^ (3 + 2)) 9 hZero w.coefficients (by norm_num : 4 < 9)
  rw [if_pos ⟨rfl, rfl⟩] at hcount
  refine ⟨_, hwrites, hcount, fun hall => ?_⟩
  rw [hall 4 (by norm_num)] at hcount
  exact absurd hcount (by norm_num)

end Dsp

end RtaTool
