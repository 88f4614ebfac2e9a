import RtaTool.Dsp.Refusals
import RtaTool.Dsp.TransferEstimator
import RtaTool.Ir.Deconvolver

/-!
# The polarity of an arrival

`Polarity.cpp`. The sign of the first excursion that reaches a part of the peak, unless the sweep,
the band of the arrival, the noise before it or the capture says that there is no answer. The edges
of the band are read off the magnitudes of a spectrum, of a window that is made longer once where it
does not resolve the lower one.

Everything but the sign is read off magnitudes, and these are those of the negated samples as well.

## Main definitions

* `PolarityConfig`, `PolarityResult`, `PolarityMath`
* `interpolatedCrossing`, `bandEdges`, `findPolarity`
* `Deconvolution.negate`, `flipSign`

## Main results

* `magnitudes_negate` -- the spectrum of a negated window
* `findPolarity_negate` -- **Headline.** Negated samples, and when there is a sign
-/

namespace RtaTool

namespace Ir

open Dsp Fft

/-! ### Configuration and result -/

/-- `PolarityConfig`. -/
structure PolarityConfig (K : Type*) where
  arrivalFraction : K
  searchSeconds : K
  minConfidenceDb : K
  gateLowHz : K
  gateHighHz : K

/-- `PolarityResult`. -/
structure PolarityResult (K : Type*) where
  sign : Sign
  refusal : IrRefusal
  arrivalIndex : ℕ
  confidenceDb : K
  lowEdgeHz : K
  highEdgeHz : K
  margin : K

/-- The functions of the standard library. -/
structure PolarityMath (K : Type*) [CommRing K] where
  trig : Trig K
  sqrt : K → K
  log : K → K
  log10 : K → K

variable {K : Type*} [Field K] [LinearOrder K] [FloorRing K] (math : PolarityMath K)

/-- `std::llround`: to the nearest integer, ties away from zero. -/
def llround (x : K) : ℤ := if 0 ≤ x then ⌊x + 1 / 2⌋ else -⌊-x + 1 / 2⌋

/-- `static_cast<std::size_t>` of an integer. -/
def toSize (z : ℤ) : ℕ := (z % 2 ^ 64).toNat

/-- `Deconvolution::harmonicOffsetSamples(order)`. -/
def harmonicOffsetSamples (source : Deconvolution K) (order : ℤ) : K :=
  if order ≤ 1 then 0 else -source.harmonicSpacingL * math.log order * source.sampleRate

/-- The samples from `first` to `last`. -/
def samplesBetween (source : Deconvolution K) (first last : ℕ) : List K :=
  (source.samples.drop first).take (last - first)

/-! ### The band edges -/

/-- `Edges`. -/
structure Edges (K : Type*) where
  lowHz : K
  highHz : K
  valid : Bool
  tooShort : Bool

/-- `interpolatedCrossing(magDb, k, kNext, binHz, thresholdDb)`. -/
def interpolatedCrossing (magDb : List K) (k kNext : ℕ) (binHz thresholdDb : K) : K :=
  let y0 := magDb.getD k 0
  let y1 := magDb.getD kNext 0
  if y1 = y0 then k * binHz
  else
    let t := clampBetween 0 1 ((thresholdDb - y0) / (y1 - y0))
    (k + t * ((kNext : K) - k)) * binHz

/-- The magnitudes of the bins of a window. -/
def magnitudes (source : Deconvolution K) (first last : ℕ) : List K :=
  let fftSize := nextPowerOfTwo (last - first)
  let bins := realFftForward math.trig fftSize (padded (samplesBetween source first last))
  (List.range (fftSize / 2 + 1)).map fun k => cplxAbs math.sqrt (bins k)

/-- What the loop over the excited band finds. -/
structure BandScan (K : Type*) where
  firstBin : ℕ
  lastBin : ℕ
  peak : K

/-- The loop over the bins of the excited band. -/
def scanBand (magnitude : List K) (binHz lowLimit highLimit : K) : BandScan K :=
  (List.range' 1 (magnitude.length - 1)).foldl
    (fun (scan : BandScan K) (k : ℕ) =>
      let hz := k * binHz
      if hz < lowLimit ∨ highLimit < hz then scan
      else
        { firstBin := min scan.firstBin k
          lastBin := max scan.lastBin k
          peak := max scan.peak (magnitude.getD k 0) })
    { firstBin := magnitude.length, lastBin := 0, peak := 0 }

/-- The loop that looks for the edges: the lowest and the highest bin that are loud enough. -/
def loudBins (magDb : List K) (firstBin lastBin : ℕ) : Option (ℕ × ℕ) :=
  (List.range' firstBin (lastBin + 1 - firstBin)).foldl
    (fun found k =>
      if magDb.getD k 0 < -10 then found
      else some (match found with | none => k | some (lowBin, _) => lowBin, k))
    none

/-- A pass of `bandEdges`, with what a first pass does with a window that is too short. -/
def bandEdgesPass (source : Deconvolution K) (first last : ℕ) (lowClampHz highClampHz cycles : K)
    (longer : Option (ℕ → Edges K)) : Edges K :=
  let nothing : Edges K := { lowHz := 0, highHz := 0, valid := false, tooShort := false }
  if last ≤ first ∨ source.samples.length < last then nothing
  else
    let span := last - first
    let fftSize := nextPowerOfTwo span
    let magnitude := magnitudes math source first last
    let binHz := source.sampleRate / fftSize
    let lowLimit := if 0 < lowClampHz then lowClampHz else 0
    let highLimit := if 0 < highClampHz then highClampHz else source.sampleRate
    let scan := scanBand magnitude binHz lowLimit highLimit
    if scan.lastBin < scan.firstBin ∨ scan.peak ≤ 0 then nothing
    else
      let magDb := magnitude.map fun m => 20 * math.log10 (max m ((1e-30 : ℚ) : K) / scan.peak)
      match loudBins magDb scan.firstBin scan.lastBin with
      | none => nothing
      | some (lowBin, highBin) =>
        if highBin < lowBin then nothing
        else
          let measured : Edges K :=
            { lowHz :=
                if scan.firstBin < lowBin
                  then interpolatedCrossing magDb lowBin (lowBin - 1) binHz (-10)
                  else lowBin * binHz
              highHz :=
                if highBin < scan.lastBin
                  then interpolatedCrossing magDb highBin (highBin + 1) binHz (-10)
                  else highBin * binHz
              valid := true
              tooShort := false }
          match longer with
          | none => measured
          | some longer =>
            let roughLowHz := max (lowBin * binHz) 1
            let needed := toSize ⌈cycles * source.sampleRate / roughLowHz⌉
            if span < needed then
              if (first + needed) % 2 ^ 64 ≤ source.samples.length then
                longer ((first + needed) % 2 ^ 64)
              else { nothing with tooShort := true }
            else measured

/-- `bandEdges(source, from, to, lowClampHz, highClampHz)`, with its ten cycles. The second pass
does not call itself. -/
def bandEdges (source : Deconvolution K) (first last : ℕ) (lowClampHz highClampHz : K) : Edges K :=
  bandEdgesPass math source first last lowClampHz highClampHz 10
    (some fun last' =>
      bandEdgesPass math source first last' lowClampHz highClampHz 10 none)

/-! ### The verdict -/

/-- The loop that looks for the largest excursion against the verdict. -/
def oppositeOf (verdict : Sign) (window : List K) : K :=
  window.foldl
    (fun opposite v =>
      if (if verdict = .positive then v < 0 else 0 < v) then max opposite |v| else opposite)
    0

/-- `findPolarity`, from the verdict on. -/
def polarityVerdict (config : PolarityConfig K) (originIndex : ℕ) (window : List K) (peak : K)
    (edges : Edges K) (out : PolarityResult K) : PolarityResult K :=
  match window.findIdx? fun v => config.arrivalFraction * peak ≤ |v| with
  | none => out
  | some i =>
    let verdict : Sign := if 0 < window.getD i 0 then .positive else .negative
    let opposite := oppositeOf verdict window
    let out := { out with arrivalIndex := originIndex + i, margin := opposite / peak }
    if ¬ edges.valid then { out with refusal := .noSignal }
    else if config.gateLowHz < out.lowEdgeHz then { out with refusal := .bandTooLow }
    else if out.highEdgeHz < config.gateHighHz then { out with refusal := .bandTooHigh }
    else if out.confidenceDb < config.minConfidenceDb then { out with refusal := .noSignal }
    else { out with sign := verdict, refusal := .none }

/-- `findPolarity(source, config)`. -/
def findPolarity (source : Deconvolution K) (config : PolarityConfig K) :
    Except String (PolarityResult K) :=
  if ¬ 0 < source.sampleRate then .error "findPolarity: sampleRate must be positive"
  else if ¬ 0 < config.arrivalFraction ∨ ¬ config.arrivalFraction ≤ 1 then
    .error "findPolarity: arrivalFraction must be in (0, 1]"
  else
    let out : PolarityResult K :=
      { sign := .unknown, refusal := .noSignal, arrivalIndex := 0, confidenceDb := 0
        lowEdgeHz := 0, highEdgeHz := 0, margin := 0 }
    if 0 < source.trustedLowHz ∧ config.gateLowHz < source.trustedLowHz ∨
        0 < source.trustedHighHz ∧ source.trustedHighHz < config.gateHighHz then
      .ok { out with refusal := .sweepBandInsufficient }
    else
      let span := toSize (llround (config.searchSeconds * source.sampleRate))
      let last := min ((source.originIndex + span) % 2 ^ 64) source.samples.length
      if last ≤ source.originIndex then .ok out
      else
        let window := samplesBetween source source.originIndex last
        let peak := window.foldl (fun peak v => max peak |v|) 0
        if peak ≤ 0 then .ok out
        else
          let edges := bandEdges math source source.originIndex last
            source.excitationLowHz source.excitationHighHz
          if edges.tooShort then .ok { out with refusal := .captureTooShort }
          else
            let out := { out with lowEdgeHz := edges.lowHz, highEdgeHz := edges.highHz }
            let h2 := toSize (llround (-harmonicOffsetSamples math source 2))
            if h2 = 0 ∨ source.originIndex < h2 then .ok { out with refusal := .noNoiseEstimate }
            else
              let noiseFrom := source.originIndex - h2
              let noise := samplesBetween source noiseFrom source.originIndex
              let sumSq := noise.foldl (fun sumSq v => sumSq + v * v) 0
              let count := noise.length
              if count = 0 then .ok { out with refusal := .noNoiseEstimate }
              else
                let noiseRms := math.sqrt (sumSq / count)
                let confidenceDb :=
                  if 0 < noiseRms then 20 * math.log10 (peak / noiseRms) else 0
                let out := { out with confidenceDb }
                .ok (polarityVerdict config source.originIndex window peak edges out)

/-! ### Negated samples -/

omit [LinearOrder K] [FloorRing K] in
/-- The same deconvolution with every sample negated. -/
def Deconvolution.negate (source : Deconvolution K) : Deconvolution K :=
  { source with samples := source.samples.map fun v => -v }

/-- The other sign. -/
def flipSign : Sign → Sign
  | .negative => .positive
  | .unknown => .unknown
  | .positive => .negative

/-- The real functions. -/
noncomputable def realPolarity : PolarityMath ℝ where
  trig := realTrig
  sqrt := Real.sqrt
  log := Real.log
  log10 x := Real.log x / Real.log 10

variable (source : Deconvolution ℝ)

theorem samplesBetween_negate (first last : ℕ) :
    samplesBetween source.negate first last =
      (samplesBetween source first last).map fun v => -v := by
  rw [samplesBetween, samplesBetween, Deconvolution.negate, List.map_take, List.map_drop]

/-- The spectrum of the negated window is the negated one. -/
theorem magnitudes_negate (first last : ℕ) :
    magnitudes realPolarity source.negate first last =
      magnitudes realPolarity source first last := by
  obtain ⟨⟨⟨hfour, levels, hsize⟩, -⟩, -⟩ := nextPowerOfTwo_isLeast (last - first)
  obtain ⟨levels, rfl⟩ : ∃ more, levels = more + 1 := by
    refine Nat.exists_eq_succ_of_ne_zero ?_
    rintro rfl
    omega
  have hneg : ∀ n, padded (samplesBetween source.negate first last) n =
      -padded (samplesBetween source first last) n := by
    intro n
    rw [samplesBetween_negate, padded, padded, List.getD_eq_getElem?_getD, List.getElem?_map,
      List.getD_eq_getElem?_getD]
    cases (samplesBetween source first last)[n]? with
    | none => exact neg_zero.symm
    | some v => rfl
  rw [magnitudes, magnitudes, hsize]
  refine List.map_congr_left fun k hk => ?_
  have hk : k ≤ 2 ^ levels := by
    rw [List.mem_range, Fft.two_pow_half] at hk
    omega
  change cplxAbs Real.sqrt (realFftForward realTrig _ _ k) =
    cplxAbs Real.sqrt (realFftForward realTrig _ _ k)
  rw [trigRoots_real.realFftForward_apply hk, trigRoots_real.realFftForward_apply hk]
  have hdft : dft (realRoot (levels + 1)) (2 ^ (levels + 1))
        (fun n => ofReal (padded (samplesBetween source.negate first last) n)) k =
      (-1 : ℝ) • dft (realRoot (levels + 1)) (2 ^ (levels + 1))
        (fun n => ofReal (padded (samplesBetween source first last) n)) k := by
    rw [← dft_smul]
    refine dft_congr (fun n _ => ?_) k
    rw [hneg, neg_one_smul]
    ext
    · rfl
    · exact neg_zero.symm
  rw [hdft, neg_one_smul, cplxAbs, cplxAbs, QuadraticAlgebra.norm_neg]

theorem bandEdgesPass_negate (first last : ℕ) (lowClampHz highClampHz cycles : ℝ)
    (longer : Option (ℕ → Edges ℝ)) :
    bandEdgesPass realPolarity source.negate first last lowClampHz highClampHz cycles longer =
      bandEdgesPass realPolarity source first last lowClampHz highClampHz cycles longer := by
  have hrate : source.negate.sampleRate = source.sampleRate := rfl
  have hlength : source.negate.samples.length = source.samples.length := List.length_map _
  rw [bandEdgesPass.eq_def, bandEdgesPass.eq_def, magnitudes_negate, hrate, hlength]

theorem bandEdges_negate (first last : ℕ) (lowClampHz highClampHz : ℝ) :
    bandEdges realPolarity source.negate first last lowClampHz highClampHz =
      bandEdges realPolarity source first last lowClampHz highClampHz := by
  simp only [bandEdges, bandEdgesPass_negate]

/-- A loop over a window that reads magnitudes. -/
theorem foldl_negate {f : ℝ → ℝ → ℝ} (hf : ∀ x v, f x (-v) = f x v) (x : ℝ) (window : List ℝ) :
    (window.map fun v => -v).foldl f x = window.foldl f x := by
  rw [List.foldl_map]
  simp only [hf]

theorem oppositeOf_negate {verdict : Sign} (hverdict : verdict ≠ .unknown) (window : List ℝ) :
    oppositeOf (flipSign verdict) (window.map fun v => -v) = oppositeOf verdict window := by
  rw [oppositeOf, oppositeOf, List.foldl_map]
  cases verdict with
  | unknown => exact absurd rfl hverdict
  | negative => simp [flipSign]
  | positive => simp [flipSign]

/-- The result with the other sign. -/
def PolarityResult.flip (result : PolarityResult K) : PolarityResult K :=
  { result with sign := flipSign result.sign }

/-- The sign of the excursion that is found is that of a number that is not zero. -/
theorem flip_verdict {v : ℝ} (hv : v ≠ 0) :
    (if 0 < -v then .positive else .negative : Sign) =
      flipSign (if 0 < v then .positive else .negative) := by
  obtain hneg | hpos := hv.lt_or_gt
  · rw [if_pos (neg_pos.mpr hneg), if_neg hneg.not_gt]
    rfl
  · rw [if_neg (by linarith), if_pos hpos]
    rfl

variable {config : PolarityConfig ℝ}

theorem polarityVerdict_negate (originIndex : ℕ) (window : List ℝ)
    {peak : ℝ} (edges : Edges ℝ) {out : PolarityResult ℝ} (hfraction : 0 < config.arrivalFraction)
    (hpeak : 0 < peak) (hout : out.sign = .unknown) :
    polarityVerdict config originIndex (window.map fun v => -v) peak edges out =
      (polarityVerdict config originIndex window peak edges out).flip := by
  have hflip : out.flip = out := by rw [PolarityResult.flip, hout, flipSign, ← hout]
  have hfind : (window.map fun v => -v).findIdx? (fun v => config.arrivalFraction * peak ≤ |v|) =
      window.findIdx? fun v => config.arrivalFraction * peak ≤ |v| := by
    rw [List.findIdx?_map]
    simp only [Function.comp_def, abs_neg]
  rw [polarityVerdict, polarityVerdict, hfind]
  cases hindex : window.findIdx? fun v => config.arrivalFraction * peak ≤ |v| with
  | none => exact hflip.symm
  | some i =>
    obtain ⟨hi, hreaches, -⟩ := List.findIdx?_eq_some_iff_getElem.mp hindex
    have hv : window.getD i 0 ≠ 0 := by
      rw [List.getD_eq_getElem _ _ hi]
      refine abs_pos.mp ((mul_pos hfraction hpeak).trans_le ?_)
      exact of_decide_eq_true hreaches
    have hget : (window.map fun v => -v).getD i 0 = -window.getD i 0 := by
      rw [List.getD_eq_getElem _ _ hi, List.getD_eq_getElem _ _ (by rwa [List.length_map]),
        List.getElem_map]
    have hverdict : (if 0 < window.getD i 0 then .positive else .negative : Sign) ≠ .unknown := by
      split_ifs <;> decide
    dsimp only
    rw [hget, flip_verdict hv, oppositeOf_negate hverdict]
    split_ifs <;> simp [PolarityResult.flip, flipSign, hout]

theorem ite_eq_map {ε α : Type*} {c : Prop} [Decidable c] {f : α → α} {x x' y y' : Except ε α}
    (hx : c → x = x'.map f) (hy : ¬c → y = y'.map f) :
    (if c then x else y) = (if c then x' else y').map f := by
  split_ifs with hc
  · exact hx hc
  · exact hy hc

/-- **Headline.** The result of the negated samples is that of the samples with the other sign. -/
theorem findPolarity_negate (config : PolarityConfig ℝ) :
    findPolarity realPolarity source.negate config =
      (findPolarity realPolarity source config).map PolarityResult.flip := by
  have hlength : source.negate.samples.length = source.samples.length := List.length_map _
  have hpeak : ∀ window : List ℝ, (window.map fun v => -v).foldl (fun peak v => max peak |v|) 0 =
      window.foldl (fun peak v => max peak |v|) 0 :=
    foldl_negate (fun x v => by rw [abs_neg]) 0
  have hsumSq : ∀ window : List ℝ, (window.map fun v => -v).foldl (fun sum v => sum + v * v) 0 =
      window.foldl (fun sum v => sum + v * v) 0 :=
    foldl_negate (fun x v => by rw [neg_mul_neg]) 0
  have hoffset : harmonicOffsetSamples realPolarity source.negate 2 =
      harmonicOffsetSamples realPolarity source 2 := rfl
  rw [findPolarity.eq_def, findPolarity.eq_def]
  simp only [show source.negate.sampleRate = source.sampleRate from rfl,
    show source.negate.trustedLowHz = source.trustedLowHz from rfl,
    show source.negate.trustedHighHz = source.trustedHighHz from rfl,
    show source.negate.originIndex = source.originIndex from rfl,
    show source.negate.excitationLowHz = source.excitationLowHz from rfl,
    show source.negate.excitationHighHz = source.excitationHighHz from rfl,
    hoffset, hlength, samplesBetween_negate, bandEdges_negate, hpeak, hsumSq, List.length_map]
  refine ite_eq_map (fun _ => rfl) fun _ => ite_eq_map (fun _ => rfl) fun hfraction =>
    ite_eq_map (fun _ => rfl) fun _ => ite_eq_map (fun _ => rfl) fun _ =>
      ite_eq_map (fun _ => rfl) fun hzero => ite_eq_map (fun _ => rfl) fun _ =>
        ite_eq_map (fun _ => rfl) fun _ => ite_eq_map (fun _ => rfl) fun _ => ?_
  rw [not_or, not_not] at hfraction
  rw [polarityVerdict_negate _ _ _ hfraction.1 (not_le.mp hzero) rfl]
  rfl

/-- There is a sign exactly where nothing is refused, in every result. -/
def SignsAgree (found : Except String (PolarityResult ℝ)) : Prop :=
  ∀ result, found = .ok result → (result.sign ≠ .unknown ↔ result.refusal = .none)

theorem findPolarity_sign {source : Deconvolution ℝ}
    {result : PolarityResult ℝ} (h : findPolarity realPolarity source config = .ok result) :
    result.sign ≠ .unknown ↔ result.refusal = .none := by
  have hverdict : ∀ (originIndex : ℕ) (window : List ℝ) (peak : ℝ) (edges : Edges ℝ)
      (out : PolarityResult ℝ), out.sign = .unknown → out.refusal ≠ .none →
      ((polarityVerdict config originIndex window peak edges out).sign ≠ .unknown ↔
        (polarityVerdict config originIndex window peak edges out).refusal = .none) := by
    intro originIndex window peak edges out hsign hrefusal
    rw [polarityVerdict]
    cases window.findIdx? fun v => config.arrivalFraction * peak ≤ |v| with
    | none => simp [hsign, hrefusal]
    | some i =>
      dsimp only
      split_ifs <;> simp [hsign]
  have herror : ∀ what : String, SignsAgree (.error what) := fun _ _ hok => nomatch hok
  have hrefused : ∀ out : PolarityResult ℝ, out.sign = .unknown → out.refusal ≠ .none →
      SignsAgree (.ok out) := by
    rintro out hsign hrefusal _ ⟨⟩
    simp [hsign, hrefusal]
  have hnoise : IrRefusal.noNoiseEstimate ≠ .none := by decide
  suffices hagree : SignsAgree (findPolarity realPolarity source config) from hagree result h
  rw [findPolarity.eq_def]
  refine iteInduction (fun _ => herror _) fun _ => iteInduction (fun _ => herror _) fun _ =>
    iteInduction (fun _ => hrefused _ rfl (by decide)) fun _ =>
      iteInduction (fun _ => hrefused _ rfl (by decide)) fun _ =>
        iteInduction (fun _ => hrefused _ rfl (by decide)) fun _ =>
          iteInduction (fun _ => hrefused _ rfl (by decide)) fun _ =>
            iteInduction (fun _ => hrefused _ rfl hnoise) fun _ =>
              iteInduction (fun _ => hrefused _ rfl hnoise) fun _ => ?_
  rintro _ ⟨⟩
  exact hverdict _ _ _ _ _ rfl (by simp)

end Ir

end RtaTool
