import RtaTool.Ir.Polarity
import RtaTool.Lib.FirstMax
import RtaTool.Lib.PhasorSum
import RtaTool.Measure.CrossoverTopology

/-!
# The delay between two sides of a crossover

`CrossoverBandFit.cpp` in exact arithmetic. The gated bins of a window are phasors, each turned by
the phase of one side relative to the other. The modulus of their sum is sampled at delays on a
grid, the samples that are above both neighbours are refined by a parabola, and the candidates are
ranked by how far the phasors agree.

Where one delay explains the band the modulus is that of a `PhasorSum` around the delay. A grid that
is too coarse for the band can pass over its first lobe.

## Main definitions

* `gatedBins`, `sumAt`, `parabolicOffset`, `localMaxima`, `candidates`, `crossoverBandFit`
* `OneDelay` -- a band that is one delay and one constant
* `Resolved` -- a grid that is fine enough for it

## Main results

* `OneDelay.exists_resolved`, `OneDelay.resolved_of_narrow` -- grids that are fine enough
* `crossoverBandFit_spec` -- **Headline.** What is fitted to one delay
* `crossoverBandFit_coarse` -- a grid that is too coarse
-/

namespace RtaTool

namespace Dsp

open scoped ComplexConjugate

/-! ### `CrossoverBandFit.cpp` -/

/-- `BandFitOptions`. -/
structure BandFitOptions where
  centreHz : ℝ := 0
  octavesEachSide : ℝ := 1
  tauRangeSeconds : ℝ := 0.020
  tauGridSeconds : ℝ := 1e-6
  maxCycleCandidates : ℤ := 3
  minimumGatedCoherence : ℝ := 0
  appliedDelayDifferenceSamples : ℝ := 0
  sampleRate : ℝ := 48000

/-- What `crossoverBandFit` is given besides. -/
structure BandFitInput where
  hA : List ℂ
  hB : List ℂ
  coherenceA : Option (List ℝ)
  coherenceB : Option (List ℝ)
  binWidthHz : ℝ

/-- `DelayCandidateTau`. -/
structure DelayCandidateTau where
  tauSeconds : ℝ := 0
  agreement : ℝ := 0

/-- `BandFit`. -/
structure BandFit where
  tauSeconds : ℝ := 0
  interceptRadians : ℝ := 0
  agreement : ℝ := 0
  meanFrequencyHz : ℝ := 0
  cycleCandidates : List DelayCandidateTau := []
  refusal : CrossoverRefusal := .allBinsAbsent

/-- One entry of each vector of `Band`. -/
structure BandBin where
  frequencyHz : ℝ
  unitRelative : ℂ
  weight : ℝ

noncomputable def kEdgeEpsilon : ℝ := 1e-12

/-- `std::polar` with a modulus of one. -/
noncomputable def polar (radians : ℝ) : ℂ := Complex.exp (radians * Complex.I)

noncomputable def rotationPerHz (options : BandFitOptions) : ℝ :=
  if 0 < options.sampleRate then
    2 * Real.pi * options.appliedDelayDifferenceSamples / options.sampleRate
  else 0

/-- A frequency is in the window, by its edges and a little more. -/
noncomputable def inBandWindow (options : BandFitOptions) (f : ℝ) : Bool :=
  let spread := (2 : ℝ) ^ options.octavesEachSide
  let lowHz := options.centreHz / spread
  let highHz := options.centreHz * spread
  decide (¬ (f < lowHz * (1 - kEdgeEpsilon) ∨ highHz * (1 + kEdgeEpsilon) < f))

/-- The bins that `binsInWindow` counts. -/
noncomputable def windowBins (input : BandFitInput) (options : BandFitOptions) : List ℕ :=
  (List.range (min input.hA.length input.hB.length)).filter fun k =>
    inBandWindow options (k * input.binWidthHz)

/-- What a bin of the window adds to the band. -/
noncomputable def bandBin (input : BandFitInput) (options : BandFitOptions) (k : ℕ) :
    Option BandBin :=
  match input.coherenceA, input.coherenceB with
  | some coherenceA, some coherenceB =>
    match coherenceA[k]?, coherenceB[k]? with
    | some gammaA, some gammaB =>
      if gammaA < options.minimumGatedCoherence ∨ gammaB < options.minimumGatedCoherence then none
      else
        let f := k * input.binWidthHz
        let hA := input.hA.getD k 0
        let hBCorrected := input.hB.getD k 0 * polar (rotationPerHz options * f)
        let magA := ‖hA‖
        let magB := ‖hBCorrected‖
        if magA ≤ 0 ∨ magB ≤ 0 then none
        else
          some
            { frequencyHz := f
              unitRelative := hA * conj hBCorrected / (magA * magB : ℝ)
              weight := min gammaA gammaB * magA * magB }
    | _, _ => none
  | _, _ => none

/-- The vectors of `Band`. -/
noncomputable def gatedBins (input : BandFitInput) (options : BandFitOptions) : List BandBin :=
  (windowBins input options).filterMap (bandBin input options)

/-- `weightSum`. -/
noncomputable def weightSum (bins : List BandBin) : ℝ := (bins.map fun b => b.weight).sum

/-- `meanFrequencyHz`. -/
noncomputable def meanFrequencyHz (bins : List BandBin) : ℝ :=
  (bins.map fun b => b.weight * b.frequencyHz).sum / weightSum bins

/-- `sumAt(band, tau)`. -/
noncomputable def sumAt (bins : List BandBin) (tau : ℝ) : ℂ :=
  (bins.map fun b =>
    b.weight * b.unitRelative * polar (-(2 * Real.pi) * b.frequencyHz * tau)).sum

/-- The agreement at a delay. -/
noncomputable def agreementAt (bins : List BandBin) (tau : ℝ) : ℝ :=
  ‖sumAt bins tau‖ / weightSum bins

/-- `parabolicOffset(left, centre, right)`. -/
noncomputable def parabolicOffset (left centre right : ℝ) : ℝ :=
  let denominator := left - 2 * centre + right
  if denominator = 0 then 0
  else
    let offset := 0.5 * (left - right) / denominator
    max (-1) (min 1 offset)

/-- `grid`. -/
noncomputable def gridStep (options : BandFitOptions) : ℝ :=
  if 0 < options.tauGridSeconds then options.tauGridSeconds else 1e-6

/-- `half`. -/
noncomputable def halfSteps (options : BandFitOptions) : ℕ :=
  if 0 < options.tauRangeSeconds then
    (Ir.llround (options.tauRangeSeconds / gridStep options)).toNat
  else 0

section Search

variable (bins : List BandBin) (grid : ℝ) (half : ℕ)

/-- The delay of a sample. -/
noncomputable def sampleTau (i : ℕ) : ℝ := ((i : ℝ) - half) * grid

/-- `magnitude`. -/
noncomputable def magnitudes : List ℝ :=
  (List.range (2 * half + 1)).map fun i => ‖sumAt bins (sampleTau grid half i)‖

/-- What one turn of the loop over the samples adds to the candidates. -/
noncomputable def candidateAt (magnitude : List ℝ) (i : ℕ) : Option DelayCandidateTau :=
  let left := magnitude.getD (i - 1) 0
  let centre := magnitude.getD i 0
  let right := magnitude.getD (i + 1) 0
  if centre ≤ left ∨ centre ≤ right then none
  else
    let tau := sampleTau grid half i + parabolicOffset left centre right * grid
    some { tauSeconds := tau, agreement := agreementAt bins tau }

/-- The strict maxima away from the ends. -/
noncomputable def localMaxima : List DelayCandidateTau :=
  (List.range' 1 (2 * half - 1)).filterMap (candidateAt bins grid half (magnitudes bins grid half))

/-- `candidates`, as they are found. If there is none, the largest sample is one. -/
noncomputable def candidates : List DelayCandidateTau :=
  match localMaxima bins grid half with
  | [] =>
    let best := firstMax (fun i => (magnitudes bins grid half).getD i 0) (List.range (2 * half + 1))
    let tau := sampleTau grid half (best.getD 0)
    [{ tauSeconds := tau, agreement := agreementAt bins tau }]
  | found => found

/-- `candidates`, ranked. -/
noncomputable def ranked : List DelayCandidateTau :=
  (candidates bins grid half).mergeSort fun x y => decide (y.agreement ≤ x.agreement)

end Search

/-- `crossoverBandFit`. -/
noncomputable def crossoverBandFit (input : BandFitInput) (options : BandFitOptions) : BandFit :=
  let bins := gatedBins input options
  if (windowBins input options).length = 0 then { refusal := .rangeEmpty }
  else if bins.length = 0 then { refusal := .allBinsAbsent }
  else if bins.length < 2 then { refusal := .tooFewBins }
  else if weightSum bins ≤ 0 then { refusal := .allBinsAbsent }
  else
    let found := ranked bins (gridStep options) (halfSteps options)
    let front := found.headD {}
    let keep := if 0 < options.maxCycleCandidates then options.maxCycleCandidates.toNat else 1
    { tauSeconds := front.tauSeconds
      interceptRadians :=
        Measure.wrapToPiHalfOpen Real.pi (Complex.arg (sumAt bins front.tauSeconds))
      agreement := front.agreement
      meanFrequencyHz := meanFrequencyHz bins
      cycleCandidates := found.take keep
      refusal := .none }

/-! ### The band -/

theorem norm_polar (radians : ℝ) : ‖polar radians‖ = 1 := Complex.norm_exp_ofReal_mul_I radians

theorem polar_add (x y : ℝ) : polar (x + y) = polar x * polar y := by
  rw [polar, polar, polar, ← Complex.exp_add]
  push_cast
  ring_nf

/-! ### The search -/

section Search

variable {bins : List BandBin} {grid : ℝ} {half : ℕ}

/-- Where the middle is the largest the vertex is less than half a step away. -/
theorem abs_parabolicOffset_lt {left centre right : ℝ} (hleft : left < centre)
    (hright : right < centre) : |parabolicOffset left centre right| < 1 / 2 := by
  have hneg : left - 2 * centre + right < 0 := by linarith
  have hoffset : |0.5 * (left - right) / (left - 2 * centre + right)| < 1 / 2 := by
    rw [abs_div, abs_of_neg hneg, div_lt_iff₀ (by linarith), abs_mul, abs_of_pos (by norm_num)]
    have hdiff : |left - right| < 2 * centre - left - right := by
      rw [abs_lt]
      constructor <;> linarith
    linarith
  rw [parabolicOffset]
  dsimp only
  rw [if_neg hneg.ne, min_eq_right (by linarith [(abs_lt.mp hoffset).2]),
    max_eq_right (by linarith [(abs_lt.mp hoffset).1])]
  exact hoffset

theorem getD_magnitudes {i : ℕ} (hi : i ≤ 2 * half) :
    (magnitudes bins grid half).getD i 0 = ‖sumAt bins (sampleTau grid half i)‖ := by
  have hlength : (magnitudes bins grid half).length = 2 * half + 1 := by simp [magnitudes]
  rw [List.getD_eq_getElem _ _ (by omega)]
  simp [magnitudes]

theorem mem_localMaxima {c : DelayCandidateTau} (hc : c ∈ localMaxima bins grid half) :
    c.agreement = agreementAt bins c.tauSeconds ∧
      ∃ i offset, 1 ≤ i ∧ i < 2 * half ∧ |offset| < 1 / 2 ∧
        c.tauSeconds = sampleTau grid half i + offset * grid := by
  obtain ⟨i, hi, hc⟩ := List.mem_filterMap.mp hc
  rw [List.mem_range'_1] at hi
  rw [candidateAt] at hc
  dsimp only at hc
  split_ifs at hc with hflat
  rw [not_or, not_le, not_le] at hflat
  rw [Option.some.injEq] at hc
  rw [← hc]
  exact ⟨rfl, i, _, hi.1, by omega, abs_parabolicOffset_lt hflat.1 hflat.2, rfl⟩

/-- A sample above both neighbours is a candidate. -/
theorem exists_localMaximum {i : ℕ} (hi : 1 ≤ i) (hend : i < 2 * half)
    (hleft : ‖sumAt bins (sampleTau grid half (i - 1))‖ < ‖sumAt bins (sampleTau grid half i)‖)
    (hright : ‖sumAt bins (sampleTau grid half (i + 1))‖ < ‖sumAt bins (sampleTau grid half i)‖) :
    ∃ c ∈ localMaxima bins grid half, ∃ offset, |offset| < 1 / 2 ∧
      c.tauSeconds = sampleTau grid half i + offset * grid := by
  have hrange : i ∈ List.range' 1 (2 * half - 1) := List.mem_range'_1.mpr ⟨hi, by omega⟩
  have hstrict := not_or.mpr ⟨not_le.mpr hleft, not_le.mpr hright⟩
  rw [← getD_magnitudes (by omega), ← getD_magnitudes (by omega)] at hstrict
  rw [← getD_magnitudes (i := i + 1) (by omega)] at hstrict
  refine ⟨_, List.mem_filterMap.mpr ⟨i, hrange, if_neg hstrict⟩, _, ?_, rfl⟩
  rw [getD_magnitudes (by omega), getD_magnitudes (by omega), getD_magnitudes (by omega)]
  exact abs_parabolicOffset_lt hleft hright

theorem candidates_ne_nil (bins : List BandBin) (grid : ℝ) (half : ℕ) :
    candidates bins grid half ≠ [] := by
  rw [candidates]
  split
  · exact List.cons_ne_nil _ _
  · assumption

theorem agreement_of_mem_candidates {c : DelayCandidateTau} (hc : c ∈ candidates bins grid half) :
    c.agreement = agreementAt bins c.tauSeconds := by
  rw [candidates] at hc
  split at hc
  · rw [List.mem_singleton.mp hc]
  · exact (mem_localMaxima hc).1

theorem ranked_spec (bins : List BandBin) (grid : ℝ) (half : ℕ) :
    (ranked bins grid half).Pairwise (fun c d => d.agreement ≤ c.agreement) ∧
      (∀ c, c ∈ ranked bins grid half ↔ c ∈ candidates bins grid half) ∧
      ∃ front, (ranked bins grid half).head? = some front ∧ front ∈ candidates bins grid half ∧
        ∀ c ∈ candidates bins grid half, c.agreement ≤ front.agreement := by
  refine ⟨pairwise_mergeSort_key _ _, fun c => List.mem_mergeSort, ?_⟩
  obtain ⟨front, hmem, heq, hmax⟩ :=
    firstMax_eq_some (fun c : DelayCandidateTau => c.agreement) (candidates_ne_nil bins grid half)
  exact ⟨front, (head?_mergeSort _ _).trans heq, hmem, hmax⟩

end Search

/-! ### One delay -/

/-- The band is one delay and one constant. The delay is in the range by a step at least, and in the
range the phasors agree nowhere else. -/
structure OneDelay (bins : List BandBin) (grid range phi tau0 : ℝ) : Prop where
  two : 2 ≤ bins.length
  positive : ∀ b ∈ bins, 0 < b.weight
  relative : ∀ b ∈ bins, b.unitRelative = polar (phi + 2 * Real.pi * b.frequencyHz * tau0)
  inside : |tau0| + grid ≤ range
  once : ∀ tau, |tau| ≤ range → agreementAt bins tau = 1 → tau = tau0

/-- The grid is fine enough to tell the delay: the agreement falls around it for one and a half
steps, and what is more than a step away in the range is below what is one step away. -/
structure Resolved (bins : List BandBin) (grid range tau0 : ℝ) : Prop where
  falls : ∀ tau tau', |tau - tau0| < |tau' - tau0| → |tau' - tau0| ≤ 3 / 2 * grid →
    agreementAt bins tau' < agreementAt bins tau
  apart : ∀ tau, |tau| ≤ range → grid < |tau - tau0| →
    agreementAt bins tau < agreementAt bins (tau0 + grid)

section OneDelay

variable {bins : List BandBin} {grid range phi tau0 : ℝ}

theorem gridStep_pos (options : BandFitOptions) : 0 < gridStep options := by
  rw [gridStep]
  split_ifs with h
  · exact h
  · norm_num

def weightAt (bins : List BandBin) (i : Fin bins.length) : ℝ := bins[i].weight

def frequencyAt (bins : List BandBin) (i : Fin bins.length) : ℝ := bins[i].frequencyHz

/-- The sum of the phasors of a band, so long from where they agree. -/
noncomputable def lobe (bins : List BandBin) (t : ℝ) : ℂ :=
  PhasorSum.phasorSum Finset.univ (weightAt bins) (frequencyAt bins) t

theorem weightSum_eq (bins : List BandBin) :
    weightSum bins = ∑ i : Fin bins.length, weightAt bins i :=
  (Fin.sum_univ_fun_getElem bins fun b => b.weight).symm

section

variable (h : ∀ b ∈ bins, b.unitRelative = polar (phi + 2 * Real.pi * b.frequencyHz * tau0))
  (tau : ℝ)

include h

/-- The phasors of one delay, all turned by the constant. -/
theorem sumAt_eq :
    sumAt bins tau = polar phi * lobe bins (tau0 - tau) := by
  have hterm : ∀ b ∈ bins, (b.weight : ℂ) * b.unitRelative *
      polar (-(2 * Real.pi) * b.frequencyHz * tau) =
        polar phi * (b.weight * polar (2 * Real.pi * b.frequencyHz * (tau0 - tau))) := by
    intro b hb
    have hangle : phi + 2 * Real.pi * b.frequencyHz * (tau0 - tau) =
        phi + 2 * Real.pi * b.frequencyHz * tau0 + -(2 * Real.pi) * b.frequencyHz * tau := by ring
    have hturn := congrArg polar hangle
    rw [polar_add, polar_add _ (-(2 * Real.pi) * b.frequencyHz * tau)] at hturn
    rw [h b hb, mul_assoc, ← hturn]
    ring
  rw [sumAt, List.map_congr_left hterm, List.sum_map_mul_left]
  congr 1
  exact (Fin.sum_univ_fun_getElem bins fun b =>
    (b.weight : ℂ) * polar (2 * Real.pi * b.frequencyHz * (tau0 - tau))).symm

theorem norm_sumAt_eq :
    ‖sumAt bins tau‖ = ‖lobe bins (tau - tau0)‖ := by
  rw [sumAt_eq h, norm_mul, norm_polar, one_mul, lobe, ← PhasorSum.norm_phasorSum_neg, neg_sub,
    lobe]

end

namespace OneDelay

variable (h : OneDelay bins grid range phi tau0)

include h

theorem weightAt_pos : ∀ i ∈ Finset.univ, 0 < weightAt bins i :=
  fun i _ => h.positive _ (List.getElem_mem i.isLt)

theorem weightAt_nonneg : ∀ i ∈ Finset.univ, 0 ≤ weightAt bins i :=
  fun i hi => (h.weightAt_pos i hi).le

theorem weightSum_pos : 0 < weightSum bins := by
  rw [weightSum_eq]
  exact Finset.sum_pos h.weightAt_pos ⟨⟨0, by have := h.two; omega⟩, Finset.mem_univ _⟩

theorem agreementAt_eq (tau : ℝ) :
    agreementAt bins tau = ‖lobe bins (tau - tau0)‖ / weightSum bins := by
  rw [agreementAt, norm_sumAt_eq h.relative]

theorem agreementAt_mem (tau : ℝ) : 0 ≤ agreementAt bins tau ∧ agreementAt bins tau ≤ 1 := by
  have hsum := h.weightSum_pos
  refine ⟨div_nonneg (norm_nonneg _) hsum.le, ?_⟩
  rw [h.agreementAt_eq, div_le_one hsum, weightSum_eq]
  exact PhasorSum.norm_phasorSum_le h.weightAt_nonneg _

/-- At the delay the phasors agree. -/
theorem sumAt_self : sumAt bins tau0 = polar phi * (weightSum bins : ℝ) := by
  rw [sumAt_eq h.relative, sub_self, weightSum_eq]
  simp [lobe, PhasorSum.phasorSum]

/-- If all the frequencies were one, the phasors would agree everywhere. -/
theorem two_frequencies (hgrid : 0 < grid) :
    ∃ i ∈ Finset.univ, ∃ j ∈ Finset.univ, frequencyAt bins i ≠ frequencyAt bins j := by
  by_contra hsame
  push Not at hsame
  have hall : ∀ tau, agreementAt bins tau = 1 := by
    intro tau
    rw [h.agreementAt_eq, lobe, PhasorSum.norm_phasorSum_of_same h.weightAt_nonneg hsame,
      ← weightSum_eq]
    exact div_self h.weightSum_pos.ne'
  have hrange : 0 < range := by linarith [h.inside, abs_nonneg tau0]
  have hright := h.once range (abs_of_pos hrange).le (hall _)
  have hleft := h.once (-range) (by rw [abs_neg, abs_of_pos hrange]) (hall _)
  linarith

/-- A grid is fine enough by what the sum of the phasors does around the delay. -/
theorem resolved_of_norm {step : ℝ}
    (hfalls : ∀ t u, |t| < |u| → |u| ≤ 3 / 2 * step → ‖lobe bins u‖ < ‖lobe bins t‖)
    (hapart : ∀ tau, |tau| ≤ range → step < |tau - tau0| →
      ‖lobe bins (tau - tau0)‖ < ‖lobe bins step‖) :
    Resolved bins step range tau0 := by
  constructor
  · intro tau tau' hlt hin
    rw [h.agreementAt_eq, h.agreementAt_eq]
    exact div_lt_div_of_pos_right (hfalls _ _ hlt hin) h.weightSum_pos
  · intro tau htau hfar
    rw [h.agreementAt_eq, h.agreementAt_eq, add_sub_cancel_left]
    exact div_lt_div_of_pos_right (hapart _ htau hfar) h.weightSum_pos

/-- Below some step every grid is fine enough. -/
theorem exists_resolved (hgrid : 0 < grid) :
    ∃ bound > 0, ∀ step, 0 < step → step ≤ bound → Resolved bins step range tau0 := by
  have honce : ∀ tau, |tau| ≤ range →
      ‖lobe bins (tau - tau0)‖ = ∑ i, weightAt bins i → tau = tau0 := by
    intro tau htau hfull
    refine h.once tau htau ?_
    rw [h.agreementAt_eq, hfull, ← weightSum_eq]
    exact div_self h.weightSum_pos.ne'
  obtain ⟨bound, hbound, hstep⟩ :=
    PhasorSum.exists_step h.weightAt_pos (h.two_frequencies hgrid) honce
  refine ⟨bound, hbound, fun step hpositive hle => ?_⟩
  obtain ⟨hfalls, hapart⟩ := hstep step hpositive hle
  exact h.resolved_of_norm hfalls hapart

/-- For a band that is narrow for the range every grid is fine enough: the two bins that differ most
are never more than half a turn apart. -/
theorem resolved_of_narrow (hgrid : 0 < grid) {reach : ℝ} (hstep : 3 / 2 * grid ≤ reach)
    (hreach : range + |tau0| ≤ reach)
    (hspread : ∀ i j, |frequencyAt bins i - frequencyAt bins j| * reach ≤ 1 / 2) :
    Resolved bins grid range tau0 := by
  have hlt : ∀ t u, |t| < |u| → |u| ≤ reach → ‖lobe bins u‖ < ‖lobe bins t‖ := by
    intro t u hlt hu
    refine PhasorSum.norm_phasorSum_lt h.weightAt_pos (h.two_frequencies hgrid) hlt
      fun i _ j _ => ?_
    exact (mul_le_mul_of_nonneg_left hu (abs_nonneg _)).trans (hspread i j)
  refine h.resolved_of_norm (fun t u htu hu => hlt t u htu (hu.trans hstep)) ?_
  intro tau htau hfar
  refine hlt grid _ (by rwa [abs_of_pos hgrid]) ?_
  exact (abs_sub _ _).trans (by linarith)

end OneDelay

end OneDelay

/-! ### The delay that is fitted -/

section Nearest

variable {grid range tau0 : ℝ} {half : ℕ}

/-- What the number of steps is, to either side. -/
theorem half_eq_floor (hgrid : 0 < grid) (hrange : 0 ≤ range)
    (hhalf : half = (Ir.llround (range / grid)).toNat) :
    (half : ℤ) = ⌊range / grid + 1 / 2⌋ := by
  have hnonneg : 0 ≤ range / grid := div_nonneg hrange hgrid.le
  rw [hhalf, Ir.llround, if_pos hnonneg, Int.toNat_of_nonneg]
  exact Int.floor_nonneg.mpr (by linarith)

/-- A number that is not midway between two whole ones is less than a half from one of them. -/
theorem exists_abs_sub_lt_half {x : ℝ} (hmid : ∀ i : ℤ, x ≠ i + 1 / 2) :
    ∃ m : ℤ, |(m : ℝ) - x| < 1 / 2 := by
  have hlow := Int.floor_le (x + 1 / 2)
  have hhigh := Int.lt_floor_add_one (x + 1 / 2)
  have hne : x ≠ (⌊x + 1 / 2⌋ - 1 : ℤ) + 1 / 2 := hmid _
  push_cast at hne
  refine ⟨⌊x + 1 / 2⌋, ?_⟩
  rw [abs_lt]
  exact ⟨by linarith, lt_of_le_of_ne (by linarith) fun heq => hne (by linarith)⟩

theorem exists_nearest (hgrid : 0 < grid) (hhalf : half = (Ir.llround (range / grid)).toNat)
    (hinside : |tau0| + grid ≤ range) (hmid : ∀ i : ℤ, tau0 ≠ (i + 1 / 2) * grid) :
    ∃ i, 1 ≤ i ∧ i < 2 * half ∧ |sampleTau grid half i - tau0| < grid / 2 := by
  have hx : |tau0 / grid| + 1 ≤ range / grid := by
    rw [abs_div, abs_of_pos hgrid, div_add_one hgrid.ne']
    exact div_le_div_of_nonneg_right hinside hgrid.le
  have htop : range / grid + 1 / 2 < half + 1 := by
    have hround := half_eq_floor hgrid (by linarith [abs_nonneg tau0]) hhalf
    have hlt := Int.lt_floor_add_one (range / grid + 1 / 2)
    rw [← hround] at hlt
    exact_mod_cast hlt
  obtain ⟨m, hnear⟩ := exists_abs_sub_lt_half fun i heq => hmid i ((div_eq_iff hgrid.ne').mp heq)
  have hin : |(m : ℝ)| < half := by
    have htriangle := abs_sub_abs_le_abs_sub (m : ℝ) (tau0 / grid)
    linarith
  have hbounds : -(half : ℤ) < m ∧ m < half := by
    rw [← abs_lt]
    exact_mod_cast hin
  refine ⟨(m + half).toNat, by omega, by omega, ?_⟩
  have hcast : (((m + half).toNat : ℕ) : ℝ) = m + half := by
    have hint : (((m + half).toNat : ℕ) : ℤ) = m + half := Int.toNat_of_nonneg (by omega)
    exact_mod_cast hint
  have hscaled : sampleTau grid half (m + half).toNat - tau0 = (m - tau0 / grid) * grid := by
    rw [sampleTau, hcast, sub_mul (m : ℝ), div_mul_cancel₀ _ hgrid.ne']
    ring
  rw [hscaled, abs_mul, abs_of_pos hgrid]
  calc |(m : ℝ) - tau0 / grid| * grid < 1 / 2 * grid := mul_lt_mul_of_pos_right hnear hgrid
    _ = grid / 2 := by ring

theorem abs_refined_le (hgrid : 0 < grid) (hrange : 0 ≤ range)
    (hhalf : half = (Ir.llround (range / grid)).toNat) {i : ℕ} (hi : 1 ≤ i) (hend : i < 2 * half)
    {offset : ℝ} (hoffset : |offset| < 1 / 2) :
    |sampleTau grid half i + offset * grid| ≤ range := by
  have hround : (half : ℝ) ≤ range / grid + 1 / 2 := by
    have hle := Int.floor_le (range / grid + 1 / 2)
    rw [← half_eq_floor hgrid hrange hhalf] at hle
    exact_mod_cast hle
  have hsample : |(i : ℝ) - half| ≤ half - 1 := by
    have hlow : (1 : ℝ) ≤ i := by exact_mod_cast hi
    have hhigh : (i : ℝ) + 1 ≤ 2 * half := by exact_mod_cast hend
    rw [abs_le]
    constructor <;> linarith
  have hfactor : sampleTau grid half i + offset * grid = (((i : ℝ) - half) + offset) * grid := by
    rw [sampleTau]
    ring
  rw [hfactor, abs_mul, abs_of_pos hgrid]
  calc |((i : ℝ) - half) + offset| * grid ≤ (half - 1 + 1 / 2) * grid := by
        refine mul_le_mul_of_nonneg_right ((abs_add_le _ _).trans ?_) hgrid.le
        linarith
    _ ≤ range / grid * grid := mul_le_mul_of_nonneg_right (by linarith) hgrid.le
    _ = range := div_mul_cancel₀ range hgrid.ne'

theorem sampleTau_succ (i : ℕ) :
    sampleTau grid half (i + 1) = sampleTau grid half i + grid := by
  rw [sampleTau, sampleTau]
  push_cast
  ring

theorem sampleTau_pred {i : ℕ} (hi : 1 ≤ i) :
    sampleTau grid half (i - 1) = sampleTau grid half i - grid := by
  rw [sampleTau, sampleTau, Nat.cast_sub hi, Nat.cast_one]
  ring

end Nearest

section Fitted

variable {bins : List BandBin} {grid range phi tau0 : ℝ} {half : ℕ}

section

variable (h : OneDelay bins grid range phi tau0) (hgrid : 0 < grid)
  (hhalf : half = (Ir.llround (range / grid)).toNat) (hfine : Resolved bins grid range tau0)
  (hmid : ∀ i : ℤ, tau0 ≠ (i + 1 / 2) * grid)

include h hgrid hhalf hfine hmid

/-- A sample whose neighbours agree less is a candidate. -/
theorem exists_candidate :
    ∃ c ∈ localMaxima bins grid half, |c.tauSeconds - tau0| < grid := by
  obtain ⟨i, hi, hend, hnear⟩ := exists_nearest hgrid hhalf h.inside hmid
  have hbelow : ∀ tau, grid / 2 < |tau - tau0| → |tau - tau0| ≤ 3 / 2 * grid →
      ‖sumAt bins tau‖ < ‖sumAt bins (sampleTau grid half i)‖ := by
    intro tau hlow hhigh
    exact (div_lt_div_iff_of_pos_right h.weightSum_pos).mp
      (hfine.falls _ tau (hnear.trans hlow) hhigh)
  obtain ⟨hnearLow, hnearHigh⟩ := abs_lt.mp hnear
  have hleft := hbelow (sampleTau grid half (i - 1))
    (by
      rw [sampleTau_pred hi, lt_abs]
      exact .inr (by linarith))
    (by
      rw [sampleTau_pred hi, abs_le]
      constructor <;> linarith)
  have hright := hbelow (sampleTau grid half (i + 1))
    (by
      rw [sampleTau_succ, lt_abs]
      exact .inl (by linarith))
    (by
      rw [sampleTau_succ, abs_le]
      constructor <;> linarith)
  obtain ⟨c, hc, offset, hoffset, htau⟩ := exists_localMaximum hi hend hleft hright
  refine ⟨c, hc, ?_⟩
  have hshort : |offset * grid| < grid / 2 := by
    rw [abs_mul, abs_of_pos hgrid]
    calc |offset| * grid < 1 / 2 * grid := mul_lt_mul_of_pos_right hoffset hgrid
      _ = grid / 2 := by ring
  have hsplit : c.tauSeconds - tau0 = (sampleTau grid half i - tau0) + offset * grid := by
    rw [htau]
    ring
  rw [hsplit]
  exact (abs_add_le _ _).trans_lt (by linarith)

/-- If the grid is fine enough, what no candidate is above is within a step. -/
theorem abs_front_le {front : DelayCandidateTau} (hfront : front ∈ candidates bins grid half)
    (hmax : ∀ c ∈ candidates bins grid half, c.agreement ≤ front.agreement) :
    |front.tauSeconds - tau0| ≤ grid := by
  obtain ⟨c, hc, hnear⟩ := exists_candidate h hgrid hhalf hfine hmid
  have hfound : candidates bins grid half = localMaxima bins grid half := by
    rw [candidates]
    split
    · rename_i hnone
      rw [hnone] at hc
      exact absurd hc List.not_mem_nil
    · rfl
  rw [hfound] at hfront hmax
  by_contra hfar
  rw [not_le] at hfar
  obtain ⟨hagreement, i, offset, hi, hend, hoffset, htau⟩ := mem_localMaxima hfront
  have hrange : 0 ≤ range := by linarith [h.inside, abs_nonneg tau0]
  have hin : |front.tauSeconds| ≤ range :=
    htau ▸ abs_refined_le hgrid hrange hhalf hi hend hoffset
  have hstep : |tau0 + grid - tau0| = grid := by rw [add_sub_cancel_left, abs_of_pos hgrid]
  have hone := hfine.falls c.tauSeconds (tau0 + grid) (by rwa [hstep]) (by rw [hstep]; linarith)
  have hless := hfine.apart _ hin hfar
  have hlargest := hmax c hc
  rw [hagreement, (mem_localMaxima hc).1] at hlargest
  linarith

end

end Fitted

/-! ### What is fitted -/

section Spec

/-- Side B later by so many samples. -/
noncomputable def delayB (input : BandFitInput) (sampleRate d : ℝ) : BandFitInput :=
  { input with
    hB := input.hB.mapIdx fun k h =>
      h * polar (-(2 * Real.pi * (k * input.binWidthHz) * d / sampleRate)) }

theorem crossoverBandFit_delayB (input : BandFitInput) (options : BandFitOptions)
    (hrate : 0 < options.sampleRate) (d : ℝ) :
    crossoverBandFit (delayB input options.sampleRate d)
        { options with appliedDelayDifferenceSamples := d } =
      crossoverBandFit input { options with appliedDelayDifferenceSamples := 0 } := by
  have hturn : ∀ k : ℕ, (delayB input options.sampleRate d).hB.getD k 0 *
      polar (rotationPerHz { options with appliedDelayDifferenceSamples := d } *
        (k * input.binWidthHz)) =
      input.hB.getD k 0 *
        polar (rotationPerHz { options with appliedDelayDifferenceSamples := 0 } *
          (k * input.binWidthHz)) := by
    intro k
    have hentry : (delayB input options.sampleRate d).hB.getD k 0 = input.hB.getD k 0 *
        polar (-(2 * Real.pi * (k * input.binWidthHz) * d / options.sampleRate)) := by
      rw [delayB, List.getD_eq_getElem?_getD, List.getD_eq_getElem?_getD, List.getElem?_mapIdx]
      obtain hnone | ⟨z, hz⟩ := (input.hB[k]?).eq_none_or_eq_some
      · simp [hnone]
      · simp [hz]
    rw [hentry, mul_assoc, ← polar_add, rotationPerHz, rotationPerHz, if_pos hrate, if_pos hrate]
    congr 2
    ring
  have hbin : bandBin (delayB input options.sampleRate d)
      { options with appliedDelayDifferenceSamples := d } =
      bandBin input { options with appliedDelayDifferenceSamples := 0 } := by
    funext k
    rw [bandBin, bandBin]
    dsimp only
    rw [← hturn k]
    rfl
  have hwindow : windowBins (delayB input options.sampleRate d)
      { options with appliedDelayDifferenceSamples := d } =
      windowBins input { options with appliedDelayDifferenceSamples := 0 } := by
    rw [windowBins, windowBins, delayB, List.length_mapIdx]
    rfl
  rw [crossoverBandFit, crossoverBandFit, gatedBins, gatedBins, hbin, hwindow]
  rfl

variable {options : BandFitOptions}

theorem crossoverBandFit_eq {input : BandFitInput} (htwo : 2 ≤ (gatedBins input options).length)
    (hweights : 0 < weightSum (gatedBins input options))
    {front : DelayCandidateTau}
    (hhead : (ranked (gatedBins input options) (gridStep options) (halfSteps options)).head? =
      some front) :
    crossoverBandFit input options =
      { tauSeconds := front.tauSeconds
        interceptRadians := Measure.wrapToPiHalfOpen Real.pi
          (Complex.arg (sumAt (gatedBins input options) front.tauSeconds))
        agreement := front.agreement
        meanFrequencyHz := meanFrequencyHz (gatedBins input options)
        cycleCandidates :=
          (ranked (gatedBins input options) (gridStep options) (halfSteps options)).take
            (if 0 < options.maxCycleCandidates then options.maxCycleCandidates.toNat else 1)
        refusal := .none } := by
  have hwindow : (windowBins input options).length ≠ 0 := by
    have hle := List.length_filterMap_le (bandBin input options) (windowBins input options)
    rw [gatedBins] at htwo
    omega
  rw [crossoverBandFit]
  dsimp only
  rw [if_neg hwindow, if_neg (by omega), if_neg (by omega), if_neg hweights.not_ge,
    List.headD_eq_head?_getD, hhead, Option.getD_some]

/-- **Headline.** The band is one delay and one constant. The candidates are ranked by agreements
between zero and one, and the first of them is returned with an intercept in the half-open turn,
which is the constant if the delay is met. The delay is met within a grid step if the grid is fine
enough and the delay is not midway between two of its samples, and every grid below some step is
fine enough. A delay of side B that is stated makes no difference. -/
theorem crossoverBandFit_spec (input : BandFitInput) (options : BandFitOptions) :
    (∀ phi tau0, OneDelay (gatedBins input options) (gridStep options) options.tauRangeSeconds phi
        tau0 →
      let fit := crossoverBandFit input options
      fit.refusal = .none ∧
      fit.cycleCandidates.head? = some ⟨fit.tauSeconds, fit.agreement⟩ ∧
      (∀ c ∈ fit.cycleCandidates, 0 ≤ c.agreement ∧ c.agreement ≤ 1) ∧
      fit.cycleCandidates.Pairwise (fun c d => d.agreement ≤ c.agreement) ∧
      (-Real.pi < fit.interceptRadians ∧ fit.interceptRadians ≤ Real.pi) ∧
      (fit.tauSeconds = tau0 → ∃ n : ℤ, fit.interceptRadians = phi + n * (2 * Real.pi)) ∧
      (Resolved (gatedBins input options) (gridStep options) options.tauRangeSeconds tau0 →
        (∀ i : ℤ, tau0 ≠ (i + 1 / 2) * gridStep options) →
        |fit.tauSeconds - tau0| ≤ gridStep options) ∧
      ∃ bound > 0, ∀ step, 0 < step → step ≤ bound →
        Resolved (gatedBins input options) step options.tauRangeSeconds tau0) ∧
    (0 < options.sampleRate → ∀ d,
      crossoverBandFit (delayB input options.sampleRate d)
          { options with appliedDelayDifferenceSamples := d } =
        crossoverBandFit input { options with appliedDelayDifferenceSamples := 0 }) := by
  refine ⟨fun phi tau0 h => ?_, crossoverBandFit_delayB input options⟩
  have hgrid := gridStep_pos options
  have hhalf : halfSteps options =
      (Ir.llround (options.tauRangeSeconds / gridStep options)).toNat :=
    if_pos (by linarith [h.inside, abs_nonneg tau0])
  obtain ⟨hsorted, hmem, front, hhead, hfront, hmax⟩ :=
    ranked_spec (gatedBins input options) (gridStep options) (halfSteps options)
  rw [crossoverBandFit_eq h.two h.weightSum_pos hhead]
  dsimp only
  refine ⟨rfl, ?_, ?_, ?_, Measure.wrapToPiHalfOpen_mem Real.pi_pos _, ?_, fun hfine hmid =>
    abs_front_le h hgrid hhalf hfine hmid hfront hmax, h.exists_resolved hgrid⟩
  · have hkeep : (if 0 < options.maxCycleCandidates then options.maxCycleCandidates.toNat else 1) ≠
        0 := by
      split_ifs with hsome
      · omega
      · exact one_ne_zero
    rw [List.head?_take, if_neg hkeep, hhead]
  · intro c hc
    rw [agreement_of_mem_candidates ((hmem c).mp (List.mem_of_mem_take hc))]
    exact h.agreementAt_mem _
  · exact hsorted.sublist (List.take_sublist _ _)
  · intro heq
    obtain ⟨n, hn⟩ := Measure.wrapToPiHalfOpen_turns Real.pi
      (Complex.arg (sumAt (gatedBins input options) front.tauSeconds))
    refine ⟨n - toIocDiv Real.two_pi_pos (-Real.pi) phi, ?_⟩
    rw [hn, heq, h.sumAt_self, Complex.arg_mul_real h.weightSum_pos, polar, Complex.arg_exp_mul_I,
      toIocMod, zsmul_eq_mul]
    push_cast
    ring

/-- The bins of side A, of one hertz each, and a side B that is later by a delay. -/
noncomputable def pureDelayPair (hA : List ℂ) (tau0 : ℝ) : BandFitInput :=
  { hA
    hB := (List.range hA.length).map fun k : ℕ => polar (-(2 * Real.pi * k * tau0))
    coherenceA := some (List.replicate hA.length 1)
    coherenceB := some (List.replicate hA.length 1)
    binWidthHz := 1 }

theorem conj_polar (radians : ℝ) : conj (polar radians) = polar (-radians) := by
  rw [polar, polar, ← Complex.exp_conj, map_mul, Complex.conj_ofReal, Complex.conj_I]
  push_cast
  ring_nf

theorem bandBin_pureDelayPair {hA : List ℂ} (tau0 : ℝ) (hgate : options.minimumGatedCoherence ≤ 1)
    (hstated : options.appliedDelayDifferenceSamples = 0) {k : ℕ} (hk : k < hA.length) :
    bandBin (pureDelayPair hA tau0) options k =
      if hA[k] = 0 then none
      else some ⟨k, hA[k] / ‖hA[k]‖ * polar (2 * Real.pi * k * tau0), ‖hA[k]‖⟩ := by
  have hrotation : rotationPerHz options = 0 := by
    rw [rotationPerHz, hstated, mul_zero, zero_div, ite_self]
  have hzero : polar 0 = 1 := by simp [polar]
  have hunit : ¬ ((1 : ℝ) ≤ 0) := by norm_num
  rw [bandBin, pureDelayPair]
  simp only [List.getElem?_replicate, if_pos hk, hgate.not_gt, or_self, if_false, hrotation,
    zero_mul, hzero, mul_one, List.getD_eq_getElem?_getD, List.getElem?_map, List.getElem?_range hk,
    Option.map_some, Option.getD_some, List.getElem?_eq_getElem hk, norm_polar, conj_polar, neg_neg,
    hunit, or_false, norm_le_zero_iff, min_self, one_mul]
  split_ifs
  · rfl
  · rw [div_mul_eq_mul_div]

theorem windowBins_pureDelayPair (hA : List ℂ) (tau0 : ℝ)
    (hcentre : options.centreHz = 2) (hoctaves : options.octavesEachSide = 1) :
    windowBins (pureDelayPair hA tau0) options =
      (List.range hA.length).filter fun k => decide (1 ≤ k ∧ k ≤ 4) := by
  have hlength : (pureDelayPair hA tau0).hB.length = hA.length := by simp [pureDelayPair]
  rw [windowBins, hlength]
  show List.filter _ (List.range (min hA.length hA.length)) = _
  rw [min_self]
  refine List.filter_congr fun k _ => ?_
  rw [inBandWindow, hcentre, hoctaves, decide_eq_decide, kEdgeEpsilon, Real.rpow_one, not_or, not_lt,
    not_lt]
  show _ ≤ (k : ℝ) * 1 ∧ (k : ℝ) * 1 ≤ _ ↔ _
  rw [mul_one]
  constructor
  · rintro ⟨hlow, hhigh⟩
    constructor
    · by_contra hzero
      obtain rfl : k = 0 := by omega
      norm_num at hlow
    · by_contra hmore
      have hfive : (5 : ℝ) ≤ k := by exact_mod_cast (show 5 ≤ k by omega)
      norm_num at hhigh
      linarith
  · rintro ⟨hlow, hhigh⟩
    have hlow' : (1 : ℝ) ≤ k := by exact_mod_cast hlow
    have hhigh' : (k : ℝ) ≤ 4 := by exact_mod_cast hhigh
    constructor
    · norm_num
      linarith
    · norm_num
      linarith

theorem eq_zero_of_cos_turns {t : ℝ} (hcos : Real.cos (2 * Real.pi * t) = 1) (hlow : -1 < t)
    (hhigh : t < 1) : t = 0 := by
  obtain ⟨n, hn⟩ := (Real.cos_eq_one_iff _).mp hcos
  have hturns : (n : ℝ) = t := by
    rw [mul_comm] at hn
    exact mul_left_cancel₀ Real.two_pi_pos.ne' hn
  rw [← hturns] at hlow hhigh ⊢
  have hzero : -1 < n ∧ n < 1 := by exact_mod_cast And.intro hlow hhigh
  obtain rfl : n = 0 := by omega
  exact Int.cast_zero

/-- Two bins next to each other and no delay. -/
noncomputable def twoBins : BandFitInput := pureDelayPair [1, 1, 1] 0

noncomputable def twoBinsOptions : BandFitOptions :=
  { centreHz := 2, tauRangeSeconds := 1 / 4, tauGridSeconds := 1 / 8 }

noncomputable def twoBinsBand : List BandBin := [⟨1, 1, 1⟩, ⟨2, 1, 1⟩]

theorem gatedBins_twoBins : gatedBins twoBins twoBinsOptions = twoBinsBand := by
  have hwindow : windowBins twoBins twoBinsOptions = [1, 2] := by
    rw [twoBins, windowBins_pureDelayPair _ _ rfl rfl]
    decide
  have hbin : ∀ k (hk : k < 3), bandBin twoBins twoBinsOptions k = _ :=
    fun k hk => bandBin_pureDelayPair 0 zero_le_one rfl hk
  rw [gatedBins, hwindow, twoBinsBand]
  simp [hbin, polar]

theorem oneDelay_twoBins : OneDelay twoBinsBand (1 / 8) (1 / 4) 0 0 := by
  have hrelative : ∀ b ∈ twoBinsBand,
      b.unitRelative = polar (0 + 2 * Real.pi * b.frequencyHz * 0) := by simp [twoBinsBand, polar]
  refine ⟨le_rfl, by simp [twoBinsBand], hrelative, by norm_num, fun tau htau hfull => ?_⟩
  have hweights : weightSum twoBinsBand = 2 := by norm_num [twoBinsBand, weightSum]
  rw [agreementAt, hweights, div_eq_one_iff_eq two_ne_zero] at hfull
  have hsq := PhasorSum.sq_norm_phasorSum Finset.univ (weightAt twoBinsBand)
    (frequencyAt twoBinsBand) (tau - 0)
  rw [← lobe, ← norm_sumAt_eq hrelative, hfull] at hsq
  simp only [PhasorSum.cos_turn_abs (_ - _)] at hsq
  unfold twoBinsBand at hsq
  simp [Fin.sum_univ_succ, weightAt, frequencyAt] at hsq
  norm_num at hsq
  have hrange := abs_le.mp htau
  exact eq_zero_of_cos_turns (by linarith) (by linarith) (by linarith)

theorem crossoverBandFit_spec_twoBins :
    (crossoverBandFit twoBins twoBinsOptions).refusal = .none ∧
      |(crossoverBandFit twoBins twoBinsOptions).tauSeconds - 0| ≤ gridStep twoBinsOptions := by
  have hgrid : gridStep twoBinsOptions = 1 / 8 := if_pos (show (0 : ℝ) < 1 / 8 by norm_num)
  have hspread : ∀ i j, |frequencyAt twoBinsBand i - frequencyAt twoBinsBand j| * (1 / 2) ≤
      1 / 2 := by
    intro i j
    fin_cases i <;> fin_cases j <;> norm_num [frequencyAt, twoBinsBand]
  have hresolved : Resolved twoBinsBand (1 / 8) (1 / 4) 0 :=
    oneDelay_twoBins.resolved_of_narrow (by norm_num) (by norm_num) (by norm_num) hspread
  have hmid : ∀ i : ℤ, (0 : ℝ) ≠ (i + 1 / 2) * (1 / 8) := by
    intro i hi
    have hhalf : (2 * i + 1 : ℝ) = 0 := by linarith
    have hodd : 2 * i + 1 = 0 := by exact_mod_cast hhalf
    omega
  obtain ⟨hfitted, -⟩ := crossoverBandFit_spec twoBins twoBinsOptions
  rw [gatedBins_twoBins, hgrid] at hfitted
  obtain ⟨hrefusal, -, -, -, -, -, hnear, -⟩ := hfitted 0 0 oneDelay_twoBins
  rw [hgrid]
  exact ⟨hrefusal, hnear hresolved hmid⟩

noncomputable def coarseOptions : BandFitOptions :=
  { centreHz := 2, tauRangeSeconds := 3 / 5, tauGridSeconds := 5 / 12 }

/-- Side A has no third bin. -/
noncomputable def coarseInput : BandFitInput := pureDelayPair [1, 1, 1, 0, 1] (1 / 6)

noncomputable def coarseBand : List BandBin :=
  [⟨1, polar (0 + 2 * Real.pi * 1 * (1 / 6)), 1⟩, ⟨2, polar (0 + 2 * Real.pi * 2 * (1 / 6)), 1⟩,
    ⟨4, polar (0 + 2 * Real.pi * 4 * (1 / 6)), 1⟩]

theorem gatedBins_coarse : gatedBins coarseInput coarseOptions = coarseBand := by
  have hwindow : windowBins coarseInput coarseOptions = [1, 2, 3, 4] := by
    rw [coarseInput, windowBins_pureDelayPair _ _ rfl rfl]
    decide
  have hbin : ∀ k (hk : k < 5), bandBin coarseInput coarseOptions k = _ :=
    fun k hk => bandBin_pureDelayPair (1 / 6) zero_le_one rfl hk
  rw [gatedBins, hwindow, coarseBand]
  simp [hbin]

theorem relative_coarse : ∀ b ∈ coarseBand,
    b.unitRelative = polar (0 + 2 * Real.pi * b.frequencyHz * (1 / 6)) := by simp [coarseBand]

theorem sq_norm_coarse (tau : ℝ) :
    ‖sumAt coarseBand tau‖ ^ 2 =
      3 + 2 * (Real.cos (2 * Real.pi * (tau - 1 / 6)) + Real.cos (2 * Real.pi * 2 * (tau - 1 / 6)) +
        Real.cos (2 * Real.pi * 3 * (tau - 1 / 6))) := by
  rw [norm_sumAt_eq relative_coarse, lobe, PhasorSum.sq_norm_phasorSum]
  simp only [PhasorSum.cos_turn_abs (_ - _)]
  unfold coarseBand
  simp [Fin.sum_univ_succ, weightAt, frequencyAt]
  norm_num
  ring

/-- The phasors meet once a second. -/
theorem oneDelay_coarse : OneDelay coarseBand (5 / 12) (3 / 5) 0 (1 / 6) := by
  refine ⟨show 2 ≤ 3 by decide, by simp [coarseBand], relative_coarse, by norm_num,
    fun tau htau hfull => ?_⟩
  have hweights : weightSum coarseBand = 3 := by norm_num [coarseBand, weightSum]
  rw [agreementAt, hweights, div_eq_one_iff_eq three_ne_zero] at hfull
  have hsq := sq_norm_coarse tau
  rw [hfull] at hsq
  have hsecond := Real.cos_le_one (2 * Real.pi * 2 * (tau - 1 / 6))
  have hthird := Real.cos_le_one (2 * Real.pi * 3 * (tau - 1 / 6))
  have hfirst : Real.cos (2 * Real.pi * (tau - 1 / 6)) = 1 :=
    le_antisymm (Real.cos_le_one _) (by linarith)
  have hrange := abs_le.mp htau
  exact sub_eq_zero.mp (eq_zero_of_cos_turns hfirst (by linarith) (by linarith))

/-- Three samples, of which the one in the middle is not above the left one. -/
theorem norm_coarse :
    ‖sumAt coarseBand 0‖ = 1 ∧ ‖sumAt coarseBand (5 / 12)‖ = 1 ∧
      1 < ‖sumAt coarseBand (-(5 / 12))‖ := by
  have hmiddle := sq_norm_coarse 0
  have hright := sq_norm_coarse (5 / 12)
  have hleft := sq_norm_coarse (-(5 / 12))
  rw [show 2 * Real.pi * (0 - 1 / 6) = -(Real.pi / 3) by ring,
    show 2 * Real.pi * 2 * (0 - 1 / 6) = -(Real.pi - Real.pi / 3) by ring,
    show 2 * Real.pi * 3 * (0 - 1 / 6) = -Real.pi by ring, Real.cos_neg, Real.cos_neg, Real.cos_neg,
    Real.cos_pi_sub, Real.cos_pi, Real.cos_pi_div_three] at hmiddle
  rw [show 2 * Real.pi * (5 / 12 - 1 / 6) = Real.pi / 2 by ring,
    show 2 * Real.pi * 2 * (5 / 12 - 1 / 6) = Real.pi by ring,
    show 2 * Real.pi * 3 * (5 / 12 - 1 / 6) = Real.pi / 2 + Real.pi by ring, Real.cos_add_pi,
    Real.cos_pi_div_two, Real.cos_pi] at hright
  rw [show 2 * Real.pi * (-(5 / 12) - 1 / 6) = -(Real.pi / 6 + Real.pi) by ring,
    show 2 * Real.pi * 2 * (-(5 / 12) - 1 / 6) = -(Real.pi / 3 + 2 * Real.pi) by ring,
    show 2 * Real.pi * 3 * (-(5 / 12) - 1 / 6) = -(Real.pi / 2 + Real.pi + 2 * Real.pi) by ring,
    Real.cos_neg, Real.cos_neg, Real.cos_neg, Real.cos_add_two_pi, Real.cos_add_two_pi,
    Real.cos_add_pi, Real.cos_add_pi, Real.cos_pi_div_six, Real.cos_pi_div_three,
    Real.cos_pi_div_two] at hleft
  have hthree : Real.sqrt 3 < 3 := by
    rw [Real.sqrt_lt' (by norm_num)]
    norm_num
  refine ⟨?_, ?_, ?_⟩
  · exact (pow_eq_one_iff_of_nonneg (norm_nonneg _) two_ne_zero).mp (by linarith)
  · exact (pow_eq_one_iff_of_nonneg (norm_nonneg _) two_ne_zero).mp (by linarith)
  · exact (one_lt_sq_iff₀ (norm_nonneg _)).mp (by linarith)

/-- No sample is a maximum, and the largest is the first. -/
theorem candidates_coarse : candidates coarseBand (5 / 12) 1 =
    [⟨-(5 / 12), agreementAt coarseBand (-(5 / 12))⟩] := by
  obtain ⟨hmiddle, hright, hleft⟩ := norm_coarse
  have htaus : sampleTau (5 / 12) 1 0 = -(5 / 12) ∧ sampleTau (5 / 12) 1 1 = 0 ∧
      sampleTau (5 / 12) 1 2 = 5 / 12 := by norm_num [sampleTau]
  have hsamples : magnitudes coarseBand (5 / 12) 1 = [‖sumAt coarseBand (-(5 / 12))‖, 1, 1] := by
    simp [magnitudes, List.range_succ, htaus, hmiddle, hright]
  have hnone : localMaxima coarseBand (5 / 12) 1 = [] := by
    rw [localMaxima, hsamples]
    simp [candidateAt, hleft.le]
  have hfirst : firstMax (fun i => (magnitudes coarseBand (5 / 12) 1).getD i 0) (List.range 3) =
      some 0 := by
    rw [hsamples]
    simp [firstMax, keepGreater, List.range_succ, hleft.not_gt]
  rw [candidates, hnone]
  dsimp only
  rw [hfirst, Option.getD_some, htaus.1]

/-- The band is one delay of a sixth of a second, which is not midway between two samples. A grid of
five twelfths is too coarse: the sample that is largest is more than a step away. -/
theorem crossoverBandFit_coarse :
    OneDelay (gatedBins coarseInput coarseOptions) (gridStep coarseOptions)
        coarseOptions.tauRangeSeconds 0 (1 / 6) ∧
      gridStep coarseOptions <
        |(crossoverBandFit coarseInput coarseOptions).tauSeconds - 1 / 6| := by
  have hgrid : gridStep coarseOptions = 5 / 12 := if_pos (show (0 : ℝ) < 5 / 12 by norm_num)
  have hhalf : halfSteps coarseOptions = 1 := by
    have hrange : coarseOptions.tauRangeSeconds = 3 / 5 := rfl
    have hfloor : ⌊(3 / 5 / (5 / 12) : ℝ) + 1 / 2⌋ = 1 := by
      rw [Int.floor_eq_iff]
      norm_num
    rw [halfSteps, hgrid, hrange, if_pos (by norm_num), Ir.llround, if_pos (by norm_num), hfloor]
    rfl
  have hhead : (ranked (gatedBins coarseInput coarseOptions) (gridStep coarseOptions)
      (halfSteps coarseOptions)).head? =
        some ⟨-(5 / 12), agreementAt coarseBand (-(5 / 12))⟩ := by
    rw [ranked, gatedBins_coarse, hgrid, hhalf, candidates_coarse, List.mergeSort_singleton]
    rfl
  have hdelay : OneDelay (gatedBins coarseInput coarseOptions) (gridStep coarseOptions)
      coarseOptions.tauRangeSeconds 0 (1 / 6) := by
    rw [gatedBins_coarse, hgrid]
    exact oneDelay_coarse
  refine ⟨hdelay, ?_⟩
  rw [crossoverBandFit_eq hdelay.two hdelay.weightSum_pos hhead, hgrid]
  norm_num

end Spec

end Dsp

end RtaTool
