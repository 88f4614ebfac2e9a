import RtaTool.Dsp.TransferEstimator
import RtaTool.Lib.FirstMax
import RtaTool.Lib.GreedySelect

/-!
# Correlation with a phase transform

`PhatCorrelation.h` and `DelayFinder.cpp`. The cross spectrum of two spans, in a band, is divided by
its magnitude and transformed back. A peak of what comes back is refined by a parabola. One way to
pick is a single scan for the largest, the other ranks all that are inside a window and leaves out
the shoulders of those that are taken.

A vector that is longer than a vector can be is refused, as the allocator does.

## Main definitions

* `PhatOptions`, `PhatResult`, `SpectralPeak`, `DelayEstimate`
* `computePhatCorrelation`, `refine`, `pickBestPeak`, `pickPeaks`, `findDelayPhat`
* `lagIndex`, `circularDistance`

## Main results

* `pickBestPeak_eq` -- the scan finds the first of the largest
* `pickPeaks_eq`, `pickPeaks_spec` -- **Headline.** What is picked, and why the rest is not
* `head?_pickPeaks` -- without a window the first pick is that of the scan
-/

namespace RtaTool

namespace Dsp

/-! ### Spans and options -/

/-- `PhatOptions`. -/
structure PhatOptions (K : Type*) where
  sampleRate : K
  regularisation : K
  minHz : K
  maxHz : K

/-- `DelayEstimate`. -/
structure DelayEstimate (K : Type*) where
  delaySamples : ℤ
  subSample : K
  peak : K
  inverted : Bool

/-- `SpectralPeak`. -/
structure SpectralPeak (K : Type*) where
  lag : ℤ
  subSample : K
  height : K

/-- `PhatResult`. -/
structure PhatResult (K : Type*) where
  correlation : ℕ → K
  m : ℕ
  inBandBins : ℕ

/-- The functions of the standard library. -/
structure DelayMath (K : Type*) [CommRing K] where
  trig : Trig K
  sqrt : K → K
  log : K → K

universe u

variable {K : Type u} [Field K] [LinearOrder K] (math : DelayMath K)

/-- `validateSpans(reference, measurement, minHz, maxHz)`. -/
def validateSpans (reference measurement : List K) (minHz maxHz : K) :
    Except String PUnit.{u + 1} :=
  if reference = [] ∨ measurement = [] then .error "delay: spans must not be empty"
  else if reference.length ≠ measurement.length then
    .error "delay: reference and measurement lengths differ"
  else if 0 < maxHz ∧ maxHz < minHz then .error "delay: maxHz is below minHz"
  else .ok ⟨⟩

/-- A vector of `length` elements of `bytes` each. -/
def checkVector (length bytes : ℕ) : Except String PUnit :=
  if (2 ^ 63 - 1) / bytes < length then
    .error "cannot create std::vector larger than max_size()"
  else .ok ⟨⟩

/-! ### The correlation -/

/-- `loMinHz`. -/
def loMinHz (options : PhatOptions K) : K := max options.minHz 0

/-- `loMaxHz`. -/
def loMaxHz (options : PhatOptions K) : K :=
  if 0 < options.maxHz then options.maxHz else options.sampleRate * (1 / 2)

/-- A bin is in the band. -/
def inBand (options : PhatOptions K) (m k : ℕ) : Bool :=
  let freq := k * options.sampleRate / m
  !(freq < loMinHz options || loMaxHz options < freq)

/-- `g[k]`. -/
def crossBin (options : PhatOptions K) (m : ℕ) (x y : ℕ → Cplx K) (k : ℕ) : Cplx K :=
  if inBand options m k then star (x k) * y k else 0

/-- `magG[k]`. -/
def magG (options : PhatOptions K) (m : ℕ) (x y : ℕ → Cplx K) (k : ℕ) : K :=
  if inBand options m k then cplxAbs math.sqrt (crossBin options m x y k) else 0

/-- The bins that the loop over the band counts. -/
def bandBins (options : PhatOptions K) (m : ℕ) : List ℕ :=
  (List.range (m / 2 + 1)).filter (inBand options m)

/-- `floor`. -/
def phatFloor (options : PhatOptions K) (m : ℕ) (x y : ℕ → Cplx K) : K :=
  let maxAbsG := (bandBins options m).foldl
    (fun maxAbsG k => max maxAbsG (magG math options m x y k)) 0
  options.regularisation * maxAbsG

/-- `weighted[k]`. -/
def weightedBin (options : PhatOptions K) (m : ℕ) (x y : ℕ → Cplx K) (k : ℕ) : Cplx K :=
  if magG math options m x y k ≤ 0 then 0
  else
    let denom := max (magG math options m x y k) (phatFloor math options m x y)
    (1 / denom) • crossBin options m x y k

/-- `std::bit_ceil`. -/
def bitCeil (n : ℕ) : ℕ := 2 ^ Nat.clog 2 n

/-- The length of the transform. -/
def phatSize (inputLen : ℕ) : ℕ := bitCeil (max (2 * inputLen) 4)

/-- `computePhatCorrelation(reference, measurement, ...)`. -/
def computePhatCorrelation (reference measurement : List K) (options : PhatOptions K) :
    Except String (PhatResult K) := do
  let m := phatSize reference.length
  checkVector m 4
  let fft ← RealFftTables.make math.trig m
  let x ← fft.forward m (fun n => reference.getD n 0) fft.numBins
  let y ← fft.forward m (fun n => measurement.getD n 0) fft.numBins
  let correlation ← fft.inverse fft.numBins (weightedBin math options m x y) m
  return { correlation, m, inBandBins := (bandBins options m).length }

/-! ### Peaks -/

/-- `wrapLag(i, m)`. -/
def wrapLag (i m : ℕ) : ℤ := if i < m / 2 then i else (i : ℤ) - m

/-- `inWindow(lag, minLag, maxLag)`. -/
def inWindow (lag minLag maxLag : ℤ) : Bool := minLag ≤ lag && lag ≤ maxLag

/-- `refine(correlation, idx, m)`. -/
def refine (correlation : ℕ → K) (idx m : ℕ) : SpectralPeak K :=
  let lag := wrapLag idx m
  let height := correlation idx
  let inverted : Bool := height < 0
  let prevIndex := (idx + m - 1) % m
  let nextIndex := (idx + 1) % m
  let sign : K := if inverted then -1 else 1
  let rm := sign * correlation prevIndex
  let rc := sign * correlation idx
  let rp := sign * correlation nextIndex
  let denom := rm - 2 * rc + rp
  let subSample :=
    if denom ≠ 0 then clampBetween (-(1 / 2)) (1 / 2) (1 / 2 * (rm - rp) / denom) else 0
  { lag, subSample, height }

/-- `pickBestPeak(correlation, m)`. -/
def pickBestPeak (correlation : ℕ → K) (m : ℕ) : SpectralPeak K :=
  if m = 0 then { lag := 0, subSample := 0, height := 0 }
  else
    let best := (List.range' 1 (m - 1)).foldl
      (fun (best : ℕ × K) i =>
        let a := |correlation i|
        if best.2 < a then (i, a) else best)
      (0, |correlation 0|)
    refine correlation best.1 m

/-- `Candidate`. -/
structure Candidate (K : Type*) where
  idx : ℕ
  absHeight : K

/-- Where a lag is found. -/
def lagIndex (m : ℕ) (lag : ℤ) : ℕ := if 0 ≤ lag then lag.toNat else (lag + m).toNat

/-- How far two places are apart on the circle. -/
def circularDistance (m i j : ℕ) : ℕ :=
  let d := if j < i then i - j else j - i
  min d (m - d)

/-- `kMinSeparation`. -/
def kMinSeparation : ℕ := 2

/-- A candidate is a shoulder of a peak that is kept. -/
def tooClose (m idx : ℕ) (kept : SpectralPeak K) : Bool :=
  circularDistance m idx (lagIndex m kept.lag) < kMinSeparation

/-- The loop over the ranked candidates. -/
def pickLoop (correlation : ℕ → K) (m : ℕ) (maxCandidates : ℤ) :
    List (SpectralPeak K) → List (Candidate K) → List (SpectralPeak K)
  | picks, [] => picks
  | picks, cand :: pool =>
    if picks.any (tooClose m cand.idx) then pickLoop correlation m maxCandidates picks pool
    else
      let picks := picks ++ [refine correlation cand.idx m]
      if maxCandidates ≤ picks.length then picks
      else pickLoop correlation m maxCandidates picks pool

/-- The candidates inside the window. -/
def candidatePool (correlation : ℕ → K) (m : ℕ) (minLag maxLag : ℤ) : List (Candidate K) :=
  ((List.range m).filter fun i => inWindow (wrapLag i m) minLag maxLag).map fun i =>
    { idx := i, absHeight := |correlation i| }

/-- `pickPeaks(correlation, m, minLag, maxLag, maxCandidates)`. -/
def pickPeaks (correlation : ℕ → K) (m : ℕ) (minLag maxLag maxCandidates : ℤ) :
    Except String (List (SpectralPeak K)) :=
  if maxCandidates ≤ 0 ∨ m = 0 then .ok []
  else do
    checkVector m 16
    let pool := candidatePool correlation m minLag maxLag
    if pool.isEmpty then return []
    else
      let ranked := pool.mergeSort fun x y => y.absHeight ≤ x.absHeight
      return pickLoop correlation m maxCandidates [] ranked

/-! ### `DelayFinder.cpp` -/

/-- `findDelayPhat(reference, measurement, options)`. -/
def findDelayPhat (reference measurement : List K) (options : PhatOptions K) :
    Except String (DelayEstimate K) := do
  validateSpans reference measurement options.minHz options.maxHz
  let phat ← computePhatCorrelation math reference measurement options
  let peak := pickBestPeak phat.correlation phat.m
  return {
    delaySamples := peak.lag
    subSample := peak.subSample
    peak := |peak.height|
    inverted := peak.height < 0 }

/-! ### Lags and places -/

theorem lagIndex_wrapLag {i m : ℕ} (hi : i < m) : lagIndex m (wrapLag i m) = i := by
  rw [lagIndex, wrapLag]
  split_ifs <;> omega

theorem wrapLag_inj {i j m : ℕ} (hi : i < m) (hj : j < m) (h : wrapLag i m = wrapLag j m) :
    i = j := by
  rw [← lagIndex_wrapLag hi, h, lagIndex_wrapLag hj]

theorem circularDistance_comm (m i j : ℕ) : circularDistance m i j = circularDistance m j i := by
  rw [circularDistance, circularDistance]
  obtain hlt | rfl | hgt := Nat.lt_trichotomy i j
  · rw [if_neg (by omega), if_pos hlt]
  · rfl
  · rw [if_pos hgt, if_neg (by omega)]

variable [IsStrictOrderedRing K] (correlation : ℕ → K)

theorem abs_refine_subSample (idx m : ℕ) : |(refine correlation idx m).subSample| ≤ 1 / 2 := by
  have hclamp : ∀ v : K, |clampBetween (-(1 / 2)) (1 / 2) v| ≤ 1 / 2 := by
    intro v
    rw [abs_le, clampBetween]
    have hhalf : (0 : K) < 1 / 2 := by positivity
    split_ifs with hlow hhigh
    · exact ⟨le_rfl, by linarith⟩
    · exact ⟨by linarith, le_rfl⟩
    · exact ⟨not_lt.mp hlow, not_lt.mp hhigh⟩
  have hchosen : ∀ (c : Prop) [Decidable c] (v : K),
      |if c then clampBetween (-(1 / 2)) (1 / 2) v else 0| ≤ 1 / 2 := by
    intro c _ v
    split_ifs
    · exact hclamp v
    · rw [abs_zero]
      positivity
  exact hchosen _ _

/-! ### The scan for the largest -/

omit [IsStrictOrderedRing K] in
/-- The scan finds the first of the largest. -/
theorem pickBestPeak_eq {m : ℕ} (hm : 0 < m) : ∃ i < m,
    firstMax (fun i => |correlation i|) (List.range m) = some i ∧
      pickBestPeak correlation m = refine correlation i m := by
  have hscan : ∀ l : List ℕ, ∃ i,
      (0 :: l).foldl (keepGreater fun i => |correlation i|) none = some i ∧
      l.foldl (fun (best : ℕ × K) i => if best.2 < |correlation i| then (i, |correlation i|) else best)
        (0, |correlation 0|) = (i, |correlation i|) := by
    intro l
    induction l using List.reverseRecOn with
    | nil => exact ⟨0, rfl, rfl⟩
    | append_singleton l j ih =>
      obtain ⟨i, hfirst, hbest⟩ := ih
      rw [← List.cons_append, List.foldl_append, List.foldl_append, hfirst, hbest]
      by_cases hlt : |correlation i| < |correlation j|
      · exact ⟨j, by simp [keepGreater, hlt], by simp [hlt]⟩
      · exact ⟨i, by simp [keepGreater, hlt], by simp [hlt]⟩
  have hrange : List.range m = 0 :: List.range' 1 (m - 1) := by
    rw [List.range_eq_range', ← Nat.sub_add_cancel hm, List.range'_succ, Nat.add_sub_cancel]
  obtain ⟨i, hfirst, hbest⟩ := hscan (List.range' 1 (m - 1))
  rw [← hrange] at hfirst
  refine ⟨i, List.mem_range.mp (mem_of_firstMax hfirst).1, hfirst, ?_⟩
  rw [pickBestPeak, if_neg hm.ne']
  dsimp only
  rw [hbest]

/-! ### What is picked -/

/-- The peak of a candidate. -/
def peakOf (m : ℕ) (cand : Candidate K) : SpectralPeak K := refine correlation cand.idx m

/-- One candidate is a shoulder of another. -/
def shoulder (m : ℕ) (cand kept : Candidate K) : Bool :=
  circularDistance m cand.idx kept.idx < kMinSeparation

omit [IsStrictOrderedRing K] in
theorem pickLoop_eq {m : ℕ} {limit : ℕ} {taken pool : List (Candidate K)}
    (htaken : ∀ cand ∈ taken, cand.idx < m) (hpool : ∀ cand ∈ pool, cand.idx < m) :
    pickLoop correlation m limit (taken.map (peakOf correlation m)) pool =
      (greedySelect (shoulder m) limit taken pool).map (peakOf correlation m) := by
  induction pool generalizing taken with
  | nil => rfl
  | cons cand pool ih =>
    have hcand := hpool cand List.mem_cons_self
    have hrest : ∀ cand ∈ pool, cand.idx < m := fun c hc => hpool c (List.mem_cons_of_mem cand hc)
    have hmore : ∀ c ∈ taken ++ [cand], c.idx < m := by
      intro c hc
      obtain hc | hc := List.mem_append.mp hc
      · exact htaken c hc
      · rwa [List.mem_singleton.mp hc]
    have hany : (taken.map (peakOf correlation m)).any (tooClose m cand.idx) =
        taken.any (shoulder m cand) := by
      rw [List.any_map, Bool.eq_iff_iff, List.any_eq_true, List.any_eq_true]
      refine exists_congr fun c => and_congr_right fun hc => ?_
      rw [Function.comp_apply, tooClose, shoulder, peakOf, refine]
      dsimp only
      rw [lagIndex_wrapLag (htaken c hc)]
    have hpicks : taken.map (peakOf correlation m) ++ [refine correlation cand.idx m] =
        (taken ++ [cand]).map (peakOf correlation m) := by
      rw [List.map_append]
      rfl
    have henough : (limit : ℤ) ≤ ((taken ++ [cand]).map (peakOf correlation m)).length ↔
        limit ≤ (taken ++ [cand]).length := by
      rw [List.length_map, Nat.cast_le]
    rw [pickLoop, greedySelect, hany]
    dsimp only
    rw [hpicks, if_congr henough rfl (ih hmore hrest), ih htaken hrest]
    split_ifs <;> rfl

/-- What the picks of a window are. -/
structure PickSpec (m : ℕ) (minLag maxLag maxCandidates : ℤ) (picks : List (SpectralPeak K)) :
    Prop where
  refined : ∀ peak ∈ picks, ∃ i < m, inWindow (wrapLag i m) minLag maxLag = true ∧
    peak = refine correlation i m
  ranked : picks.Pairwise fun p q => |q.height| ≤ |p.height|
  apart : picks.Pairwise fun p q =>
    kMinSeparation ≤ circularDistance m (lagIndex m p.lag) (lagIndex m q.lag)
  few : (picks.length : ℤ) ≤ maxCandidates
  maximal : ∀ i < m, inWindow (wrapLag i m) minLag maxLag = true →
    (∃ peak ∈ picks, peak.lag = wrapLag i m) ∨
    (∃ peak ∈ picks, circularDistance m i (lagIndex m peak.lag) < kMinSeparation ∧
      |correlation i| ≤ |peak.height|) ∨
    maxCandidates = picks.length ∧ ∀ peak ∈ picks, |correlation i| ≤ |peak.height|

variable {correlation} {m : ℕ} {minLag maxLag maxCandidates : ℤ} {picks : List (SpectralPeak K)}

omit [IsStrictOrderedRing K] in
theorem mem_candidatePool {cand : Candidate K} :
    cand ∈ candidatePool correlation m minLag maxLag ↔ ∃ i < m,
      inWindow (wrapLag i m) minLag maxLag = true ∧
        cand = { idx := i, absHeight := |correlation i| } := by
  rw [candidatePool, List.mem_map]
  simp only [List.mem_filter, List.mem_range, and_assoc, eq_comm]

/-- The candidates, ranked. -/
def rankedPool (correlation : ℕ → K) (m : ℕ) (minLag maxLag : ℤ) : List (Candidate K) :=
  (candidatePool correlation m minLag maxLag).mergeSort fun x y => y.absHeight ≤ x.absHeight

omit [IsStrictOrderedRing K] in
theorem pairwise_rankedPool : (rankedPool correlation m minLag maxLag).Pairwise
    fun x y => y.absHeight ≤ x.absHeight := by
  refine (List.pairwise_mergeSort (fun a b c hab hbc => ?_) (fun a b => ?_) _).imp
    fun h => of_decide_eq_true h
  · exact decide_eq_true ((of_decide_eq_true hbc).trans (of_decide_eq_true hab))
  · rw [Bool.or_eq_true, decide_eq_true_iff, decide_eq_true_iff]
    exact le_total _ _

omit [IsStrictOrderedRing K] in
/-- The picks are the selection from the ranking. -/
theorem pickPeaks_eq (hm : 0 < m) {limit : ℕ} (hlimit : 0 < limit)
    (h : pickPeaks correlation m minLag maxLag limit = .ok picks) :
    picks = (greedySelect (shoulder m) limit [] (rankedPool correlation m minLag maxLag)).map
      (peakOf correlation m) := by
  have hpool : ∀ cand ∈ rankedPool correlation m minLag maxLag, cand.idx < m := by
    intro cand hcand
    obtain ⟨i, hi, -, rfl⟩ := mem_candidatePool.mp (List.mem_mergeSort.mp hcand)
    exact hi
  have hloop : pickLoop correlation m limit [] (rankedPool correlation m minLag maxLag) =
      (greedySelect (shoulder m) limit [] (rankedPool correlation m minLag maxLag)).map
        (peakOf correlation m) :=
    pickLoop_eq correlation (fun cand hcand => absurd hcand List.not_mem_nil) hpool
  rw [pickPeaks, if_neg (by omega)] at h
  rw [← hloop]
  cases hcheck : checkVector m 16 with
  | error what =>
    rw [hcheck] at h
    cases h
  | ok _ =>
    rw [hcheck] at h
    simp only [bind, Except.bind] at h
    split_ifs at h with hempty
    · rw [rankedPool, List.isEmpty_iff.mp hempty, List.mergeSort_nil]
      exact (Except.ok.inj h).symm
    · exact (Except.ok.inj h).symm

/-- **Headline.** What is picked, and why the rest is not. -/
theorem pickPeaks_spec (hm : 0 < m) {limit : ℕ} (hlimit : 0 < limit)
    (h : pickPeaks correlation m minLag maxLag limit = .ok picks) :
    PickSpec correlation m minLag maxLag limit picks := by
  obtain rfl := pickPeaks_eq hm hlimit h
  have hmem : ∀ cand ∈ greedySelect (shoulder m) limit [] (rankedPool correlation m minLag maxLag),
      ∃ i < m, inWindow (wrapLag i m) minLag maxLag = true ∧
        cand = { idx := i, absHeight := |correlation i| } := by
    intro cand hcand
    exact mem_candidatePool.mp (List.mem_mergeSort.mp
      ((greedySelect_sublist (shoulder m) limit [] _).subset hcand))
  have hheight : ∀ i < m, |(peakOf correlation m ⟨i, |correlation i|⟩).height| = |correlation i| :=
    fun _ _ => rfl
  have hlag : ∀ i < m, lagIndex m (peakOf correlation m ⟨i, |correlation i|⟩).lag = i :=
    fun i hi => lagIndex_wrapLag hi
  refine ⟨List.forall_mem_map.mpr fun cand hcand => ?_, List.pairwise_map.mpr ?_,
    List.pairwise_map.mpr ?_, ?_, fun i hi hin => ?_⟩
  · obtain ⟨i, hi, hin, rfl⟩ := hmem cand hcand
    exact ⟨i, hi, hin, rfl⟩
  · refine (pairwise_rankedPool.sublist (greedySelect_sublist _ _ [] _)).imp_of_mem ?_
    intro a b ha hb hab
    obtain ⟨i, hi, -, rfl⟩ := hmem a ha
    obtain ⟨j, hj, -, rfl⟩ := hmem b hb
    exact hab
  · refine (pairwise_greedySelect (shoulder m) limit _ .nil).imp_of_mem ?_
    intro a b ha hb hab
    obtain ⟨i, hi, -, rfl⟩ := hmem a ha
    obtain ⟨j, hj, -, rfl⟩ := hmem b hb
    rw [hlag i hi, hlag j hj, circularDistance_comm]
    exact not_lt.mp (of_decide_eq_false hab)
  · rw [List.length_map, Nat.cast_le]
    exact length_greedySelect_le _ _ _ hlimit
  · have hcand : (⟨i, |correlation i|⟩ : Candidate K) ∈ rankedPool correlation m minLag maxLag :=
      List.mem_mergeSort.mpr (mem_candidatePool.mpr ⟨i, hi, hin, rfl⟩)
    have hranked : ([] ++ rankedPool correlation m minLag maxLag).Pairwise
        fun x y : Candidate K => y.absHeight ≤ x.absHeight := pairwise_rankedPool
    obtain hin | ⟨kept, hkept, hclose, hle⟩ | ⟨henough, hall⟩ :=
      greedySelect_maximal (shoulder m) limit hranked hcand
    · exact .inl ⟨_, List.mem_map_of_mem hin, rfl⟩
    · obtain ⟨j, hj, -, rfl⟩ := hmem kept hkept
      refine .inr (.inl ⟨_, List.mem_map_of_mem hkept, ?_, hle⟩)
      rw [hlag j hj]
      exact of_decide_eq_true hclose
    · refine .inr (.inr ⟨?_, List.forall_mem_map.mpr fun kept hkept => ?_⟩)
      · rw [List.length_map, Nat.cast_inj]
        exact le_antisymm henough (length_greedySelect_le _ _ _ hlimit)
      · obtain ⟨j, hj, -, rfl⟩ := hmem kept hkept
        exact hall _ hkept

omit [IsStrictOrderedRing K] in
/-- Without a window the first pick is what the scan finds. -/
theorem head?_pickPeaks (hm : 0 < m) {limit : ℕ} (hlimit : 0 < limit)
    (hwindow : ∀ i < m, inWindow (wrapLag i m) minLag maxLag = true)
    (h : pickPeaks correlation m minLag maxLag limit = .ok picks) :
    picks.head? = some (pickBestPeak correlation m) := by
  obtain rfl := pickPeaks_eq hm hlimit h
  obtain ⟨i, hi, hfirst, hbest⟩ := pickBestPeak_eq correlation hm
  have hall : (List.range m).filter (fun i => inWindow (wrapLag i m) minLag maxLag) =
      List.range m :=
    List.filter_eq_self.mpr fun i hi => hwindow i (List.mem_range.mp hi)
  have hhead : (rankedPool correlation m minLag maxLag).head? =
      some ⟨i, |correlation i|⟩ := by
    rw [rankedPool, head?_mergeSort, candidatePool, hall, firstMax_map, Function.comp_def, hfirst]
    rfl
  obtain ⟨rest, hranked⟩ := List.head?_eq_some_iff.mp hhead
  have hprefix : [⟨i, |correlation i|⟩] <+:
      greedySelect (shoulder m) limit [] (rankedPool correlation m minLag maxLag) := by
    rw [hranked, greedySelect]
    split_ifs with hany henough
    · exact absurd hany (by simp)
    · exact List.prefix_rfl
    · exact prefix_greedySelect _ _ _ _
  obtain ⟨more, hmore⟩ := hprefix
  rw [← hmore, hbest]
  rfl

end Dsp

end RtaTool
