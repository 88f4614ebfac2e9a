import RtaTool.Dsp.PhatHeights

/-!
# A suggested delay

`DelayPolicy.cpp`. The peaks inside a window, ranked, with what they are worth: how high the best one
is for the width of the band, how high chance alone would come, and how near the second one is. A
window that was stated and has nothing above chance is answered with no candidate at all.

## Main definitions

* `DelayPolicy`, `DelaySuggestion`
* `suggestFrom`, `suggestDelay`

## Main results

* `suggestDelay_candidates` -- **Headline.** The best of an open window, and the candidates of any
-/

namespace RtaTool

namespace Dsp

/-- `DelayCandidate`. -/
structure DelayCandidate (K : Type*) where
  delaySamples : ℤ
  subSample : K
  height : K
  inverted : Bool

/-- `DelayVerdict`. -/
inductive DelayVerdict
  | accepted
  | belowFloor
  | windowEmpty
  deriving DecidableEq, Repr

/-- `DelaySuggestion`. -/
structure DelaySuggestion (K : Type*) where
  best : DelayEstimate K
  trust : K
  nullFloor : K
  ambiguity : K
  candidates : List (DelayCandidate K)
  verdict : DelayVerdict

/-- `DelayPolicy`. -/
structure DelayPolicy (K : Type*) where
  minLag : ℤ
  maxLag : ℤ
  maxCandidates : ℤ
  acceptMultiple : K

/-- `std::numeric_limits<std::ptrdiff_t>::min()`. -/
def minPtrdiff : ℤ := -2 ^ 63

/-- `std::numeric_limits<std::ptrdiff_t>::max()`. -/
def maxPtrdiff : ℤ := 2 ^ 63 - 1

variable {K : Type*}

/-- `isRestrictedWindow(policy)`. -/
def isRestrictedWindow (policy : DelayPolicy K) : Bool :=
  policy.minLag != minPtrdiff || policy.maxLag != maxPtrdiff

variable [Field K] [LinearOrder K] (math : DelayMath K)

/-- `nullFloor`. -/
def nullFloor (phat : PhatResult K) : K :=
  if 0 < phat.inBandBins then math.sqrt (math.log phat.m / phat.inBandBins) else 1

/-- `fBand`. -/
def bandFraction (options : PhatOptions K) : K :=
  (loMaxHz options - loMinHz options) / (options.sampleRate * (1 / 2))

/-- `bestTrust`, of the height of the best peak. -/
def trustOf (options : PhatOptions K) (bestPeakAbs : K) : K :=
  if 0 < bandFraction options then bestPeakAbs / bandFraction options else 0

/-- The candidate of a peak. -/
def candidateOf (peak : SpectralPeak K) : DelayCandidate K where
  delaySamples := peak.lag
  subSample := peak.subSample
  height := peak.height
  inverted := peak.height < 0

/-- `suggestDelay`, from the peaks on. -/
def suggestFrom (phat : PhatResult K) (peaks : List (SpectralPeak K)) (options : PhatOptions K)
    (policy : DelayPolicy K) : DelaySuggestion K :=
  let suggestion : DelaySuggestion K :=
    { best := { delaySamples := 0, subSample := 0, peak := 0, inverted := false }
      trust := 0, nullFloor := nullFloor math phat, ambiguity := 0, candidates := []
      verdict := .windowEmpty }
  match peaks with
  | [] => suggestion
  | front :: rest =>
    let bestPeakAbs := |front.height|
    let bestTrust := trustOf options bestPeakAbs
    if isRestrictedWindow policy ∧ bestTrust < suggestion.nullFloor then
      { suggestion with trust := bestTrust }
    else
      { suggestion with
        best :=
          { delaySamples := front.lag
            subSample := front.subSample
            peak := bestPeakAbs
            inverted := front.height < 0 }
        candidates := (front :: rest).map candidateOf
        ambiguity := match rest with
          | [] => 0
          | second :: _ => |second.height| / bestPeakAbs
        trust := bestTrust
        verdict :=
          if policy.acceptMultiple * suggestion.nullFloor ≤ bestTrust then .accepted
          else .belowFloor }

/-- `suggestDelay(reference, measurement, options, policy)`. -/
def suggestDelay (reference measurement : List K) (options : PhatOptions K)
    (policy : DelayPolicy K) : Except String (DelaySuggestion K) := do
  validateSpans reference measurement options.minHz options.maxHz
  let phat ← computePhatCorrelation math reference measurement options
  let maxCandidates := max policy.maxCandidates 0
  let peaks ← pickPeaks phat.correlation phat.m policy.minLag policy.maxLag maxCandidates
  return suggestFrom math phat peaks options policy

/-! ### What goes right -/

variable {math} {reference measurement : List K} {options : PhatOptions K} {policy : DelayPolicy K}

theorem computePhatCorrelation_ok {phat : PhatResult K}
    (h : computePhatCorrelation math reference measurement options = .ok phat) :
    phat.m = phatSize reference.length ∧ 0 < phat.m ∧ (phat.m : ℤ) ≤ maxPtrdiff := by
  obtain ⟨_, hcheck, h⟩ := DualFftEngine.ok_of_bind h
  obtain ⟨fft, hmake, h⟩ := DualFftEngine.ok_of_bind h
  obtain ⟨x, -, h⟩ := DualFftEngine.ok_of_bind h
  obtain ⟨y, -, h⟩ := DualFftEngine.ok_of_bind h
  obtain ⟨correlation, -, h⟩ := DualFftEngine.ok_of_bind h
  cases h
  obtain ⟨levels, half, hsize, -⟩ := RealFftTables.make_eq_ok.mp hmake
  have hpos : 0 < phatSize reference.length := hsize ▸ Nat.two_pow_pos _
  have hlimit : phatSize reference.length ≤ (2 ^ 63 - 1) / 4 := by
    rw [checkVector] at hcheck
    split_ifs at hcheck with hlong
    exact not_lt.mp hlong
  refine ⟨rfl, hpos, ?_⟩
  dsimp only
  rw [maxPtrdiff]
  omega

omit [Field K] [LinearOrder K] in
theorem inWindow_of_not_restricted (hpolicy : isRestrictedWindow policy = false) {m i : ℕ}
    (hm : (m : ℤ) ≤ maxPtrdiff) (hi : i < m) :
    inWindow (wrapLag i m) policy.minLag policy.maxLag = true := by
  rw [isRestrictedWindow, Bool.or_eq_false_iff, bne_eq_false_iff_eq, bne_eq_false_iff_eq] at hpolicy
  rw [maxPtrdiff] at hm
  rw [inWindow, hpolicy.1, hpolicy.2, minPtrdiff, maxPtrdiff, wrapLag, Bool.and_eq_true,
    decide_eq_true_iff, decide_eq_true_iff]
  split_ifs <;> omega

theorem suggestDelay_ok {suggestion : DelaySuggestion K}
    (h : suggestDelay math reference measurement options policy = .ok suggestion) :
    ∃ phat peaks,
      validateSpans reference measurement options.minHz options.maxHz = .ok ⟨⟩ ∧
      computePhatCorrelation math reference measurement options = .ok phat ∧
      pickPeaks phat.correlation phat.m policy.minLag policy.maxLag (max policy.maxCandidates 0) =
        .ok peaks ∧
      suggestion = suggestFrom math phat peaks options policy := by
  obtain ⟨⟨⟩, hvalid, h⟩ := DualFftEngine.ok_of_bind h
  obtain ⟨phat, hphat, h⟩ := DualFftEngine.ok_of_bind h
  obtain ⟨peaks, hpeaks, h⟩ := DualFftEngine.ok_of_bind h
  exact ⟨phat, peaks, hvalid, hphat, hpeaks, (Except.ok.inj h).symm⟩

/-! ### The candidates -/

/-- A window that was stated, and nothing in it that is above chance. -/
def Withheld (policy : DelayPolicy K) (suggestion : DelaySuggestion K) : Prop :=
  isRestrictedWindow policy = true ∧ suggestion.trust < suggestion.nullFloor

theorem suggestFrom_candidates (math : DelayMath K) (options : PhatOptions K)
    (policy : DelayPolicy K) (phat : PhatResult K) (peaks : List (SpectralPeak K)) :
    (Withheld policy (suggestFrom math phat peaks options policy) ∧ peaks ≠ [] ∧
      (suggestFrom math phat peaks options policy).candidates = [] ∧
      (suggestFrom math phat peaks options policy).best.subSample = 0) ∨
    (peaks ≠ [] → ¬ Withheld policy (suggestFrom math phat peaks options policy)) ∧
      (suggestFrom math phat peaks options policy).candidates = peaks.map candidateOf ∧
      (suggestFrom math phat peaks options policy).best.subSample =
        (peaks.head?.map SpectralPeak.subSample).getD 0 := by
  rw [suggestFrom.eq_def]
  cases peaks with
  | nil => exact .inr ⟨fun hne => absurd rfl hne, rfl, rfl⟩
  | cons front rest =>
    dsimp only
    by_cases hbelow : isRestrictedWindow policy = true ∧
        trustOf options |front.height| < nullFloor math phat
    · rw [if_pos hbelow]
      exact .inl ⟨hbelow, List.cons_ne_nil _ _, rfl, rfl⟩
    · rw [if_neg hbelow]
      exact .inr ⟨fun _ => hbelow, rfl, rfl⟩

theorem suggestFrom_best (math : DelayMath K) (options : PhatOptions K) (phat : PhatResult K)
    (front : SpectralPeak K) (rest : List (SpectralPeak K))
    (hpolicy : isRestrictedWindow policy = false) :
    (suggestFrom math phat (front :: rest) options policy).best =
      { delaySamples := front.lag
        subSample := front.subSample
        peak := |front.height|
        inverted := front.height < 0 } ∧
      (suggestFrom math phat (front :: rest) options policy).candidates =
        (front :: rest).map candidateOf := by
  rw [suggestFrom.eq_def]
  dsimp only
  rw [if_neg (by simp [hpolicy])]
  exact ⟨rfl, rfl⟩

variable [IsStrictOrderedRing K]

/-- **Headline.** Of a window that is not restricted the best lag, its offset and its height are
those of `findDelayPhat`. The candidates of any window are inside it, ranked, apart and no more than
asked for, with offsets of half a sample at most; and unless all of them are withheld, a lag inside
the window that is not listed is next to one that is at least as high, or as many at least as high
are listed as were asked for. -/
theorem suggestDelay_candidates (math : DelayMath K) (reference measurement : List K)
    (options : PhatOptions K) (policy : DelayPolicy K) (suggestion : DelaySuggestion K)
    (hK : 1 ≤ policy.maxCandidates)
    (h : suggestDelay math reference measurement options policy = .ok suggestion) :
    ∃ phat, computePhatCorrelation math reference measurement options = .ok phat ∧
      phat.m = phatSize reference.length ∧
      (isRestrictedWindow policy = false →
        findDelayPhat math reference measurement options = .ok suggestion.best ∧
        ∃ best rest, suggestion.candidates = best :: rest ∧
          best.delaySamples = suggestion.best.delaySamples ∧
          best.subSample = suggestion.best.subSample ∧ |best.height| = suggestion.best.peak) ∧
      (∀ candidate ∈ suggestion.candidates,
        inWindow candidate.delaySamples policy.minLag policy.maxLag = true ∧
        |candidate.subSample| ≤ 1 / 2 ∧
        candidate.height = phat.correlation (lagIndex phat.m candidate.delaySamples)) ∧
      |suggestion.best.subSample| ≤ 1 / 2 ∧
      suggestion.candidates.Pairwise (fun c d => |d.height| ≤ |c.height|) ∧
      suggestion.candidates.Pairwise (fun c d => 2 ≤ circularDistance phat.m
        (lagIndex phat.m c.delaySamples) (lagIndex phat.m d.delaySamples)) ∧
      (suggestion.candidates.length : ℤ) ≤ policy.maxCandidates ∧
      (¬ Withheld policy suggestion → ∀ i < phat.m,
        inWindow (wrapLag i phat.m) policy.minLag policy.maxLag = true →
        (∃ candidate ∈ suggestion.candidates, candidate.delaySamples = wrapLag i phat.m) ∨
        (∃ candidate ∈ suggestion.candidates,
          circularDistance phat.m i (lagIndex phat.m candidate.delaySamples) ≤ 1 ∧
            |phat.correlation i| ≤ |candidate.height|) ∨
        policy.maxCandidates = suggestion.candidates.length ∧
          ∀ candidate ∈ suggestion.candidates, |phat.correlation i| ≤ |candidate.height|) ∧
      (Withheld policy suggestion → suggestion.candidates = []) := by
  obtain ⟨phat, peaks, hvalid, hphat, hpeaks, rfl⟩ := suggestDelay_ok h
  obtain ⟨hsize, hpos, hlimit⟩ := computePhatCorrelation_ok hphat
  obtain ⟨limit, hcount⟩ := Int.eq_ofNat_of_zero_le (zero_le_one.trans hK)
  have hmax : max policy.maxCandidates 0 = limit := by omega
  rw [hmax] at hpeaks
  have hspec := pickPeaks_spec hpos (by omega) hpeaks
  have hopen : isRestrictedWindow policy = false →
      peaks.head? = some (pickBestPeak phat.correlation phat.m) := fun hpolicy =>
    head?_pickPeaks hpos (by omega) (fun i hi => inWindow_of_not_restricted hpolicy hlimit hi) hpeaks
  have hsub : ∀ peak ∈ peaks, |peak.subSample| ≤ 1 / 2 := by
    intro peak hpeak
    obtain ⟨i, -, -, rfl⟩ := hspec.refined peak hpeak
    exact abs_refine_subSample _ _ _
  have hbest : |((peaks.head?.map SpectralPeak.subSample).getD 0 : K)| ≤ 1 / 2 := by
    cases hhead : peaks.head? with
    | none => simp
    | some front => exact hsub front (List.mem_of_head? hhead)
  refine ⟨phat, hphat, hsize, fun hpolicy => ?_, ?_⟩
  · obtain ⟨rest, rfl⟩ := List.head?_eq_some_iff.mp (hopen hpolicy)
    obtain ⟨hestimate, hcandidates⟩ := suggestFrom_best math options phat
      (pickBestPeak phat.correlation phat.m) rest hpolicy
    rw [hestimate, hcandidates]
    refine ⟨?_, _, _, rfl, rfl, rfl, rfl⟩
    simp only [findDelayPhat, hvalid, hphat, bind, Except.bind]
    rfl
  · obtain ⟨hwithheld, -, hnone, hzero⟩ | ⟨hgiven, hall, hfirst⟩ :=
      suggestFrom_candidates math options policy phat peaks
    · rw [hnone, hzero, abs_zero]
      exact ⟨by simp, by positivity, .nil, .nil, by simp; omega, fun hgiven => absurd hwithheld hgiven,
        fun _ => rfl⟩
    · rw [hall, hfirst]
      refine ⟨List.forall_mem_map.mpr fun peak hpeak => ?_, hbest,
        List.pairwise_map.mpr hspec.ranked, List.pairwise_map.mpr hspec.apart, ?_,
        fun _ i hi hin => ?_, fun hwithheld => ?_⟩
      · obtain ⟨i, hi, hin, rfl⟩ := hspec.refined peak hpeak
        refine ⟨hin, hsub _ hpeak, ?_⟩
        change phat.correlation i = phat.correlation (lagIndex phat.m (wrapLag i phat.m))
        rw [lagIndex_wrapLag hi]
      · rw [List.length_map, hcount]
        exact hspec.few
      · obtain ⟨peak, hpeak, hlag⟩ | ⟨peak, hpeak, hclose, hle⟩ | ⟨henough, hhigh⟩ :=
          hspec.maximal i hi hin
        · exact .inl ⟨_, List.mem_map_of_mem hpeak, hlag⟩
        · exact .inr (.inl ⟨_, List.mem_map_of_mem hpeak, Nat.lt_succ_iff.mp hclose, hle⟩)
        · refine .inr (.inr ⟨?_, List.forall_mem_map.mpr hhigh⟩)
          rw [List.length_map, hcount]
          exact henough
      · by_cases hne : peaks = []
        · rw [hne, List.map_nil]
        · exact absurd hwithheld (hgiven hne)

/-! ### Over the reals -/

section Reals

variable {options : PhatOptions ℝ} {policy : DelayPolicy ℝ}

theorem pickPeaks_eq_ok {K : Type*} [Field K] [LinearOrder K] (correlation : ℕ → K) {m : ℕ}
    (minLag maxLag maxCandidates : ℤ) (hroom : m ≤ (2 ^ 63 - 1) / 16) :
    ∃ peaks, pickPeaks correlation m minLag maxLag maxCandidates = .ok peaks := by
  rw [pickPeaks, checkVector, if_neg (not_lt.mpr hroom)]
  simp only [bind, Except.bind]
  split_ifs
  · exact ⟨_, rfl⟩
  · exact ⟨_, rfl⟩
  · exact ⟨_, rfl⟩

/-- Every pair of spans that is accepted is answered, where memory has room. -/
theorem suggestDelay_eq (reference measurement : List ℝ) (options : PhatOptions ℝ)
    (policy : DelayPolicy ℝ)
    (hvalid : validateSpans reference measurement options.minHz options.maxHz = .ok ⟨⟩)
    (hroom : phatSize reference.length ≤ (2 ^ 63 - 1) / 16) : ∃ phat peaks,
    computePhatCorrelation realDelay reference measurement options = .ok phat ∧
    pickPeaks phat.correlation phat.m policy.minLag policy.maxLag (max policy.maxCandidates 0) =
      .ok peaks ∧
    suggestDelay realDelay reference measurement options policy =
      .ok (suggestFrom realDelay phat peaks options policy) := by
  obtain ⟨correlation, hphat, -⟩ :=
    computePhatCorrelation_eq reference measurement options (hroom.trans (by decide))
  obtain ⟨peaks, hpeaks⟩ :=
    pickPeaks_eq_ok correlation policy.minLag policy.maxLag (max policy.maxCandidates 0) hroom
  refine ⟨_, peaks, hphat, hpeaks, ?_⟩
  simp only [suggestDelay, hvalid, hphat, hpeaks, bind, Except.bind]
  rfl

theorem nullFloor_pos {phat : PhatResult ℝ} (hm : 4 ≤ phat.m) : 0 < nullFloor realDelay phat := by
  rw [nullFloor]
  split_ifs with hbins
  · have hlog : 0 < Real.log phat.m := Real.log_pos (by exact_mod_cast (by omega : 1 < phat.m))
    have hcount : (0 : ℝ) < phat.inBandBins := Nat.cast_pos.mpr hbins
    exact Real.sqrt_pos.mpr (div_pos hlog hcount)
  · exact one_pos

theorem trustOf_zero {K : Type*} [Field K] [LinearOrder K] (options : PhatOptions K) :
    trustOf options 0 = 0 := by
  rw [trustOf]
  split_ifs
  · exact zero_div _
  · rfl

theorem suggestFrom_of_flat {phat : PhatResult ℝ} {peaks : List (SpectralPeak ℝ)}
    (hm : 4 ≤ phat.m) (hrestricted : isRestrictedWindow policy = true)
    (hflat : ∀ peak ∈ peaks.head?, peak.height = 0) :
    (suggestFrom realDelay phat peaks options policy).candidates = [] := by
  rw [suggestFrom.eq_def]
  cases peaks with
  | nil => rfl
  | cons front rest =>
    dsimp only
    rw [hflat front rfl, abs_zero, trustOf_zero, if_pos ⟨hrestricted, nullFloor_pos hm⟩]

/-- The options that are not stated. -/
noncomputable def defaultPhatOptions : PhatOptions ℝ :=
  { sampleRate := 48000, regularisation := 1 / 10 ^ 10, minHz := 0, maxHz := 0 }

/-- A policy with a window. -/
def windowPolicy (minLag maxLag : ℤ) : DelayPolicy ℝ :=
  { minLag, maxLag, maxCandidates := 4, acceptMultiple := 4 }

theorem validateSpans_singleton (v w : ℝ) :
    validateSpans [v] [w] defaultPhatOptions.minHz defaultPhatOptions.maxHz = .ok ⟨⟩ := by
  simp [validateSpans, defaultPhatOptions]

theorem suggestDelay_candidates_impulse : ∃ suggestion,
    suggestDelay realDelay [1] [1] defaultPhatOptions (windowPolicy minPtrdiff maxPtrdiff) =
      .ok suggestion ∧
    findDelayPhat realDelay [1] [1] defaultPhatOptions = .ok suggestion.best := by
  obtain ⟨phat, peaks, -, -, hok⟩ := suggestDelay_eq [1] [1] defaultPhatOptions
    (windowPolicy minPtrdiff maxPtrdiff) (validateSpans_singleton 1 1) (by decide)
  obtain ⟨-, -, -, hopen, -⟩ := suggestDelay_candidates realDelay [1] [1] defaultPhatOptions
    (windowPolicy minPtrdiff maxPtrdiff) _ (by decide) hok
  exact ⟨_, hok, (hopen rfl).1⟩

/-- Silence, and a window that has the lag zero only: no candidate is listed, and so none that is
next to that lag and as high, or as many as were asked for. -/
theorem suggestDelay_withholds : ∃ suggestion phat,
    suggestDelay realDelay [0] [0] defaultPhatOptions (windowPolicy 0 0) = .ok suggestion ∧
    computePhatCorrelation realDelay [0] [0] defaultPhatOptions = .ok phat ∧
    inWindow (wrapLag 0 phat.m) 0 0 = true ∧
    ¬ ((∃ candidate ∈ suggestion.candidates, candidate.delaySamples = wrapLag 0 phat.m) ∨
      (∃ candidate ∈ suggestion.candidates,
        circularDistance phat.m 0 (lagIndex phat.m candidate.delaySamples) ≤ 1 ∧
          |phat.correlation 0| ≤ |candidate.height|) ∨
      (4 : ℤ) ≤ suggestion.candidates.length ∧
        ∀ candidate ∈ suggestion.candidates, |phat.correlation 0| ≤ |candidate.height|) := by
  obtain ⟨phat, peaks, hphat, hpeaks, hok⟩ := suggestDelay_eq [0] [0] defaultPhatOptions
    (windowPolicy 0 0) (validateSpans_singleton 0 0) (by decide)
  obtain ⟨correlation, hphat', hsamples⟩ :=
    computePhatCorrelation_eq [0] [0] defaultPhatOptions (by decide)
  obtain rfl := Except.ok.inj (hphat.symm.trans hphat')
  have hsize : phatSize ([0] : List ℝ).length = 2 ^ (1 + 1) := by decide
  have hflat := (phat_eq_zero_iff defaultPhatOptions 1 [0] [0]).mpr fun k hk =>
    .inl (spanBins_zero (mem_bandBins.mp hk).1 (by simp))
  have hpos : 0 < phatSize 1 := by decide
  have hin : inWindow (wrapLag 0 (phatSize 1)) 0 0 = true := by decide
  have hspec := @pickPeaks_spec _ _ _ _ correlation _ _ _ _ hpos 4 (by decide) hpeaks
  have hhead : ∀ peak ∈ peaks.head?, peak.height = 0 := by
    intro peak hpeak
    obtain ⟨i, hi, -, rfl⟩ := hspec.refined peak (List.mem_of_head? hpeak)
    exact (hsamples i hi).trans (hflat i hi)
  refine ⟨_, _, hok, hphat, hin, ?_⟩
  rw [suggestFrom_of_flat (hsize.ge : 4 ≤ phatSize ([0] : List ℝ).length) rfl hhead]
  simp

end Reals

end Dsp

end RtaTool
