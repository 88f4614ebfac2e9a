import RtaTool.Dsp.DelayPolicy

/-!
# Where the figures of a suggestion lie

The height of a correlation is a sum over the bins of a grid, and the trust divides it by the width
of a band that need not be on the grid. So how high the trust can be is how much more the bins weigh
than the band is wide. The ambiguity is between zero and one; it divides by the height of the best
peak, which is zero where the two sides have no bin of the band in common.

## Main definitions

* `suggestDelayDivisors` -- what is divided by, on the way to a suggestion
* `NothingInCommon` -- no bin of the band has anything of both sides
* `BandCovers` -- the bins of a band weigh no more than it is wide

## Main results

* `suggestDelay_figures` -- **Headline.** When the figures are well defined, and when they are bounded
-/

namespace RtaTool

namespace Dsp

/-! ### What is divided by -/

section Divisors

universe u

variable {K : Type u} [Field K] [LinearOrder K] (math : DelayMath K)

/-- The divisors of the loops over the bins. -/
def phatDivisors (options : PhatOptions K) (m : ℕ) (x y : ℕ → Cplx K) : List K :=
  (m : K) :: ((List.range (m / 2 + 1)).filter fun k => ¬ magG math options m x y k ≤ 0).map fun k =>
    max (magG math options m x y k) (phatFloor math options m x y)

/-- The divisor of `refine`. -/
def refineDivisors (correlation : ℕ → K) (idx m : ℕ) : List K :=
  let inverted : Bool := correlation idx < 0
  let sign : K := if inverted then -1 else 1
  let rm := sign * correlation ((idx + m - 1) % m)
  let rc := sign * correlation idx
  let rp := sign * correlation ((idx + 1) % m)
  let denom := rm - 2 * rc + rp
  if denom ≠ 0 then [denom] else []

/-- The divisors of `suggestDelay`, from the peaks on. -/
def suggestDivisors (phat : PhatResult K) (peaks : List (SpectralPeak K)) (options : PhatOptions K)
    (policy : DelayPolicy K) : List K :=
  (if 0 < phat.inBandBins then [(phat.inBandBins : K)] else []) ++
    options.sampleRate * (1 / 2) ::
    match peaks with
    | [] => []
    | front :: rest =>
      let bestPeakAbs := |front.height|
      (if 0 < bandFraction options then [bandFraction options] else []) ++
        if isRestrictedWindow policy ∧ trustOf options bestPeakAbs < nullFloor math phat then []
        else match rest with
          | [] => []
          | _ :: _ => [bestPeakAbs]

/-- What `suggestDelay(reference, measurement, options, policy)` divides by. -/
def suggestDelayDivisors (reference measurement : List K) (options : PhatOptions K)
    (policy : DelayPolicy K) : Except String (List K) := do
  validateSpans reference measurement options.minHz options.maxHz
  let phat ← computePhatCorrelation math reference measurement options
  let fft ← RealFftTables.make math.trig phat.m
  let x ← fft.forward phat.m (fun n => reference.getD n 0) fft.numBins
  let y ← fft.forward phat.m (fun n => measurement.getD n 0) fft.numBins
  let maxCandidates := max policy.maxCandidates 0
  let peaks ← pickPeaks phat.correlation phat.m policy.minLag policy.maxLag maxCandidates
  return phatDivisors math options phat.m x y ++
    peaks.flatMap (fun peak => refineDivisors phat.correlation (lagIndex phat.m peak.lag) phat.m) ++
    suggestDivisors math phat peaks options policy

theorem ne_zero_of_mem_phatDivisors [IsStrictOrderedRing K] {options : PhatOptions K} {m : ℕ}
    (hm : 0 < m) {x y : ℕ → Cplx K} : ∀ d ∈ phatDivisors math options m x y, d ≠ 0 := by
  rw [phatDivisors, List.forall_mem_cons, List.forall_mem_map]
  refine ⟨Nat.cast_ne_zero.mpr hm.ne', fun k hk => ?_⟩
  have hmag := of_decide_eq_true (List.mem_filter.mp hk).2
  exact ((not_le.mp hmag).trans_le (le_max_left _ _)).ne'

omit [LinearOrder K] in
theorem ne_zero_of_mem_guarded {c : Prop} [Decidable c] {v : K} (hv : c → v ≠ 0) :
    ∀ d ∈ (if c then [v] else []), d ≠ 0 := by
  intro d hd
  split_ifs at hd with hc
  · rw [List.mem_singleton.mp hd]
    exact hv hc
  · exact absurd hd List.not_mem_nil

theorem ne_zero_of_mem_refineDivisors {correlation : ℕ → K} {idx m : ℕ} :
    ∀ d ∈ refineDivisors correlation idx m, d ≠ 0 := ne_zero_of_mem_guarded id

end Divisors

/-! ### The figures, from the peaks -/

section Figures

variable {K : Type*} [Field K] [LinearOrder K] {math : DelayMath K} {phat : PhatResult K}
  {options : PhatOptions K} {policy : DelayPolicy K}

theorem suggestFrom_trust (peaks : List (SpectralPeak K)) :
    (suggestFrom math phat peaks options policy).trust =
      (peaks.head?.map fun front => trustOf options |front.height|).getD 0 := by
  rw [suggestFrom.eq_def]
  cases peaks with
  | nil => rfl
  | cons front rest =>
    dsimp only
    split_ifs <;> rfl

variable [IsStrictOrderedRing K]

theorem suggestFrom_ambiguity {peaks : List (SpectralPeak K)}
    (hranked : peaks.Pairwise fun p q => |q.height| ≤ |p.height|) :
    0 ≤ (suggestFrom math phat peaks options policy).ambiguity ∧
      (suggestFrom math phat peaks options policy).ambiguity ≤ 1 := by
  have hzero : (0 : K) ≤ 0 ∧ (0 : K) ≤ 1 := ⟨le_rfl, zero_le_one⟩
  rw [suggestFrom.eq_def]
  cases peaks with
  | nil => exact hzero
  | cons front rest =>
    cases rest with
    | nil =>
      dsimp only
      split_ifs <;> exact hzero
    | cons second rest =>
      have hle := (List.pairwise_cons.mp hranked).1 second List.mem_cons_self
      dsimp only
      by_cases hbelow : isRestrictedWindow policy = true ∧
          trustOf options |front.height| < nullFloor math phat
      · rw [if_pos hbelow]
        exact hzero
      · rw [if_neg hbelow]
        exact ⟨div_nonneg (abs_nonneg _) (abs_nonneg _), div_le_one_of_le₀ hle (abs_nonneg _)⟩

theorem suggestDivisors_ne_zero (peaks : List (SpectralPeak K)) (hfloor : 0 < nullFloor math phat) :
    (∀ d ∈ suggestDivisors math phat peaks options policy, d ≠ 0) ↔
      options.sampleRate ≠ 0 ∧ ¬ (isRestrictedWindow policy = false ∧ 2 ≤ peaks.length ∧
        ∀ front ∈ peaks.head?, front.height = 0) := by
  have hbins : ∀ d ∈ (if 0 < phat.inBandBins then [(phat.inBandBins : K)] else []), d ≠ 0 :=
    ne_zero_of_mem_guarded fun hcount => Nat.cast_ne_zero.mpr hcount.ne'
  have hband : ∀ d ∈ (if 0 < bandFraction options then [bandFraction options] else []), d ≠ 0 :=
    ne_zero_of_mem_guarded fun hwide => hwide.ne'
  have hrate : options.sampleRate * (1 / 2) ≠ 0 ↔ options.sampleRate ≠ 0 :=
    mul_ne_zero_iff_right (one_div_ne_zero two_ne_zero)
  rw [suggestDivisors.eq_def, List.forall_mem_append, List.forall_mem_cons, hrate,
    and_iff_right hbins]
  refine and_congr_right fun _ => ?_
  match peaks with
  | [] => simp
  | [front] =>
    dsimp only
    rw [List.forall_mem_append, and_iff_right hband]
    simp
  | front :: second :: rest =>
    dsimp only
    rw [List.forall_mem_append, and_iff_right hband]
    by_cases hbelow : isRestrictedWindow policy = true ∧
        trustOf options |front.height| < nullFloor math phat
    · rw [if_pos hbelow]
      exact iff_of_true (fun d hd => absurd hd List.not_mem_nil) fun hopen => by
        simp [hbelow.1] at hopen
    · rw [if_neg hbelow, List.forall_mem_singleton, ne_eq, abs_eq_zero, not_iff_not]
      constructor
      · intro hzero
        -- a stated window would have been answered before this
        rw [hzero, abs_zero, trustOf_zero] at hbelow
        refine ⟨Bool.eq_false_iff.mpr fun hstated => hbelow ⟨hstated, hfloor⟩, by simp, ?_⟩
        rintro _ ⟨⟩
        exact hzero
      · rintro ⟨-, -, hzero⟩
        exact hzero front rfl

end Figures

/-! ### The best of the peaks -/

section Best

variable {K : Type*} [Field K] [LinearOrder K] [IsStrictOrderedRing K] {correlation : ℕ → K} {m : ℕ}
  {minLag maxLag maxCandidates : ℤ} {picks : List (SpectralPeak K)}

/-- The first of the peaks is the highest of the window. -/
theorem PickSpec.head (h : PickSpec correlation m minLag maxLag maxCandidates picks)
    (hcount : 0 < maxCandidates) {i : ℕ} (hi : i < m)
    (hin : inWindow (wrapLag i m) minLag maxLag = true) :
    ∃ front rest, picks = front :: rest ∧ |correlation i| ≤ |front.height| := by
  have hne : picks ≠ [] := by
    rintro rfl
    obtain ⟨_, hmem, -⟩ | ⟨_, hmem, -⟩ | ⟨hlen, -⟩ := h.maximal i hi hin
    · exact List.not_mem_nil hmem
    · exact List.not_mem_nil hmem
    · simp only [List.length_nil, Nat.cast_zero] at hlen
      omega
  obtain ⟨front, rest, rfl⟩ := List.exists_cons_of_ne_nil hne
  have hfront : ∀ peak ∈ front :: rest, |peak.height| ≤ |front.height| := by
    intro peak hpeak
    obtain rfl | hrest := List.mem_cons.mp hpeak
    · exact le_rfl
    · exact (List.pairwise_cons.mp h.ranked).1 peak hrest
  refine ⟨front, rest, rfl, ?_⟩
  obtain ⟨peak, hpeak, hlag⟩ | ⟨peak, hpeak, -, hle⟩ | ⟨-, hall⟩ := h.maximal i hi hin
  · obtain ⟨j, hj, -, rfl⟩ := h.refined peak hpeak
    obtain rfl := wrapLag_inj hj hi hlag
    exact hfront _ hpeak
  · exact hle.trans (hfront peak hpeak)
  · exact hall front List.mem_cons_self

theorem PickSpec.two_le (h : PickSpec correlation m minLag maxLag maxCandidates picks)
    (hopen : ∀ i < m, inWindow (wrapLag i m) minLag maxLag = true) (hm : 4 ≤ m) :
    2 ≤ picks.length ↔ 2 ≤ maxCandidates := by
  constructor
  · intro hlen
    have hfew := h.few
    omega
  · intro hcount
    obtain ⟨front, rest, rfl, -⟩ := h.head (by omega) (by omega : 0 < m) (hopen 0 (by omega))
    by_contra hshort
    obtain rfl : rest = [] := List.length_eq_zero_iff.mp (by
      rw [List.length_cons] at hshort
      omega)
    obtain ⟨i, hi, -, hfront⟩ := h.refined front List.mem_cons_self
    have hlag : front.lag = wrapLag i m := by rw [hfront, refine]
    -- the place that is two further is no shoulder of the only peak
    have hj : (i + 2) % m < m := Nat.mod_lt _ (by omega)
    have hmod : (i + 2) % m = i + 2 ∧ i + 2 < m ∨ (i + 2) % m = i + 2 - m ∧ m ≤ i + 2 := by
      by_cases hlt : i + 2 < m
      · exact .inl ⟨Nat.mod_eq_of_lt hlt, hlt⟩
      · refine .inr ⟨?_, not_lt.mp hlt⟩
        rw [Nat.mod_eq_sub_mod (not_lt.mp hlt), Nat.mod_eq_of_lt (by omega)]
    obtain ⟨peak, hpeak, heq⟩ | ⟨peak, hpeak, hclose, -⟩ | ⟨hlen, -⟩ :=
      h.maximal _ hj (hopen _ hj)
    · rw [List.mem_singleton.mp hpeak, hlag] at heq
      have hsame := wrapLag_inj hi hj heq
      omega
    · rw [List.mem_singleton.mp hpeak, hlag, lagIndex_wrapLag hi, circularDistance,
        kMinSeparation] at hclose
      split_ifs at hclose <;> omega
    · simp only [List.length_singleton] at hlen
      omega

end Best

/-! ### Over the reals -/

section Reals

variable {options : PhatOptions ℝ} {policy : DelayPolicy ℝ} {n : ℕ} {reference measurement : List ℝ}

/-- No bin of the band has anything of both sides. -/
def NothingInCommon (options : PhatOptions ℝ) (reference measurement : List ℝ) : Prop :=
  ∀ k ∈ bandBins options (phatSize reference.length),
    spanBins (phatSize reference.length) reference k = 0 ∨
      spanBins (phatSize reference.length) measurement k = 0

/-- The bins of the band weigh no more than the band is wide. -/
def BandCovers (options : PhatOptions ℝ) (m : ℕ) : Prop :=
  bandFraction options ≤ 0 ∨
    bandWeight options m ≤ m * max 1 options.regularisation * bandFraction options

theorem pickPeaks_pickSpec {correlation : ℕ → ℝ} {m : ℕ} {minLag maxLag maxCandidates : ℤ}
    {peaks : List (SpectralPeak ℝ)} (hm : 0 < m)
    (h : pickPeaks correlation m minLag maxLag (max maxCandidates 0) = .ok peaks) :
    PickSpec correlation m minLag maxLag (max maxCandidates 0) peaks := by
  obtain hnone | hsome := le_or_gt maxCandidates 0
  · rw [max_eq_right hnone, pickPeaks, if_pos (.inl le_rfl)] at h
    obtain rfl := Except.ok.inj h
    rw [max_eq_right hnone]
    exact ⟨by simp, .nil, .nil, le_rfl, fun _ _ _ => .inr (.inr ⟨rfl, by simp⟩)⟩
  · obtain ⟨limit, hlimit⟩ := Int.eq_ofNat_of_zero_le hsome.le
    rw [max_eq_left hsome.le, hlimit] at h ⊢
    exact pickPeaks_spec hm (by omega) h

section

variable (policy : DelayPolicy ℝ) (hn : 0 < n) (hroom : phatSize n ≤ (2 ^ 63 - 1) / 16)
  (hband : ¬ (0 < options.maxHz ∧ options.maxHz < options.minHz))

include hn hroom hband

/-- An accepted pair of spans: the correlation, the peaks and what is divided by. -/
theorem suggestDelay_parts
    (hreference : reference.length = n) (hmeasurement : measurement.length = n) :
    ∃ phat peaks divisors, phat.m = phatSize n ∧
      suggestDelay realDelay reference measurement options policy =
        .ok (suggestFrom realDelay phat peaks options policy) ∧
      suggestDelayDivisors realDelay reference measurement options policy = .ok divisors ∧
      ((∀ d ∈ divisors, d ≠ 0) ↔
        ∀ d ∈ suggestDivisors realDelay phat peaks options policy, d ≠ 0) ∧
      (∀ p < phatSize n, phat.correlation p = realFftInverse realTrig (phatSize n)
        (phatBins options (phatSize n) reference measurement) p) ∧
      PickSpec phat.correlation (phatSize n) policy.minLag policy.maxLag
        (max policy.maxCandidates 0) peaks := by
  have hvalid : validateSpans reference measurement options.minHz options.maxHz = .ok ⟨⟩ := by
    have hne : ¬ (reference = [] ∨ measurement = []) := by
      rintro (rfl | rfl)
      · exact hn.ne' hreference.symm
      · exact hn.ne' hmeasurement.symm
    rw [validateSpans, if_neg hne, if_neg (by rw [hreference, hmeasurement]; exact fun h => h rfl),
      if_neg hband]
  obtain rfl := hreference
  obtain ⟨phat, peaks, hphat, hpeaks, hsuggest⟩ :=
    suggestDelay_eq reference measurement options policy hvalid hroom
  obtain ⟨correlation, hphat', hsamples⟩ :=
    computePhatCorrelation_eq reference measurement options (hroom.trans (by decide))
  obtain rfl := Except.ok.inj (hphat.symm.trans hphat')
  obtain ⟨levels, hsize⟩ := phatSize_eq reference.length
  have hpos : 0 < phatSize reference.length := hsize ▸ Nat.two_pow_pos _
  obtain ⟨half, hmake⟩ := RealFftTables.exists_make realTrig levels
  rw [← hsize] at hmake
  obtain ⟨x, hforwardX, -⟩ := RealFftTables.forward_eq hmake fun n => reference.getD n 0
  obtain ⟨y, hforwardY, -⟩ := RealFftTables.forward_eq hmake fun n => measurement.getD n 0
  have hdivisors : suggestDelayDivisors realDelay reference measurement options policy =
      .ok (phatDivisors realDelay options (phatSize reference.length) x y ++
        peaks.flatMap (fun peak => refineDivisors correlation
          (lagIndex (phatSize reference.length) peak.lag) (phatSize reference.length)) ++
        suggestDivisors realDelay ⟨correlation, phatSize reference.length,
          (bandBins options (phatSize reference.length)).length⟩ peaks options policy) := by
    simp only [suggestDelayDivisors, hvalid, hphat, bind, Except.bind,
      show realDelay.trig = realTrig from rfl, hmake, RealFftTables.numBins, hforwardX, hforwardY]
    rw [hpeaks]
    rfl
  refine ⟨_, peaks, _, rfl, hsuggest, hdivisors, ?_, hsamples, pickPeaks_pickSpec hpos hpeaks⟩
  rw [List.forall_mem_append, List.forall_mem_append, and_iff_right]
  refine ⟨ne_zero_of_mem_phatDivisors realDelay hpos, fun d hd => ?_⟩
  obtain ⟨peak, -, hd⟩ := List.mem_flatMap.mp hd
  exact ne_zero_of_mem_refineDivisors d hd

omit hn hroom hband in
theorem trustOf_nonneg (options : PhatOptions ℝ) {bestPeakAbs : ℝ} (h : 0 ≤ bestPeakAbs) :
    0 ≤ trustOf options bestPeakAbs := by
  rw [trustOf]
  split_ifs with hwide
  · exact div_nonneg h hwide.le
  · exact le_rfl

omit hn hroom hband in
theorem trustOf_le_one {m : ℕ} (hm : 0 < m) {bestPeakAbs : ℝ} (hcovers : BandCovers options m)
    (h : bestPeakAbs ≤ bandWeight options m / (m * max 1 options.regularisation)) :
    trustOf options bestPeakAbs ≤ 1 := by
  rw [trustOf]
  split_ifs with hwide
  · have hscale : 0 < m * max 1 options.regularisation :=
      mul_pos (Nat.cast_pos.mpr hm) (lt_max_of_lt_left one_pos)
    have hcover := hcovers.resolve_left (not_le.mpr hwide)
    rw [div_le_one hwide]
    refine h.trans ?_
    rw [div_le_iff₀ hscale, mul_comm]
    exact hcover
  · exact zero_le_one

theorem trust_impulses (hwide : 0 < bandFraction options)
    (hcount : 1 ≤ policy.maxCandidates) {lag : ℤ} (hlag : |lag| < n)
    (hin : inWindow lag policy.minLag policy.maxLag = true) : ∃ a < n, ∃ b < n, ∃ suggestion,
    suggestDelay realDelay (impulse n a) (impulse n b) options policy = .ok suggestion ∧
      bandWeight options (phatSize n) / (phatSize n * max 1 options.regularisation) /
        bandFraction options ≤ suggestion.trust := by
  obtain ⟨levels, hsize⟩ := phatSize_eq n
  have hlong : 2 * n ≤ phatSize n := (le_max_left _ _).trans (max_le_phatSize n)
  obtain ⟨hlow, hhigh⟩ := abs_lt.mp hlag
  -- the places of the impulses, and the place of the lag
  obtain ⟨a, b, p, ha, hb, hp, hmeet, hwrap⟩ : ∃ a b p, a < n ∧ b < n ∧ p < phatSize n ∧
      (p + a) % phatSize n = b ∧ wrapLag p (phatSize n) = lag := by
    obtain hneg | hpos := lt_or_ge lag 0
    · refine ⟨lag.natAbs, 0, phatSize n - lag.natAbs, by omega, hn, by omega, ?_, ?_⟩
      · rw [Nat.sub_add_cancel (by omega), Nat.mod_self]
      · rw [wrapLag, if_neg (by omega)]
        omega
    · refine ⟨0, lag.natAbs, lag.natAbs, hn, by omega, by omega, ?_, ?_⟩
      · rw [Nat.add_zero, Nat.mod_eq_of_lt (by omega)]
      · rw [wrapLag, if_pos (by omega)]
        omega
  obtain ⟨phat, peaks, -, -, hok, -, -, hsamples, hspec⟩ :=
    suggestDelay_parts policy hn hroom hband (length_impulse n a) (length_impulse n b)
  refine ⟨a, ha, b, hb, _, hok, ?_⟩
  rw [← hwrap] at hin
  obtain ⟨front, rest, rfl, hhighest⟩ := hspec.head (by omega) hp hin
  rw [suggestFrom_trust, List.head?_cons, Option.map_some, Option.getD_some, trustOf, if_pos hwide]
  refine div_le_div_of_nonneg_right (le_trans ?_ hhighest) hwide.le
  have hfit : n ≤ phatSize n := by omega
  rw [hsamples p hp]
  rw [hsize] at hp hmeet hfit ⊢
  rw [phat_impulses options ha hb hfit hp hmeet]
  exact le_abs_self _

end

theorem suggestFrom_trust_mem {phat : PhatResult ℝ} {peaks : List (SpectralPeak ℝ)} {m : ℕ}
    (hm : 0 < m) (hheight : ∀ peak ∈ peaks,
      |peak.height| ≤ bandWeight options m / (m * max 1 options.regularisation)) :
    0 ≤ (suggestFrom realDelay phat peaks options policy).trust ∧
      (BandCovers options m → (suggestFrom realDelay phat peaks options policy).trust ≤ 1) := by
  rw [suggestFrom_trust]
  cases peaks with
  | nil => exact ⟨le_rfl, fun _ => zero_le_one⟩
  | cons front rest =>
    exact ⟨trustOf_nonneg options (abs_nonneg _), fun hcovers =>
      trustOf_le_one hm hcovers (hheight front List.mem_cons_self)⟩

theorem abs_height_le {correlation : ℕ → ℝ} {minLag maxLag maxCandidates : ℤ}
    {peaks : List (SpectralPeak ℝ)}
    (hsamples : ∀ p < phatSize n, correlation p = realFftInverse realTrig (phatSize n)
      (phatBins options (phatSize n) reference measurement) p)
    (hspec : PickSpec correlation (phatSize n) minLag maxLag maxCandidates peaks) :
    ∀ peak ∈ peaks, |peak.height| ≤
      bandWeight options (phatSize n) / (phatSize n * max 1 options.regularisation) := by
  intro peak hpeak
  obtain ⟨i, hi, -, rfl⟩ := hspec.refined peak hpeak
  change |correlation i| ≤ _
  rw [hsamples i hi]
  obtain ⟨levels, hsize⟩ := phatSize_eq n
  rw [hsize] at hi ⊢
  exact abs_phat_le hi options reference measurement

theorem head_eq_zero_iff {correlation : ℕ → ℝ} {minLag maxLag maxCandidates : ℤ}
    {peaks : List (SpectralPeak ℝ)} (hreference : reference.length = n)
    (hsamples : ∀ p < phatSize n, correlation p = realFftInverse realTrig (phatSize n)
      (phatBins options (phatSize n) reference measurement) p)
    (hspec : PickSpec correlation (phatSize n) minLag maxLag maxCandidates peaks)
    (hopen : ∀ i < phatSize n, inWindow (wrapLag i (phatSize n)) minLag maxLag = true)
    (hcount : 0 < maxCandidates) :
    (∀ front ∈ peaks.head?, front.height = 0) ↔
      NothingInCommon options reference measurement := by
  obtain ⟨levels, hsize⟩ := phatSize_eq n
  have hflat : (∀ p < phatSize n, correlation p = 0) ↔
      NothingInCommon options reference measurement := by
    rw [NothingInCommon, hreference, hsize, ← phat_eq_zero_iff, ← hsize]
    exact forall₂_congr fun p hp => by rw [hsamples p hp]
  rw [← hflat]
  constructor
  · intro hzero i hi
    obtain ⟨front, rest, rfl, hle⟩ := hspec.head hcount hi (hopen i hi)
    rw [hzero front rfl, abs_zero] at hle
    exact abs_nonpos_iff.mp hle
  · intro hall front hfront
    obtain ⟨i, hi, -, rfl⟩ := hspec.refined front (List.mem_of_head? hfront)
    exact hall i hi

/-- **Headline.** Of every pair of spans that is accepted: nothing is divided by zero and the
ambiguity is between zero and one exactly when the rate is not zero and not two peaks of an open
window are asked for of sides that have nothing in common. The trust is never negative; it is at
most one for all spans of a length exactly when the bins of the band weigh no more than the band is
wide, unless no lag that the spans can have is in the window. -/
theorem suggestDelay_figures (n : ℕ) (options : PhatOptions ℝ) (policy : DelayPolicy ℝ) (hn : 0 < n)
    (hroom : phatSize n ≤ (2 ^ 63 - 1) / 16)
    (hband : ¬ (0 < options.maxHz ∧ options.maxHz < options.minHz)) :
    (∀ reference measurement : List ℝ, reference.length = n → measurement.length = n →
      ∃ suggestion divisors,
        suggestDelay realDelay reference measurement options policy = .ok suggestion ∧
        suggestDelayDivisors realDelay reference measurement options policy = .ok divisors ∧
        ((∀ d ∈ divisors, d ≠ 0) ∧ 0 ≤ suggestion.ambiguity ∧ suggestion.ambiguity ≤ 1 ↔
          options.sampleRate ≠ 0 ∧ ¬ (isRestrictedWindow policy = false ∧
            2 ≤ policy.maxCandidates ∧ NothingInCommon options reference measurement)) ∧
        0 ≤ suggestion.trust ∧ (BandCovers options (phatSize n) → suggestion.trust ≤ 1)) ∧
    (1 ≤ policy.maxCandidates → ∀ lag : ℤ, |lag| < n →
      inWindow lag policy.minLag policy.maxLag = true →
      ((∀ reference measurement : List ℝ, reference.length = n → measurement.length = n →
        ∀ suggestion, suggestDelay realDelay reference measurement options policy = .ok suggestion →
          0 ≤ suggestion.trust ∧ suggestion.trust ≤ 1) ↔ BandCovers options (phatSize n))) := by
  have hfour : 4 ≤ phatSize n := (le_max_right _ _).trans (max_le_phatSize n)
  refine ⟨fun reference measurement hreference hmeasurement => ?_, fun hcount lag hlag hin =>
    ⟨fun hall => ?_, fun hcovers reference measurement hreference hmeasurement suggestion hok => ?_⟩⟩
  · obtain ⟨phat, peaks, divisors, hm, hok, hdivisors, hzero, hsamples, hspec⟩ :=
      suggestDelay_parts policy hn hroom hband hreference hmeasurement
    obtain ⟨hnonneg, hle⟩ := @suggestFrom_trust_mem options policy phat peaks _ (by omega)
      (abs_height_le hsamples hspec)
    refine ⟨_, divisors, hok, hdivisors, ?_, hnonneg, hle⟩
    rw [and_iff_left (suggestFrom_ambiguity hspec.ranked), hzero,
      suggestDivisors_ne_zero peaks (nullFloor_pos (hm ▸ hfour))]
    refine and_congr_right fun _ => not_congr (and_congr_right fun hpolicy => ?_)
    have hopen : ∀ i < phatSize n,
        inWindow (wrapLag i (phatSize n)) policy.minLag policy.maxLag = true := fun i hi =>
      inWindow_of_not_restricted hpolicy (by rw [maxPtrdiff]; omega) hi
    rw [hspec.two_le hopen hfour]
    refine Iff.trans (and_congr_right fun htwo => ?_) (and_congr_left fun _ => by omega)
    exact head_eq_zero_iff hreference hsamples hspec hopen (by omega)
  · by_contra hcovers
    rw [BandCovers, not_or, not_le, not_le] at hcovers
    obtain ⟨hwide, hover⟩ := hcovers
    obtain ⟨a, -, b, -, suggestion, hok, htrust⟩ :=
      trust_impulses policy hn hroom hband hwide hcount hlag hin
    have hscale : 0 < (phatSize n : ℝ) * max 1 options.regularisation :=
      mul_pos (Nat.cast_pos.mpr (by omega)) (lt_max_of_lt_left one_pos)
    have hlarge : 1 < bandWeight options (phatSize n) /
        (phatSize n * max 1 options.regularisation) / bandFraction options := by
      rw [lt_div_iff₀ hwide, one_mul, lt_div_iff₀ hscale, mul_comm]
      exact hover
    exact absurd (hall _ _ (length_impulse n a) (length_impulse n b) suggestion hok).2
      (not_le.mpr (hlarge.trans_le htrust))
  · obtain ⟨phat, peaks, -, -, hok', -, -, hsamples, hspec⟩ :=
      suggestDelay_parts policy hn hroom hband hreference hmeasurement
    obtain rfl := Except.ok.inj (hok.symm.trans hok')
    obtain ⟨hnonneg, hle⟩ := @suggestFrom_trust_mem options policy phat peaks _ (by omega)
      (abs_height_le hsamples hspec)
    exact ⟨hnonneg, hle hcovers⟩

theorem suggestDelay_figures_one :
    (∃ suggestion, suggestDelay realDelay [1] [1] defaultPhatOptions
      (windowPolicy minPtrdiff maxPtrdiff) = .ok suggestion ∧ 0 ≤ suggestion.trust) ∧
    ((∀ reference measurement : List ℝ, reference.length = 1 → measurement.length = 1 →
      ∀ suggestion, suggestDelay realDelay reference measurement defaultPhatOptions
        (windowPolicy minPtrdiff maxPtrdiff) = .ok suggestion →
        0 ≤ suggestion.trust ∧ suggestion.trust ≤ 1) ↔
      BandCovers defaultPhatOptions (phatSize 1)) := by
  obtain ⟨hall, htrust⟩ := suggestDelay_figures 1 defaultPhatOptions
    (windowPolicy minPtrdiff maxPtrdiff) Nat.one_pos (by decide) (by simp [defaultPhatOptions])
  obtain ⟨suggestion, -, hok, -, -, hnonneg, -⟩ := hall [1] [1] rfl rfl
  exact ⟨⟨suggestion, hok, hnonneg⟩, htrust (by decide) 0 (by decide) (by decide)⟩

/-- A band up to half of the Nyquist frequency. -/
noncomputable def halfBandOptions : PhatOptions ℝ := { defaultPhatOptions with maxHz := 12000 }

theorem bandWeight_halfBand : bandWeight halfBandOptions 4 = 3 := by
  have hband : ∀ k : ℕ, inBand halfBandOptions 4 k = true ↔ k ≤ 1 := by
    intro k
    have hfreq : (k : ℝ) * 48000 / 4 = k * 12000 := by ring
    have hlow : ¬ (k : ℝ) * 12000 < 0 := not_lt.mpr (by positivity)
    simp only [inBand, loMinHz, loMaxHz, halfBandOptions, defaultPhatOptions, Nat.cast_ofNat, hfreq,
      max_self, hlow]
    norm_num
  simp only [bandWeight, hband, halfWeight]
  norm_num [Finset.sum_range_succ]

/-- Two equal clicks have more trust than one in that band, and of two silent sides the ambiguity is
nothing divided by nothing. -/
theorem suggestDelay_figures_fail :
    (∃ suggestion, suggestDelay realDelay [1] [1] halfBandOptions
      (windowPolicy minPtrdiff maxPtrdiff) = .ok suggestion ∧ 1 < suggestion.trust) ∧
    ∃ divisors, suggestDelayDivisors realDelay [0] [0] defaultPhatOptions
      (windowPolicy minPtrdiff maxPtrdiff) = .ok divisors ∧ 0 ∈ divisors := by
  constructor
  · have hfraction : bandFraction halfBandOptions = 1 / 2 := by
      simp only [bandFraction, loMinHz, loMaxHz, halfBandOptions, defaultPhatOptions]
      norm_num
    have hmax : max 1 halfBandOptions.regularisation = 1 := by
      simp only [halfBandOptions, defaultPhatOptions]
      norm_num
    obtain ⟨a, ha, b, hb, suggestion, hok, htrust⟩ := @trust_impulses halfBandOptions 1
      (windowPolicy minPtrdiff maxPtrdiff) Nat.one_pos (by decide)
      (by simp [halfBandOptions, defaultPhatOptions]) (by rw [hfraction]; positivity) (by decide) 0
      (by decide) (by decide)
    obtain rfl : a = 0 := by omega
    obtain rfl : b = 0 := by omega
    have hone : impulse 1 0 = [1] := by simp [impulse]
    rw [show phatSize 1 = 4 by decide, bandWeight_halfBand, hmax, hfraction] at htrust
    rw [hone] at hok
    refine ⟨suggestion, hok, lt_of_lt_of_le ?_ htrust⟩
    norm_num
  · obtain ⟨phat, peaks, divisors, hm, -, hdivisors, hzero, hsamples, hspec⟩ :=
      @suggestDelay_parts defaultPhatOptions 1 [0] [0] (windowPolicy minPtrdiff maxPtrdiff)
        Nat.one_pos (by decide) (by simp [defaultPhatOptions]) rfl rfl
    refine ⟨divisors, hdivisors, ?_⟩
    by_contra hmem
    have hnone := (suggestDivisors_ne_zero peaks (nullFloor_pos (by rw [hm]; decide))).mp
      (hzero.mp fun d hd hd0 => hmem (hd0 ▸ hd))
    refine hnone.2 ⟨rfl, ?_, ?_⟩
    · exact (hspec.two_le (by decide) (by decide)).mpr (by decide)
    · have hsilent : NothingInCommon defaultPhatOptions [0] [0] := fun k hk =>
        .inl (@spanBins_zero 1 k (mem_bandBins.mp hk).1 [0] (by simp))
      have hlength : ([0] : List ℝ).length = 1 := rfl
      exact (head_eq_zero_iff hlength hsamples hspec (by decide) (by decide)).mpr hsilent

end Reals

end Dsp

end RtaTool
