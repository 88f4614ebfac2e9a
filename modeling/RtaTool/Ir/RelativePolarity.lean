import RtaTool.Ir.Polarity
import RtaTool.Lib.FirstMax

/-!
# The polarity of one arrival against another

`RelativePolarity.cpp`. Two windows, zero outside, are correlated at every lag, and the sign is that
of the correlation that is the largest in magnitude. A shifted window loses energy at most, so the
correlation is bounded by the energies, and two windows that are not silent have one that is not
zero: that of the first sample of the one with the last of the other.

## Main definitions

* `RelativePolarityConfig`, `RelativePolarity`
* `windowOf`, `energyOf`, `correlation`, `relate`, `relativePolarity`

## Main results

* `abs_correlation_le`, `exists_correlation_ne_zero` -- how large a correlation is
* `relate_scale`, `relate_swap` -- windows that are scaled, negated and exchanged
* `polarity_symmetries` -- **Headline.** Both polarities
-/

namespace RtaTool

namespace Ir

open Dsp

variable {K : Type*} [Field K] [LinearOrder K]

/-- `RelativePolarityConfig`. -/
structure RelativePolarityConfig (K : Type*) where
  searchSeconds : K

/-- `RelativePolarity`. -/
structure RelativePolarity (K : Type*) where
  rho : K
  sign : Sign
  lag : ℤ
  refusal : IrRefusal

/-! ### `RelativePolarity.cpp` -/

/-- `windowOf(source, length)`. -/
def windowOf (source : Deconvolution K) (length : ℕ) : List K :=
  (List.range length).map fun i => source.samples.getD (source.originIndex + i) 0

/-- `energyOf(values)`. -/
def energyOf (values : List K) : K := values.foldl (fun total v => total + v * v) 0

/-- The sum of the loop over the samples, at a lag. -/
def correlation (wa wb : List K) (lag : ℤ) : K :=
  let span : ℤ := wa.length
  ∑ n ∈ Finset.Ico (max 0 (-lag)).toNat (min span (span - lag)).toNat,
    wa.getD n 0 * wb.getD (n + lag).toNat 0

/-- The lags, in the order of the loop. -/
def lagsOf (length : ℕ) : List ℤ :=
  (List.range (2 * length - 1)).map fun (i : ℕ) => (i : ℤ) - (length - 1)

/-- What the loop over the lags holds. -/
structure BestLag (K : Type*) where
  absolute : K
  signed : K
  lag : ℤ

/-- A turn of the loop over the lags. -/
def considerLag (r : ℤ → K) (best : BestLag K) (lag : ℤ) : BestLag K :=
  let sum := r lag
  let magnitude := |sum|
  if best.absolute < magnitude then { absolute := magnitude, signed := sum, lag } else best

/-- `relativePolarity`, from the windows on. -/
def relate (math : PolarityMath K) (wa wb : List K) : RelativePolarity K :=
  let energyA := energyOf wa
  let energyB := energyOf wb
  if energyA ≤ 0 ∨ energyB ≤ 0 then { rho := 0, sign := .unknown, lag := 0, refusal := .noSignal }
  else
    let best := (lagsOf wa.length).foldl (considerLag (correlation wa wb))
      { absolute := -1, signed := 0, lag := 0 }
    { rho := best.absolute / math.sqrt (energyA * energyB)
      sign := if best.signed < 0 then .negative else .positive
      lag := best.lag
      refusal := .none }

/-- How many samples the windows have. -/
def relativeLength [FloorRing K] (a b : Deconvolution K) (config : RelativePolarityConfig K) : ℕ :=
  let requested := toSize (llround (config.searchSeconds * a.sampleRate))
  let availableA := a.samples.length - a.originIndex
  let availableB := b.samples.length - b.originIndex
  min requested (min availableA availableB)

/-- `relativePolarity(a, b, config)`. -/
def relativePolarity [FloorRing K] (math : PolarityMath K) (a b : Deconvolution K)
    (config : RelativePolarityConfig K) : Except String (RelativePolarity K) :=
  if a.sampleRate ≤ 0 ∨ b.sampleRate ≤ 0 ∨ a.sampleRate ≠ b.sampleRate then
    .error "relativePolarity: the two deconvolutions must share one positive sample rate"
  else if config.searchSeconds ≤ 0 then
    .error "relativePolarity: searchSeconds must be positive"
  else
    let length := relativeLength a b config
    if length < 2 then
      .ok { rho := 0, sign := .unknown, lag := 0, refusal := .captureTooShort }
    else .ok (relate math (windowOf a length) (windowOf b length))

/-! ### The lag that is found -/

variable [IsStrictOrderedRing K]

/-- The loop ends with the first of the lags whose correlation is the largest in magnitude. -/
theorem foldl_considerLag (r : ℤ → K) (lags : List ℤ) :
    lags.foldl (considerLag r) { absolute := -1, signed := 0, lag := 0 } =
      match firstMax (fun lag => |r lag|) lags with
      | none => { absolute := -1, signed := 0, lag := 0 }
      | some lag => { absolute := |r lag|, signed := r lag, lag } := by
  induction lags using List.reverseRecOn with
  | nil => rfl
  | append_singleton lags lag ih =>
    rw [List.foldl_append, ih, firstMax_append_singleton, List.foldl_cons, List.foldl_nil]
    cases firstMax (fun lag => |r lag|) lags with
    | none => exact if_pos (by linarith [abs_nonneg (r lag)])
    | some held =>
      rw [considerLag, keepGreater]
      dsimp only
      split_ifs <;> rfl

/-- What `relate` says of windows that are not silent. -/
theorem relate_eq (math : PolarityMath K) {wa wb : List K} (ha : 0 < energyOf wa)
    (hb : 0 < energyOf wb) (hlength : 0 < wa.length) :
    ∃ lag ∈ lagsOf wa.length,
      firstMax (fun lag => |correlation wa wb lag|) (lagsOf wa.length) = some lag ∧
      (∀ lag' ∈ lagsOf wa.length, |correlation wa wb lag'| ≤ |correlation wa wb lag|) ∧
      relate math wa wb =
        { rho := |correlation wa wb lag| / math.sqrt (energyOf wa * energyOf wb)
          sign := if correlation wa wb lag < 0 then .negative else .positive
          lag
          refusal := .none } := by
  have hne : lagsOf wa.length ≠ [] := by
    rw [lagsOf, ne_eq, List.map_eq_nil_iff, List.range_eq_nil]
    omega
  obtain ⟨lag, hmem, hfirst, hmax⟩ := firstMax_eq_some (fun lag => |correlation wa wb lag|) hne
  refine ⟨lag, hmem, hfirst, hmax, ?_⟩
  rw [relate, if_neg (by rw [not_or]; exact ⟨ha.not_ge, hb.not_ge⟩), foldl_considerLag, hfirst]

theorem mem_lagsOf {length : ℕ} {lag : ℤ} (hlength : 0 < length) :
    lag ∈ lagsOf length ↔ -(length : ℤ) < lag ∧ lag < length := by
  rw [lagsOf, List.mem_map]
  constructor
  · rintro ⟨i, hi, rfl⟩
    have hi := List.mem_range.mp hi
    omega
  · rintro ⟨hlow, hhigh⟩
    exact ⟨(lag + (length - 1)).toNat, List.mem_range.mpr (by omega), by omega⟩

/-! ### How large a correlation is -/

theorem sum_Ico_toNat {M : Type*} [AddCommMonoid M] {a : ℤ} (ha : 0 ≤ a) (b : ℤ) (f : ℕ → M) :
    ∑ n ∈ Finset.Ico a.toNat b.toNat, f n = ∑ n ∈ Finset.Ico a b, f n.toNat := by
  refine Finset.sum_nbij' (fun n : ℕ => (n : ℤ)) Int.toNat (fun n hn => ?_) (fun n hn => ?_)
    (fun n _ => Int.toNat_natCast n) (fun n hn => ?_) fun n _ => ?_
  · have hn := Finset.mem_Ico.mp hn
    exact Finset.mem_Ico.mpr (by omega)
  · have hn := Finset.mem_Ico.mp hn
    exact Finset.mem_Ico.mpr (by omega)
  · have hn := Finset.mem_Ico.mp hn
    exact Int.toNat_of_nonneg (by omega)
  · rw [Int.toNat_natCast]

omit [LinearOrder K] [IsStrictOrderedRing K] in
theorem correlation_eq (wa wb : List K) (lag : ℤ) : correlation wa wb lag =
    ∑ n ∈ Finset.Ico (max 0 (-lag)) (min (wa.length : ℤ) (wa.length - lag)),
      wa.getD n.toNat 0 * wb.getD (n + lag).toNat 0 := by
  rw [correlation, sum_Ico_toNat (le_max_left _ _)]
  refine Finset.sum_congr rfl fun n hn => ?_
  have hn := Finset.mem_Ico.mp hn
  rw [Int.toNat_of_nonneg (by omega)]

omit [LinearOrder K] [IsStrictOrderedRing K] in
theorem energyOf_eq (values : List K) : energyOf values =
    ∑ n ∈ Finset.Ico (0 : ℤ) values.length, values.getD n.toNat 0 ^ 2 := by
  rw [← sum_Ico_toNat le_rfl values.length fun n => values.getD n 0 ^ 2, Int.toNat_natCast,
    Int.toNat_zero, ← Finset.range_eq_Ico]
  induction values using List.reverseRecOn with
  | nil => rfl
  | append_singleton values v ih =>
    have hbefore : ∀ n ∈ Finset.range values.length,
        (values ++ [v]).getD n 0 ^ 2 = values.getD n 0 ^ 2 := by
      intro n hn
      rw [List.getD_append _ _ _ _ (Finset.mem_range.mp hn)]
    rw [energyOf, List.foldl_append, ← energyOf, ih, List.length_append, List.length_singleton,
      Finset.sum_range_succ, Finset.sum_congr rfl hbefore,
      List.getD_append_right _ _ _ _ le_rfl, Nat.sub_self, List.getD_cons_zero, sq v]
    rfl

omit [LinearOrder K] [IsStrictOrderedRing K] in
theorem correlation_swap {wa wb : List K} (hlength : wa.length = wb.length) (lag : ℤ) :
    correlation wb wa lag = correlation wa wb (-lag) := by
  rw [correlation_eq, correlation_eq, ← hlength, neg_neg, sub_neg_eq_add]
  have hshift := Finset.sum_Ico_add' (fun n : ℤ => wa.getD n.toNat 0 * wb.getD (n - lag).toNat 0)
    (max 0 (-lag)) (min (wa.length : ℤ) (wa.length - lag)) lag
  have hfrom : max 0 (-lag) + lag = max 0 lag := by omega
  have hto : min (wa.length : ℤ) (wa.length - lag) + lag =
      min (wa.length : ℤ) (wa.length + lag) := by omega
  rw [hfrom, hto] at hshift
  simp only [← sub_eq_add_neg, ← hshift, add_sub_cancel_right]
  exact Finset.sum_congr rfl fun n _ => mul_comm ..

variable {wa wb : List K}

/-- **Headline.** The correlation at any lag is bounded by the energies. -/
theorem sq_correlation_le (hlength : wa.length = wb.length) (lag : ℤ) :
    correlation wa wb lag ^ 2 ≤ energyOf wa * energyOf wb := by
  have hshift := Finset.sum_Ico_add' (fun n : ℤ => wb.getD n.toNat 0 ^ 2) (max 0 (-lag))
    (min (wa.length : ℤ) (wa.length - lag)) lag
  rw [correlation_eq, energyOf_eq, energyOf_eq, ← hlength]
  refine (Finset.sum_mul_sq_le_sq_mul_sq _ _ _).trans (mul_le_mul ?_ ?_ ?_ ?_)
  · refine Finset.sum_le_sum_of_subset_of_nonneg (fun n hn => ?_) fun _ _ _ => sq_nonneg _
    have hn := Finset.mem_Ico.mp hn
    exact Finset.mem_Ico.mpr (by omega)
  · rw [hshift]
    refine Finset.sum_le_sum_of_subset_of_nonneg (fun n hn => ?_) fun _ _ _ => sq_nonneg _
    have hn := Finset.mem_Ico.mp hn
    exact Finset.mem_Ico.mpr (by omega)
  · exact Finset.sum_nonneg fun _ _ => sq_nonneg _
  · exact Finset.sum_nonneg fun _ _ => sq_nonneg _

theorem exists_ends {values : List K} (h : 0 < energyOf values) :
    ∃ first last, first < values.length ∧ last < values.length ∧ values.getD first 0 ≠ 0 ∧
      values.getD last 0 ≠ 0 ∧ (∀ n < first, values.getD n 0 = 0) ∧
      ∀ n, last < n → values.getD n 0 = 0 := by
  have hsome : ∃ n < values.length, values.getD n 0 ≠ 0 := by
    by_contra hnone
    push Not at hnone
    refine h.ne' ?_
    rw [energyOf_eq]
    refine Finset.sum_eq_zero fun n hn => ?_
    have hn := Finset.mem_Ico.mp hn
    rw [hnone n.toNat (by omega), sq, zero_mul]
  obtain ⟨some, hlt, hne⟩ := hsome
  let heard := (Finset.range values.length).filter fun n => values.getD n 0 ≠ 0
  have hmem : ∀ n, n ∈ heard ↔ values.getD n 0 ≠ 0 := by
    intro n
    rw [Finset.mem_filter, Finset.mem_range, and_iff_right_iff_imp]
    intro hn
    by_contra hout
    exact hn (List.getD_eq_default _ _ (not_lt.mp hout))
  have hlength : ∀ n ∈ heard, n < values.length := fun n hn =>
    Finset.mem_range.mp (Finset.mem_filter.mp hn).1
  have hheard : heard.Nonempty := ⟨some, (hmem some).mpr hne⟩
  refine ⟨heard.min' hheard, heard.max' hheard, hlength _ (heard.min'_mem hheard),
    hlength _ (heard.max'_mem hheard), (hmem _).mp (heard.min'_mem hheard),
    (hmem _).mp (heard.max'_mem hheard), fun n hn => ?_, fun n hn => ?_⟩
  · by_contra hsound
    exact absurd (heard.min'_le n ((hmem n).mpr hsound)) hn.not_ge
  · by_contra hsound
    exact absurd (heard.le_max' n ((hmem n).mpr hsound)) hn.not_ge

/-- Two windows that are not silent have a correlation that is not zero. -/
theorem exists_correlation_ne_zero (hlength : wa.length = wb.length)
    (ha : 0 < energyOf wa) (hb : 0 < energyOf wb) :
    ∃ lag ∈ lagsOf wa.length, correlation wa wb lag ≠ 0 := by
  obtain ⟨first, -, hfirst, -, hne, -, hbefore, -⟩ := exists_ends ha
  obtain ⟨-, last, -, hlast, -, hne', -, hafter⟩ := exists_ends hb
  refine ⟨(last : ℤ) - first, (mem_lagsOf (by omega)).mpr (by omega), ?_⟩
  rw [correlation_eq, Finset.sum_eq_single (first : ℤ)]
  · have hend : ((first : ℤ) + (last - first)).toNat = last := by omega
    rw [Int.toNat_natCast, hend]
    exact mul_ne_zero hne hne'
  · intro n hn hother
    have hn := Finset.mem_Ico.mp hn
    obtain hlt | hgt := lt_or_gt_of_ne hother
    · rw [hbefore n.toNat (by omega), zero_mul]
    · rw [hafter (n + (last - first)).toNat (by omega), mul_zero]
  · intro hout
    refine absurd (Finset.mem_Ico.mpr ?_) hout
    omega

/-! ### Windows that are scaled and exchanged -/

theorem correlation_ne_zero (hlength : wa.length = wb.length)
    (ha : 0 < energyOf wa) (hb : 0 < energyOf wb) {lag : ℤ}
    (hmax : ∀ lag' ∈ lagsOf wa.length, |correlation wa wb lag'| ≤ |correlation wa wb lag|) :
    correlation wa wb lag ≠ 0 := by
  obtain ⟨lag', hmem, hne⟩ := exists_correlation_ne_zero hlength ha hb
  exact abs_pos.mp ((abs_pos.mpr hne).trans_le (hmax lag' hmem))

/-- Windows whose correlations are those of others, with a factor. -/
theorem relate_scale {wa wb wa' wb' : List ℝ} {c : ℝ} (hc : c ≠ 0)
    (hlength : wa.length = wb.length) (hlength' : wa'.length = wa.length)
    (hcorrelation : ∀ lag, correlation wa' wb' lag = c * correlation wa wb lag)
    (hsilent : energyOf wa' ≤ 0 ∨ energyOf wb' ≤ 0 ↔ energyOf wa ≤ 0 ∨ energyOf wb ≤ 0)
    (henergy : energyOf wa' * energyOf wb' = c ^ 2 * (energyOf wa * energyOf wb)) :
    relate realPolarity wa' wb' = { relate realPolarity wa wb with
      sign := if 0 < c then (relate realPolarity wa wb).sign
        else flipSign (relate realPolarity wa wb).sign } := by
  by_cases hquiet : energyOf wa ≤ 0 ∨ energyOf wb ≤ 0
  · rw [relate, if_pos (hsilent.mpr hquiet), relate, if_pos hquiet]
    simp [flipSign]
  · have hquiet' := mt hsilent.mp hquiet
    rw [not_or, not_le, not_le] at hquiet hquiet'
    have hpos : 0 < wa.length := by
      obtain ⟨first, -, hfirst, -⟩ := exists_ends hquiet.1
      omega
    obtain ⟨lag, hmem, hfirst, hmax, hrelate⟩ :=
      relate_eq realPolarity hquiet.1 hquiet.2 hpos
    obtain ⟨lag', hmem', hfirst', -, hrelate'⟩ :=
      relate_eq realPolarity hquiet'.1 hquiet'.2 (hpos.trans_eq hlength'.symm)
    have hne := correlation_ne_zero hlength hquiet.1 hquiet.2 hmax
    -- the scan compares magnitudes, and a factor does not change how they compare
    have hscan : firstMax (fun lag => |correlation wa' wb' lag|) (lagsOf wa'.length) =
        firstMax (fun lag => |correlation wa wb lag|) (lagsOf wa.length) := by
      rw [hlength']
      refine firstMax_congr fun a _ b _ => ?_
      rw [hcorrelation, hcorrelation, abs_mul, abs_mul, mul_lt_mul_iff_right₀ (abs_pos.mpr hc)]
    have hlag : lag' = lag := by
      rw [hscan, hfirst] at hfirst'
      exact (Option.some.inj hfirst').symm
    have hroot : realPolarity.sqrt (energyOf wa' * energyOf wb') =
        |c| * realPolarity.sqrt (energyOf wa * energyOf wb) := by
      change Real.sqrt _ = |c| * Real.sqrt _
      rw [henergy, Real.sqrt_mul (sq_nonneg c), Real.sqrt_sq_eq_abs]
    rw [hrelate, hrelate', hlag, hcorrelation, hroot, abs_mul,
      mul_div_mul_left _ _ (abs_pos.mpr hc).ne']
    congr 1
    obtain hneg | hpos := hc.lt_or_gt
    · rw [if_neg hneg.not_gt]
      obtain hr | hr := hne.lt_or_gt
      · rw [if_neg (mul_pos_of_neg_of_neg hneg hr).not_gt, if_pos hr, flipSign]
      · rw [if_pos (mul_neg_of_neg_of_pos hneg hr), if_neg hr.not_gt, flipSign]
    · rw [if_pos hpos]
      simp only [mul_neg_iff, hpos, true_and, hpos.not_gt, false_and, or_false]

section Scale

variable (c : ℝ) (wa wb : List ℝ)

theorem getD_scale (n : ℕ) : (wa.map (c * ·)).getD n 0 = c * wa.getD n 0 := by
  rw [List.getD_eq_getElem?_getD, List.getElem?_map, List.getD_eq_getElem?_getD]
  cases wa[n]? with
  | none => exact (mul_zero c).symm
  | some v => rfl

theorem energyOf_scale : energyOf (wa.map (c * ·)) = c ^ 2 * energyOf wa := by
  simp only [energyOf_eq, List.length_map, getD_scale, mul_pow, Finset.mul_sum]

theorem energyOf_scale_nonpos {c : ℝ} (hc : c ≠ 0) :
    energyOf (wa.map (c * ·)) ≤ 0 ↔ energyOf wa ≤ 0 := by
  have hsq : 0 < c ^ 2 := by positivity
  rw [energyOf_scale, ← not_lt, ← not_lt, mul_pos_iff_of_pos_left hsq]

/-- The first window with a factor. -/
theorem relate_scale_left {c : ℝ} (hc : c ≠ 0) (hlength : wa.length = wb.length) :
    relate realPolarity (wa.map (c * ·)) wb = { relate realPolarity wa wb with
      sign := if 0 < c then (relate realPolarity wa wb).sign
        else flipSign (relate realPolarity wa wb).sign } := by
  refine relate_scale hc hlength (List.length_map _) (fun lag => ?_) ?_ ?_
  · simp only [correlation, List.length_map, getD_scale, mul_assoc, Finset.mul_sum]
  · rw [energyOf_scale_nonpos wa hc]
  · rw [energyOf_scale, mul_assoc]

/-- The second one with a factor. -/
theorem relate_scale_right {c : ℝ} (hc : c ≠ 0) (hlength : wa.length = wb.length) :
    relate realPolarity wa (wb.map (c * ·)) = { relate realPolarity wa wb with
      sign := if 0 < c then (relate realPolarity wa wb).sign
        else flipSign (relate realPolarity wa wb).sign } := by
  refine relate_scale hc hlength rfl (fun lag => ?_) ?_ ?_
  · simp only [correlation, getD_scale, mul_left_comm _ c, Finset.mul_sum]
  · rw [energyOf_scale_nonpos wb hc]
  · rw [energyOf_scale, mul_left_comm]

end Scale

/-- One lag has a larger correlation, in magnitude, than any other. -/
def UniquePeak (wa wb : List ℝ) : Prop :=
  ∃ lag ∈ lagsOf wa.length, ∀ lag' ∈ lagsOf wa.length, lag' ≠ lag →
    |correlation wa wb lag'| < |correlation wa wb lag|

/-- The windows exchanged. -/
theorem relate_swap {wa wb : List ℝ} (hlength : wa.length = wb.length) :
    (relate realPolarity wb wa).rho = (relate realPolarity wa wb).rho ∧
      (relate realPolarity wb wa).refusal = (relate realPolarity wa wb).refusal ∧
      (UniquePeak wa wb → (relate realPolarity wb wa).sign = (relate realPolarity wa wb).sign ∧
        (relate realPolarity wb wa).lag = -(relate realPolarity wa wb).lag) := by
  by_cases hquiet : energyOf wa ≤ 0 ∨ energyOf wb ≤ 0
  · rw [relate, if_pos hquiet.symm, relate, if_pos hquiet]
    exact ⟨rfl, rfl, fun _ => ⟨rfl, rfl⟩⟩
  · rw [not_or, not_le, not_le] at hquiet
    have hpos : 0 < wa.length := by
      obtain ⟨first, -, hfirst, -⟩ := exists_ends hquiet.1
      omega
    obtain ⟨lag, hmem, -, hmax, hrelate⟩ := relate_eq realPolarity hquiet.1 hquiet.2 hpos
    obtain ⟨lag', hmem', -, hmax', hrelate'⟩ :=
      relate_eq realPolarity hquiet.2 hquiet.1 (hpos.trans_eq hlength)
    rw [← hlength] at hmem' hmax'
    simp only [correlation_swap hlength] at hmax' hrelate'
    have hopposite : ∀ l ∈ lagsOf wa.length, -l ∈ lagsOf wa.length := by
      intro l hl
      have hl := (mem_lagsOf hpos).mp hl
      exact (mem_lagsOf hpos).mpr (by omega)
    have habs : |correlation wa wb (-lag')| = |correlation wa wb lag| := by
      refine le_antisymm (hmax _ (hopposite lag' hmem')) ?_
      have hle := hmax' (-lag) (hopposite lag hmem)
      rwa [neg_neg] at hle
    rw [hrelate, hrelate', habs, mul_comm (energyOf wb)]
    refine ⟨rfl, rfl, ?_⟩
    rintro ⟨top, htop, hunique⟩
    have hlag : ∀ l ∈ lagsOf wa.length, |correlation wa wb l| = |correlation wa wb lag| →
        l = top := by
      intro l hl heq
      by_contra hother
      exact absurd ((hunique l hl hother).trans_le (hmax top htop)) (not_lt.mpr heq.ge)
    have hsame : -lag' = lag :=
      (hlag _ (hopposite lag' hmem') habs).trans (hlag lag hmem rfl).symm
    dsimp only
    rw [hsame]
    exact ⟨rfl, by omega⟩

/-- The correlation over the root of the energies is between zero and one. -/
theorem relate_rho_mem {wa wb : List ℝ} (hlength : wa.length = wb.length) :
    (relate realPolarity wa wb).rho ∈ Set.Icc 0 1 := by
  by_cases hquiet : energyOf wa ≤ 0 ∨ energyOf wb ≤ 0
  · rw [relate, if_pos hquiet]
    exact ⟨le_rfl, zero_le_one⟩
  · rw [not_or, not_le, not_le] at hquiet
    have hpos : 0 < wa.length := by
      obtain ⟨first, -, hfirst, -⟩ := exists_ends hquiet.1
      omega
    obtain ⟨lag, -, -, -, hrelate⟩ := relate_eq realPolarity hquiet.1 hquiet.2 hpos
    have hroot : 0 < Real.sqrt (energyOf wa * energyOf wb) :=
      Real.sqrt_pos.mpr (mul_pos hquiet.1 hquiet.2)
    rw [hrelate]
    refine ⟨div_nonneg (abs_nonneg _) hroot.le, (div_le_one hroot).mpr ?_⟩
    exact Real.abs_le_sqrt (sq_correlation_le hlength lag)

/-! ### Deconvolutions -/

/-- The same deconvolution with every sample times a factor. -/
def Deconvolution.scale (c : K) (source : Deconvolution K) : Deconvolution K :=
  { source with samples := source.samples.map (c * ·) }

theorem negate_eq_scale (source : Deconvolution ℝ) : source.negate = source.scale (-1) := by
  simp only [Deconvolution.negate, Deconvolution.scale, neg_one_mul]

theorem windowOf_scale (c : ℝ) (source : Deconvolution ℝ) (length : ℕ) :
    windowOf (source.scale c) length = (windowOf source length).map (c * ·) := by
  rw [windowOf, windowOf, List.map_map]
  exact List.map_congr_left fun i _ => getD_scale c source.samples (source.originIndex + i)

/-- The result with the other sign. -/
def RelativePolarity.flip (result : RelativePolarity K) : RelativePolarity K :=
  { result with sign := flipSign result.sign }

theorem relativePolarity_eq_ok {math : PolarityMath ℝ} {a b : Deconvolution ℝ}
    {config : RelativePolarityConfig ℝ} {result : RelativePolarity ℝ} :
    relativePolarity math a b config = .ok result ↔
      ¬ (a.sampleRate ≤ 0 ∨ b.sampleRate ≤ 0 ∨ a.sampleRate ≠ b.sampleRate) ∧
      ¬ config.searchSeconds ≤ 0 ∧
      (if relativeLength a b config < 2 then
          { rho := 0, sign := .unknown, lag := 0, refusal := .captureTooShort }
        else relate math (windowOf a (relativeLength a b config))
          (windowOf b (relativeLength a b config))) = result := by
  rw [relativePolarity]
  by_cases hrate : a.sampleRate ≤ 0 ∨ b.sampleRate ≤ 0 ∨ a.sampleRate ≠ b.sampleRate
  · rw [if_pos hrate]
    simp [hrate]
  · rw [if_neg hrate]
    by_cases hsearch : config.searchSeconds ≤ 0
    · rw [if_pos hsearch]
      simp [hsearch]
    · rw [if_neg hsearch]
      dsimp only
      rw [← apply_ite Except.ok, Except.ok.injEq]
      simp only [hrate, hsearch, not_false_eq_true, true_and]

variable {a b : Deconvolution ℝ} {config : RelativePolarityConfig ℝ} {result : RelativePolarity ℝ}

theorem length_windowOf (length : ℕ) : (windowOf a length).length = (windowOf b length).length := by
  rw [windowOf, windowOf, List.length_map, List.length_map]

theorem relativeLength_scale_left (c : ℝ) :
    relativeLength (a.scale c) b config = relativeLength a b config := by
  simp only [relativeLength, Deconvolution.scale, List.length_map]

theorem relativeLength_scale_right (c : ℝ) :
    relativeLength a (b.scale c) config = relativeLength a b config := by
  simp only [relativeLength, Deconvolution.scale, List.length_map]

section

variable (h : relativePolarity realPolarity a b config = .ok result)

include h

/-- The first deconvolution with a factor. -/
theorem relativePolarity_scale_left
    {c : ℝ} (hc : c ≠ 0) : relativePolarity realPolarity (a.scale c) b config =
      .ok { result with sign := if 0 < c then result.sign else flipSign result.sign } := by
  obtain ⟨hrate, hsearch, rfl⟩ := relativePolarity_eq_ok.mp h
  refine relativePolarity_eq_ok.mpr ⟨hrate, hsearch, ?_⟩
  rw [relativeLength_scale_left]
  split_ifs with hshort
  · rfl
  · rfl
  · rw [windowOf_scale, relate_scale_left _ _ hc (length_windowOf _), if_pos ‹_›]
  · rw [windowOf_scale, relate_scale_left _ _ hc (length_windowOf _), if_neg ‹_›]

/-- The second one with a factor. -/
theorem relativePolarity_scale_right
    {c : ℝ} (hc : c ≠ 0) : relativePolarity realPolarity a (b.scale c) config =
      .ok { result with sign := if 0 < c then result.sign else flipSign result.sign } := by
  obtain ⟨hrate, hsearch, rfl⟩ := relativePolarity_eq_ok.mp h
  refine relativePolarity_eq_ok.mpr ⟨hrate, hsearch, ?_⟩
  rw [relativeLength_scale_right]
  split_ifs with hshort
  · rfl
  · rfl
  · rw [windowOf_scale, relate_scale_right _ _ hc (length_windowOf _), if_pos ‹_›]
  · rw [windowOf_scale, relate_scale_right _ _ hc (length_windowOf _), if_neg ‹_›]

/-- The deconvolutions exchanged. -/
theorem relativePolarity_swap :
    ∃ swapped, relativePolarity realPolarity b a config = .ok swapped ∧
      swapped.rho = result.rho ∧ swapped.refusal = result.refusal ∧
      (UniquePeak (windowOf a (relativeLength a b config))
          (windowOf b (relativeLength a b config)) →
        swapped.sign = result.sign ∧ swapped.lag = -result.lag) := by
  obtain ⟨hrate, hsearch, rfl⟩ := relativePolarity_eq_ok.mp h
  have hrates : a.sampleRate = b.sampleRate := by
    by_contra hne
    exact hrate (.inr (.inr hne))
  have hlength : relativeLength b a config = relativeLength a b config := by
    rw [relativeLength, relativeLength, hrates, min_comm (b.samples.length - _)]
  refine ⟨_, relativePolarity_eq_ok.mpr ⟨?_, hsearch, rfl⟩, ?_⟩
  · rw [hrates] at hrate ⊢
    exact hrate
  · rw [hlength]
    split_ifs with hshort
    · exact ⟨rfl, rfl, fun _ => ⟨rfl, rfl⟩⟩
    · exact relate_swap (length_windowOf _)

end

/-- **Headline.** The result of `findPolarity` for the negated samples is the same with the other
sign, and there is a sign exactly where nothing is refused. That of `relativePolarity` has a `rho`
between zero and one; a positive factor of either changes nothing and a negated one changes the sign
alone; and when they are exchanged, `rho` stays, and where one lag is the best, the sign stays and
the lag is negated. -/
theorem polarity_symmetries :
    (∀ (source : Deconvolution ℝ) (config : PolarityConfig ℝ) (result : PolarityResult ℝ),
      findPolarity realPolarity source config = .ok result →
      findPolarity realPolarity source.negate config = .ok result.flip ∧
        (result.sign ≠ .unknown ↔ result.refusal = .none)) ∧
    ∀ (a b : Deconvolution ℝ) (config : RelativePolarityConfig ℝ) (result : RelativePolarity ℝ),
      relativePolarity realPolarity a b config = .ok result →
      result.rho ∈ Set.Icc 0 1 ∧
      (∀ c, 0 < c → relativePolarity realPolarity (a.scale c) b config = .ok result ∧
        relativePolarity realPolarity a (b.scale c) config = .ok result) ∧
      relativePolarity realPolarity a.negate b config = .ok result.flip ∧
      relativePolarity realPolarity a b.negate config = .ok result.flip ∧
      ∃ swapped, relativePolarity realPolarity b a config = .ok swapped ∧
        swapped.rho = result.rho ∧
        (UniquePeak (windowOf a (relativeLength a b config))
            (windowOf b (relativeLength a b config)) →
          swapped.sign = result.sign ∧ swapped.lag = -result.lag) := by
  refine ⟨fun source config result h => ⟨?_, findPolarity_sign h⟩, fun a b config result h => ?_⟩
  · rw [findPolarity_negate, h]
    rfl
  · have hneg : ¬ (0 : ℝ) < -1 := by norm_num
    refine ⟨?_, fun c hc => ⟨?_, ?_⟩, ?_, ?_, ?_⟩
    · obtain ⟨-, -, rfl⟩ := relativePolarity_eq_ok.mp h
      split_ifs with hshort
      · exact ⟨le_rfl, zero_le_one⟩
      · exact relate_rho_mem (length_windowOf _)
    · rw [relativePolarity_scale_left h hc.ne', if_pos hc]
    · rw [relativePolarity_scale_right h hc.ne', if_pos hc]
    · rw [negate_eq_scale, relativePolarity_scale_left h (by norm_num), if_neg hneg]
      rfl
    · rw [negate_eq_scale, relativePolarity_scale_right h (by norm_num), if_neg hneg]
      rfl
    · obtain ⟨swapped, hswapped, hrho, -, hunique⟩ := relativePolarity_swap h
      exact ⟨swapped, hswapped, hrho, hunique⟩

/-- A capture of two samples against one whose second sample is of the other sign. -/
theorem polarity_symmetries_twoSamples :
    let a : Deconvolution ℝ :=
      { samples := [1, 2], originIndex := 0, sampleRate := 2, normalisationGain := 1
        harmonicSpacingL := 0, excitationLowHz := 0, excitationHighHz := 0, trustedLowHz := 0
        trustedHighHz := 0 }
    let b : Deconvolution ℝ := { a with samples := [1, -2] }
    (∃ result, findPolarity realPolarity a
        { arrivalFraction := 1 / 2, searchSeconds := 0, minConfidenceDb := 20, gateLowHz := 100
          gateHighHz := 8000 } = .ok result ∧ result.sign = .unknown) ∧
      ∃ result, relativePolarity realPolarity a b ⟨1⟩ = .ok result ∧ result.rho ∈ Set.Icc 0 1 ∧
        relativePolarity realPolarity a.negate b ⟨1⟩ = .ok result.flip := by
  intro a b
  obtain ⟨hfind, hrelative⟩ := polarity_symmetries
  constructor
  · have hspan : toSize (llround (0 : ℝ)) = 0 := by norm_num [toSize, llround]
    have hfound : findPolarity realPolarity a
        { arrivalFraction := 1 / 2, searchSeconds := 0, minConfidenceDb := 20, gateLowHz := 100
          gateHighHz := 8000 } =
        .ok { sign := .unknown, refusal := .noSignal, arrivalIndex := 0, confidenceDb := 0
              lowEdgeHz := 0, highEdgeHz := 0, margin := 0 } := by
      rw [findPolarity.eq_def]
      norm_num [a, hspan]
    refine ⟨_, hfound, ?_⟩
    by_contra hsign
    exact absurd ((hfind a _ _ hfound).2.mp hsign) (by decide)
  · have hrate : ¬ ((2 : ℝ) ≤ 0 ∨ (2 : ℝ) ≤ 0 ∨ (2 : ℝ) ≠ 2) := by norm_num
    have hsearch : ¬ (1 : ℝ) ≤ 0 := by norm_num
    have hok : relativePolarity realPolarity a b ⟨1⟩ = .ok _ :=
      relativePolarity_eq_ok.mpr ⟨hrate, hsearch, rfl⟩
    obtain ⟨hrho, -, hneg, -⟩ := hrelative a b ⟨1⟩ _ hok
    exact ⟨_, hok, hrho, hneg⟩

end Ir

end RtaTool
