import RtaTool.Eq.BiquadDesign
import RtaTool.Lib.RidgeLeastSquares

/-!
# The gain solve

`EqGainSolve.cpp`. Centres and Q's are fixed; each filter moves the response in proportion to its
gain, and the gains are the weighted least squares fit to the residual, with a ridge whose size is
read off the weakest filter. The normal equations are solved by Cholesky's factorisation.

A bin whose weight is not positive does not enter the sums.

## Main definitions

* `solveGains`, `GainSolve`
* `unitResponse`, `fitBins`, `minDiagonal`, `ridge` -- the columns, the bins of the fit and the ridge

## Main results

* `sum_fitBins` -- the sums over the bins of the fit are those over all bins
* `ridge_pos` -- the ridge is positive when no column is zero
* `solveGains_minimises` -- the gains are the one minimiser of the fit
-/

namespace RtaTool

namespace AutoEq

open Cholesky Ridge

variable {K : Type*} [Field K] [LinearOrder K]

/-- The defaults of `FilterSpec.h`. -/
instance : Inhabited (FilterSpec K) := ⟨{ type := .peaking, fcHz := 1000, q := 1, gainDb := 0 }⟩

variable (math : MathFns K)

/-! ### The condition number -/

section Condition

variable (n : ℕ)

/-- `norm`. -/
def norm (v : ℕ → K) : K := math.sqrt (∑ i ∈ Finset.range n, v i * v i)

/-- `normalizeInPlace`. -/
def normalized (v : ℕ → K) : ℕ → K := fun i => if 0 < norm math n v then v i / norm math n v else v i

/-- `matVec`. -/
def matVec (a : ℕ → ℕ → K) (v : ℕ → K) : ℕ → K := fun i => ∑ j ∈ Finset.range n, a i j * v j

/-- The loop of the two power iterations, from the estimate `eigenvalue`. They differ in the matrix
they apply, and in what a vector that vanishes leaves them with. -/
def powerIterate (apply : (ℕ → K) → ℕ → K) (vanished : K → K) : ℕ → (ℕ → K) → K → K
  | 0, _, eigenvalue => eigenvalue
  | left + 1, v, eigenvalue =>
    let av := apply v
    let newEigenvalue := norm math n av
    if newEigenvalue ≤ 0 then vanished eigenvalue
    else if |newEigenvalue - eigenvalue| ≤ 1 / 10 ^ 13 * max newEigenvalue 1 then newEigenvalue
    else powerIterate apply vanished left (normalized math n av) newEigenvalue

/-- `largestEigenvalue`. -/
def largestEigenvalue (a : ℕ → ℕ → K) : K :=
  powerIterate math n (matVec n a) (fun _ => 0) 200 (normalized math n fun _ => 1) 0

/-- `smallestEigenvalue`. -/
def smallestEigenvalue (l : ℕ → ℕ → K) : K :=
  let ofInverse := powerIterate math n (solve l n) id 200 (normalized math n fun _ => 1) 0
  if 0 < ofInverse then 1 / ofInverse else 0

end Condition

/-! ### The solve -/

/-- `GainSolve`. A condition number of `none` is infinity. -/
structure GainSolve (K : Type*) where
  gainsDb : List K
  conditionNumber : Option K

variable (placed : List (FilterSpec K)) (input : EqInput K)

/-- `validate` of `EqGainSolve.cpp` throws unless this holds. -/
def SolveValid : Prop :=
  placed ≠ [] ∧ placed.length ≤ 16 ∧ input.Valid ∧ 1 / 10 < input.gCapDb

instance : Decidable (SolveValid placed input) :=
  inferInstanceAs (Decidable (_ ∧ _ ∧ _ ∧ _))

/-- The response of a filter at a gain of 1 dB. -/
def unitResponseDb (spec : FilterSpec K) (hz : K) : Option K :=
  responseDb math { spec with gainDb := 1 } input.sampleRate hz

/-- `s[k][i]`. -/
def unitResponse (k i : ℕ) : K :=
  (unitResponseDb math input (placed.getD i default) (input.hz.getD k 0)).getD 0

/-- The bins of positive weight. -/
def fitBins : Finset ℕ := (Finset.range input.hz.length).filter fun k => 0 < input.weight k

/-- `a[i][i]`, the weighted square of a column. -/
def columnSquare (i : ℕ) : K :=
  ∑ k ∈ fitBins input, input.weight k * unitResponse math placed input k i *
    unitResponse math placed input k i

/-- `minDiagonal`. -/
def minDiagonal : K :=
  (List.range' 1 (placed.length - 1)).foldl (fun m i => min m (columnSquare math placed input i))
    (columnSquare math placed input 0)

/-- `lambda`. -/
def ridge : K := 1 / 10 * minDiagonal math placed input / (input.gCapDb - 1 / 10)

/-- `regularized`. -/
def regularized : ℕ → ℕ → K :=
  matrix (fitBins input) input.weight (unitResponse math placed input) (ridge math placed input)

/-- `rhs`. -/
def solveRhs : ℕ → K :=
  rhs (fitBins input) input.weight (fun k => input.residualDb.getD k 0)
    (unitResponse math placed input)

/-- `solveGains`. `none` is `std::invalid_argument`. -/
def solveGains : Option (GainSolve K) :=
  let n := placed.length
  if ¬ SolveValid placed input then none
  else if placed.any fun spec => input.hz.any fun hz => (unitResponseDb math input spec hz).isNone then
    none
  else
    (factor math.sqrt (regularized math placed input) n).map fun l =>
      let gains := solve l n (solveRhs math placed input)
      let largest := largestEigenvalue math n (regularized math placed input)
      let smallest := smallestEigenvalue math n l
      { gainsDb := (List.range n).map gains
        conditionNumber := if 0 < smallest then some (largest / smallest) else none }

/-- What the gains minimise, with `w`, `s` and `lambda` those of `solveGains`. -/
def fitCost (gains : List K) : K :=
  ∑ k ∈ fitBins input, input.weight k *
      (∑ i ∈ Finset.range placed.length, gains.getD i 0 * unitResponse math placed input k i -
        input.residualDb.getD k 0) ^ 2 +
    ridge math placed input * ∑ i ∈ Finset.range placed.length, gains.getD i 0 ^ 2

/-- The column of the filter `i` has an entry other than zero at a bin of the fit. -/
def ColumnNonzero (i : ℕ) : Prop :=
  ∃ k ∈ fitBins input, ∃ v,
    unitResponseDb math input (placed.getD i default) (input.hz.getD k 0) = some v ∧ v ≠ 0

variable {math placed input}

theorem fitCost_eq (gains : List K) :
    fitCost math placed input gains =
      cost (fitBins input) input.weight (fun k => input.residualDb.getD k 0)
        (unitResponse math placed input) (ridge math placed input) placed.length
        fun i => gains.getD i 0 := rfl

/-- Where no coherence is negative the bins left out of the sums add nothing to them. -/
theorem sum_fitBins (hweight : ∀ k, 0 ≤ input.weight k) (f : ℕ → K) :
    ∑ k ∈ fitBins input, input.weight k * f k =
      ∑ k ∈ Finset.range input.hz.length, input.weight k * f k := by
  refine Finset.sum_filter_of_ne fun k _ hne => lt_of_le_of_ne (hweight k) ?_
  rintro heq
  rw [← heq, zero_mul] at hne
  exact hne rfl

/-! ### The ridge -/

theorem weight_pos {k : ℕ} (hk : k ∈ fitBins input) : 0 < input.weight k :=
  (Finset.mem_filter.mp hk).2

theorem fitWeight_nonneg {k : ℕ} (hk : k ∈ fitBins input) : 0 ≤ input.weight k :=
  (weight_pos hk).le

variable [IsStrictOrderedRing K]

theorem columnSquare_pos {i : ℕ} (h : ColumnNonzero math placed input i) :
    0 < columnSquare math placed input i := by
  obtain ⟨k, hk, v, hv, hne⟩ := h
  have hresponse : unitResponse math placed input k i = v := by rw [unitResponse, hv]; rfl
  refine Finset.sum_pos' (fun j hj => ?_) ⟨k, hk, ?_⟩
  · rw [mul_assoc]
    exact mul_nonneg (fitWeight_nonneg hj) (mul_self_nonneg _)
  · rw [hresponse, mul_assoc]
    exact mul_pos (weight_pos hk) (mul_self_pos.mpr hne)

theorem minDiagonal_pos (hne : placed ≠ [])
    (hcolumns : ∀ i < placed.length, ColumnNonzero math placed input i) :
    0 < minDiagonal math placed input := by
  have hlength : 0 < placed.length := List.length_pos_iff.mpr hne
  have hloop : ∀ (is : List ℕ) (m : K), 0 < m →
      (∀ i ∈ is, 0 < columnSquare math placed input i) →
      0 < is.foldl (fun m i => min m (columnSquare math placed input i)) m := by
    intro is
    induction is with
    | nil => exact fun m hm _ => hm
    | cons i is ih =>
      intro m hm his
      exact ih _ (lt_min hm (his i (List.mem_cons_self ..)))
        fun j hj => his j (List.mem_cons_of_mem i hj)
  refine hloop _ _ (columnSquare_pos (hcolumns 0 hlength)) fun i hi => ?_
  rw [List.mem_range'_1] at hi
  exact columnSquare_pos (hcolumns i (by omega))

theorem ridge_pos (hvalid : SolveValid placed input)
    (hcolumns : ∀ i < placed.length, ColumnNonzero math placed input i) :
    0 < ridge math placed input := by
  have hmin := minDiagonal_pos hvalid.1 hcolumns
  have hcap : 0 < input.gCapDb - 1 / 10 := sub_pos.mpr hvalid.2.2.2
  rw [ridge]
  positivity

/-! ### The fit -/

omit [IsStrictOrderedRing K] in
theorem unitResponseDb_isSome {i : ℕ} (h : ColumnNonzero math placed input i) (hz : K) :
    (unitResponseDb math input (placed.getD i default) hz).isSome := by
  obtain ⟨k, -, v, hv, -⟩ := h
  refine responseDb_isSome_iff.mpr (responseDb_isSome_iff.mp (Option.isSome_iff_exists.mpr ⟨v, hv⟩))

omit [IsStrictOrderedRing K] in
theorem no_response_throws (hcolumns : ∀ i < placed.length, ColumnNonzero math placed input i) :
    ¬ (placed.any fun spec => input.hz.any fun hz => (unitResponseDb math input spec hz).isNone) := by
  simp only [List.any_eq_true, not_exists, not_and, Bool.not_eq_true, Option.isNone_eq_false_iff]
  intro spec hspec hz _
  obtain ⟨i, hi, rfl⟩ := List.mem_iff_getElem.mp hspec
  rw [← List.getD_eq_getElem placed default hi]
  exact unitResponseDb_isSome (hcolumns i hi) hz

/-- **Headline.** The gain solve, for a square root that is one: it does not throw, and its gains
cost less than any others. -/
theorem exists_solveGains (hsqrt : ∀ x, 0 < x → 0 < math.sqrt x ∧ math.sqrt x * math.sqrt x = x)
    (hvalid : SolveValid placed input)
    (hcolumns : ∀ i < placed.length, ColumnNonzero math placed input i) :
    ∃ result, solveGains math placed input = some result ∧
      result.gainsDb.length = placed.length ∧
      ∀ gains : List K, gains.length = placed.length → gains ≠ result.gainsDb →
        fitCost math placed input result.gainsDb < fitCost math placed input gains := by
  have hridge := ridge_pos hvalid hcolumns
  have hsymm : SymmetricOn (regularized math placed input) placed.length :=
    symmetricOn_matrix _ _ _ _ _
  obtain ⟨l, hl, hfilled⟩ := factor_of_posDef hsqrt
    (posDefOn_matrix (n := placed.length) (fun _ => fitWeight_nonneg) hridge) hsymm
  have hnormal := sum_solve hsymm hfilled (solveRhs math placed input)
  rw [solveGains, if_neg (not_not_intro hvalid), if_neg (no_response_throws hcolumns), regularized, hl]
  refine ⟨_, rfl, by simp, fun gains hlength hne => ?_⟩
  -- the gains as a list are the solution as far as it is read
  have hread : ∀ i < placed.length,
      ((List.range placed.length).map (solve l placed.length (solveRhs math placed input))).getD i 0 =
        solve l placed.length (solveRhs math placed input) i := by
    intro i hi
    simp [List.getD_eq_getElem?_getD, hi]
  have hcongr : ∀ i < placed.length, ∑ j ∈ Finset.range placed.length,
      regularized math placed input i j *
        ((List.range placed.length).map
          (solve l placed.length (solveRhs math placed input))).getD j 0 =
      solveRhs math placed input i := by
    intro i hi
    rw [← hnormal i hi]
    exact Finset.sum_congr rfl fun j hj => by rw [hread j (Finset.mem_range.mp hj)]
  rw [fitCost_eq, fitCost_eq]
  refine cost_lt (fun _ => fitWeight_nonneg) hridge hcongr ?_
  by_contra hall
  push Not at hall
  refine hne (List.ext_getElem (by simp [hlength]) fun i hi hi' => ?_)
  rw [← List.getD_eq_getElem gains 0 hi, ← List.getD_eq_getElem _ 0 hi']
  exact hall i (hlength ▸ hi)

/-- **Headline.** Cholesky's factorisation and its substitutions solve every symmetric positive
definite system, of any size; and the gain solve of a valid input whose columns are not zero does
not throw, and gives the one minimiser of the fit. -/
theorem solveGains_minimises :
    (∀ (n : ℕ) (a : ℕ → ℕ → ℝ), SymmetricOn a n → PosDefOn a n →
      ∃ l, factor realMath.sqrt a n = some l ∧
        ∀ b : ℕ → ℝ, ∀ i < n, ∑ j ∈ Finset.range n, a i j * solve l n b j = b i) ∧
    ∀ (placed : List (FilterSpec ℝ)) (input : EqInput ℝ), SolveValid placed input →
      (∀ i < placed.length, ColumnNonzero realMath placed input i) →
      ∃ result, solveGains realMath placed input = some result ∧
        result.gainsDb.length = placed.length ∧
        ∀ gains : List ℝ, gains.length = placed.length → gains ≠ result.gainsDb →
          fitCost realMath placed input result.gainsDb < fitCost realMath placed input gains := by
  have hsqrt : ∀ x : ℝ, 0 < x → 0 < realMath.sqrt x ∧ realMath.sqrt x * realMath.sqrt x = x :=
    fun x hx => ⟨Real.sqrt_pos.mpr hx, Real.mul_self_sqrt hx.le⟩
  constructor
  · intro n a hsymm hpd
    obtain ⟨l, hl, hfilled⟩ := factor_of_posDef hsqrt hpd hsymm
    exact ⟨l, hl, sum_solve hsymm hfilled⟩
  · intro placed input hvalid hcolumns
    exact exists_solveGains hsqrt hvalid hcolumns

/-- A peaking filter at a quarter of the sample rate. -/
noncomputable def quarterRateFilter : FilterSpec ℝ :=
  { type := .peaking, fcHz := 12000, q := 1, gainDb := 0 }

/-- One trusted bin at a quarter of the sample rate, 3 dB above the target. -/
noncomputable def quarterRateInput : EqInput ℝ where
  hz := [12000]
  residualDb := [3]
  coherence := [1]
  trusted := [true]
  excluded := [false]
  sampleRate := 48000
  maxFilters := 6
  gCapDb := 6
  qMaxBoost := 10
  qMaxCut := 20
  roomT60Sec := none
  hHalfGrid := []

theorem quarterRate_valid : SolveValid [quarterRateFilter] quarterRateInput := by
  refine ⟨by simp, by simp, ⟨rfl, rfl, rfl, rfl, ?_⟩, ?_⟩ <;> norm_num [quarterRateInput]

theorem quarterRate_response :
    ∃ v, unitResponseDb realMath quarterRateInput quarterRateFilter 12000 = some v ∧ v ≠ 0 := by
  have hangle : 2 * Real.pi * 12000 / 48000 = Real.pi / 2 := by ring
  have hdouble : 2 * (Real.pi / 2) = Real.pi := by ring
  have hdesign : { quarterRateFilter with gainDb := 1 }.Designable realMath
      quarterRateInput.sampleRate := by
    refine ⟨?_, ?_, ?_, ?_, fun h => absurd rfl h⟩ <;>
      norm_num [quarterRateFilter, quarterRateInput]
  have hgain : (1 : ℝ) < 10 ^ ((1 : ℝ) / 40) := Real.one_lt_rpow (by norm_num) (by norm_num)
  set a : ℝ := 10 ^ ((1 : ℝ) / 40) with ha
  have hapos : 0 < a := by linarith
  -- the numerator and the denominator at a quarter of the sample rate
  have hden : (0 : ℝ) < (1 / a / (1 + 1 / 2 / a)) ^ 2 := by positivity
  have hlt : (1 / a / (1 + 1 / 2 / a)) ^ 2 < (a / (1 + 1 / 2 / a)) ^ 2 := by
    have hinv : 1 / a < a := (div_lt_one hapos).mpr hgain |>.trans hgain
    gcongr
  have hlog := Real.logb_lt_logb (b := 10) (by norm_num) hden hlt
  refine ⟨_, by rw [unitResponseDb, responseDb, designBiquad, if_pos hdesign]; rfl, ?_⟩
  simp only [attenuationDb, List.foldl_cons, List.foldl_nil, sectionAttenuationDb, designPeaking,
    normalize, quarterRateFilter, quarterRateInput, realMath, hangle, hdouble, Real.cos_pi_div_two,
    Real.sin_pi_div_two, Real.cos_pi, Real.sin_pi, ← ha]
  have hne : 1 + 1 / 2 / a ≠ 0 := by positivity
  have hdecibels : ∀ d m : ℝ, d = (1 / a / (1 + 1 / 2 / a)) ^ 2 → m = (a / (1 + 1 / 2 / a)) ^ 2 →
      -(0 + (10 * Real.logb 10 d - 10 * Real.logb 10 m)) ≠ 0 := by
    rintro d m rfl rfl
    have : 0 < -(0 + (10 * Real.logb 10 ((1 / a / (1 + 1 / 2 / a)) ^ 2) -
        10 * Real.logb 10 ((a / (1 + 1 / 2 / a)) ^ 2))) := by linarith
    exact this.ne'
  refine hdecibels _ _ ?_ ?_
  · field_simp
    ring
  · field_simp
    ring

theorem solveGains_quarterRate :
    (∃ l, factor realMath.sqrt (fun i j => if i = j then 2 else 1) 2 = some l ∧
      ∀ b : ℕ → ℝ, ∀ i < 2,
        ∑ j ∈ Finset.range 2, (if i = j then 2 else 1) * solve l 2 b j = b i) ∧
    ∃ result, solveGains realMath [quarterRateFilter] quarterRateInput = some result ∧
      result.gainsDb.length = 1 ∧
      ∀ gains : List ℝ, gains.length = 1 → gains ≠ result.gainsDb →
        fitCost realMath [quarterRateFilter] quarterRateInput result.gainsDb <
          fitCost realMath [quarterRateFilter] quarterRateInput gains := by
  constructor
  · refine solveGains_minimises.1 2 _ (fun i _ j _ => by simp only [eq_comm]) ?_
    rintro x ⟨i, hi, hx⟩
    have hsum : quad (fun i j => if i = j then (2 : ℝ) else 1) 2 x =
        x 0 ^ 2 + x 1 ^ 2 + (x 0 + x 1) ^ 2 := by
      simp [quad, Finset.sum_range_succ]
      ring
    rw [hsum]
    have hsquare : 0 < x i ^ 2 := by positivity
    obtain rfl | rfl : i = 0 ∨ i = 1 := by omega
    · nlinarith [sq_nonneg (x 1), sq_nonneg (x 0 + x 1)]
    · nlinarith [sq_nonneg (x 0), sq_nonneg (x 0 + x 1)]
  · refine solveGains_minimises.2 _ _ quarterRate_valid fun i hi => ⟨0, ?_, ?_⟩
    · norm_num [fitBins, EqInput.weight, EqInput.InPlay, quarterRateInput]
    · obtain rfl : i = 0 := Nat.lt_one_iff.mp hi
      exact quarterRate_response

end AutoEq

end RtaTool
