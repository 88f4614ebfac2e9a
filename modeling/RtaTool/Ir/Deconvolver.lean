import RtaTool.Dsp.RealFft

/-!
# The deconvolver

`Deconvolver.cpp`. A captured sweep is convolved with the inverse filter: both are padded with zeros
to the next power of two, transformed, multiplied bin by bin and transformed back. The transform is
at least as long as the linear convolution, so nothing wraps.

## Main definitions

* `nextPowerOfTwo`
* `DeconvolverConfig`, `Deconvolution`, `deconvolve`

## Main results

* `nextPowerOfTwo_isLeast` -- the least size that the transform takes and the data fit in
* `inverse_product` -- the product of two transforms, transformed back, is the linear convolution
* `deconvolve_linear` -- the deconvolution is the linear convolution times the gain
-/

namespace RtaTool

namespace Ir

open Dsp Fft

/-! ### The size of the transform -/

/-- The loop of `nextPowerOfTwo`, from `size`. -/
def doubleUntil (n size : ℕ) (hsize : 0 < size) : ℕ :=
  if size < n then doubleUntil n (size * 2) (by omega) else size
termination_by n - size

/-- `nextPowerOfTwo`. -/
def nextPowerOfTwo (n : ℕ) : ℕ := doubleUntil n 4 (by omega)

theorem doubleUntil_eq (n size : ℕ) (hsize : 0 < size) :
    ∃ k, doubleUntil n size hsize = size * 2 ^ k ∧ n ≤ size * 2 ^ k ∧
      ∀ j < k, size * 2 ^ j < n := by
  induction size, hsize using doubleUntil.induct n with
  | case1 size hsize hlt ih =>
    obtain ⟨k, heq, hle, hbelow⟩ := ih
    refine ⟨k + 1, ?_, ?_, ?_⟩
    · rw [doubleUntil, if_pos hlt, heq, pow_succ', mul_assoc]
    · rwa [pow_succ', ← mul_assoc]
    · rintro (_ | j) hj
      · simpa using hlt
      · rw [pow_succ', ← mul_assoc]
        exact hbelow j (by omega)
  | case2 size hsize hlt =>
    refine ⟨0, ?_, by omega, fun j hj => absurd hj (Nat.not_lt_zero j)⟩
    rw [doubleUntil, if_neg hlt, pow_zero, mul_one]

/-- The sizes that `RealFft` takes. -/
def RealFftSize (size : ℕ) : Prop := 4 ≤ size ∧ ∃ levels, size = 2 ^ levels

/-- The size is the least that `RealFft` takes and `n` samples fit in. -/
theorem nextPowerOfTwo_isLeast (n : ℕ) :
    IsLeast {size | RealFftSize size ∧ n ≤ size} (nextPowerOfTwo n) := by
  obtain ⟨k, heq, hle, hbelow⟩ := doubleUntil_eq n 4 (by omega)
  have hpow : 4 * 2 ^ k = 2 ^ (k + 2) := by ring
  have hfour : 4 ≤ 4 * 2 ^ k := Nat.le_mul_of_pos_right 4 (Nat.two_pow_pos k)
  rw [nextPowerOfTwo, heq]
  refine ⟨⟨⟨hfour, k + 2, hpow⟩, hle⟩, ?_⟩
  rintro size ⟨⟨hsize, levels, rfl⟩, hn⟩
  have htwo : 2 ≤ levels := (Nat.pow_le_pow_iff_right Nat.one_lt_two).mp hsize
  obtain ⟨j, rfl⟩ := Nat.exists_eq_add_of_le' htwo
  have hj : k ≤ j := by
    by_contra hlt
    have hshort : 4 * 2 ^ j < n := hbelow j (by omega)
    have : 2 ^ (j + 2) = 4 * 2 ^ j := by ring
    omega
  rw [hpow]
  exact Nat.pow_le_pow_right Nat.two_pos (by omega)

/-! ### The deconvolution -/

variable {K : Type*} [Field K]

/-- `DeconvolverConfig`. -/
structure DeconvolverConfig (K : Type*) where
  sampleRate : K
  harmonicSpacingL : K
  normalisationGain : K
  excitationLowHz : K
  excitationHighHz : K
  trustedLowHz : K
  trustedHighHz : K

/-- `Deconvolution`. -/
structure Deconvolution (K : Type*) where
  samples : List K
  originIndex : ℕ
  sampleRate : K
  normalisationGain : K
  harmonicSpacingL : K
  excitationLowHz : K
  excitationHighHz : K
  trustedLowHz : K
  trustedHighHz : K

/-- A span copied to the start of zeros. -/
def padded (x : List K) : ℕ → K := fun n => x.getD n 0

/-- The two transforms, the product of the bins and the transform back. -/
def filtered (trig : Trig K) (fftSize : ℕ) (response inverseFilter : List K) : ℕ → K :=
  let spectrum := realFftForward trig fftSize (padded response)
  let filter := realFftForward trig fftSize (padded inverseFilter)
  realFftInverse trig fftSize fun k => spectrum k * filter k

/-- `deconvolve`. -/
def deconvolve [LinearOrder K] (trig : Trig K) (response inverseFilter : List K)
    (config : DeconvolverConfig K) : Except String (Deconvolution K) :=
  if inverseFilter.length = 0 then .error "deconvolve: inverseFilter is empty"
  else if response.length = 0 then .error "deconvolve: response is empty"
  else if ¬0 < config.sampleRate then .error "deconvolve: sampleRate must be positive"
  else if response.length < inverseFilter.length then
    .error ("deconvolve: response is shorter than the inverse filter, so t=0 " ++
      "would fall outside the result")
  else
    let linearLength := response.length + inverseFilter.length - 1
    let fftSize := nextPowerOfTwo linearLength
    -- the constructor of `RealFft`
    if fftSize < 4 ∨ fftSize ≠ 2 ^ fftSize.log2 then
      .error "RealFft size must be a power of two and at least 4"
    else
      let samples := (List.range linearLength).map (filtered trig fftSize response inverseFilter)
      .ok
        { samples :=
            if config.normalisationGain ≠ 1 then samples.map (· * config.normalisationGain)
            else samples
          originIndex := inverseFilter.length - 1
          sampleRate := config.sampleRate
          normalisationGain := config.normalisationGain
          harmonicSpacingL := config.harmonicSpacingL
          excitationLowHz := config.excitationLowHz
          excitationHighHz := config.excitationHighHz
          trustedLowHz := config.trustedLowHz
          trustedHighHz := config.trustedHighHz }

/-! ### It is linear -/

theorem padded_of_length_le {x : List K} {n : ℕ} (h : x.length ≤ n) : padded x n = 0 :=
  List.getD_eq_default _ _ h

theorem ofReal_convolve (x y : ℕ → K) (n : ℕ) :
    ofReal (convolve x y n) = convolve (fun i => ofReal (x i)) (fun i => ofReal (y i)) n := by
  have hsum : ∀ (s : Finset ℕ) (f : ℕ → K), ofReal (∑ i ∈ s, f i) = ∑ i ∈ s, ofReal (f i) :=
    fun s f => map_sum (algebraMap K (Cplx K)) f s
  rw [convolve, hsum, convolve]
  exact Finset.sum_congr rfl fun i _ => QuadraticAlgebra.C_mul _ _

/-- What comes back is the linear convolution, wherever the transform is as long as that is. -/
theorem inverse_product [CharZero K] {trig : Trig K} {ζ : ℕ → Cplx K} (h : TrigRoots trig ζ)
    {levels n : ℕ} {x y : List K} (hx : 0 < x.length) (hy : 0 < y.length)
    (hlength : x.length + y.length - 1 ≤ 2 ^ (levels + 1)) (hn : n < 2 ^ (levels + 1)) :
    filtered trig (2 ^ (levels + 1)) x y n = convolve (padded x) (padded y) n := by
  refine h.realFftInverse_apply hn fun k hk => ?_
  have hzero : ∀ (z : List K), ∀ i ≥ z.length, ofReal (padded z i) = 0 := by
    intro z i hi
    rw [padded_of_length_le hi]
    rfl
  simp only [ofReal_convolve]
  rw [h.realFftForward_apply hk, h.realFftForward_apply hk,
    dft_convolve (hzero x) (hzero y) hx hy hlength]

/-- **Headline.** The deconvolution has `response + inverseFilter - 1` samples, and they are those
of the linear convolution times the gain; the transform that computes it is the least that they fit
in. -/
theorem deconvolve_linear (response inverseFilter : List ℝ) (config : DeconvolverConfig ℝ)
    (hfilter : inverseFilter ≠ []) (hlength : inverseFilter.length ≤ response.length)
    (hrate : 0 < config.sampleRate) :
    (∃ result, deconvolve realTrig response inverseFilter config = .ok result ∧
      result.samples.length = response.length + inverseFilter.length - 1 ∧
      ∀ n, ∀ sample ∈ result.samples[n]?, sample = config.normalisationGain *
        ∑ i ∈ Finset.range (n + 1), response.getD i 0 * inverseFilter.getD (n - i) 0) ∧
    IsLeast {size | RealFftSize size ∧ response.length + inverseFilter.length - 1 ≤ size}
      (nextPowerOfTwo (response.length + inverseFilter.length - 1)) := by
  have hy : 0 < inverseFilter.length := List.length_pos_iff.mpr hfilter
  have hleast := nextPowerOfTwo_isLeast (response.length + inverseFilter.length - 1)
  refine ⟨?_, hleast⟩
  obtain ⟨⟨⟨hfour, levels, hsize⟩, hfits⟩, -⟩ := hleast
  have hlog : nextPowerOfTwo (response.length + inverseFilter.length - 1) =
      2 ^ (nextPowerOfTwo (response.length + inverseFilter.length - 1)).log2 := by
    rw [hsize, Nat.log2_two_pow]
  obtain ⟨levels, rfl⟩ : ∃ l, levels = l + 1 := by
    refine Nat.exists_eq_succ_of_ne_zero ?_
    rintro rfl
    omega
  rw [deconvolve, if_neg (by omega), if_neg (by omega), if_neg (not_not.mpr hrate),
    if_neg (by omega)]
  dsimp only
  rw [if_neg (by rw [not_or]; exact ⟨by omega, not_not.mpr hlog⟩)]
  rw [hsize] at hfits ⊢
  have hsample : ∀ n < response.length + inverseFilter.length - 1,
      filtered realTrig (2 ^ (levels + 1)) response inverseFilter n =
        convolve (padded response) (padded inverseFilter) n := fun n hn =>
    inverse_product trigRoots_real (by omega) hy hfits (by omega)
  refine ⟨_, rfl, ?_, ?_⟩
  · split_ifs <;> simp
  · intro n sample hmem
    have hsome := Option.mem_def.mp hmem
    split_ifs at hsome with hgain
    · simp only [List.map_map, List.getElem?_map, Option.map_eq_some_iff,
        List.getElem?_eq_some_iff, List.getElem_range, List.length_range] at hsome
      obtain ⟨_, ⟨hn, rfl⟩, rfl⟩ := hsome
      rw [Function.comp_apply, hsample n hn, mul_comm]
      rfl
    · simp only [List.getElem?_map, Option.map_eq_some_iff, List.getElem?_eq_some_iff,
        List.getElem_range, List.length_range] at hsome
      obtain ⟨_, ⟨hn, rfl⟩, rfl⟩ := hsome
      rw [hsample n hn, not_not.mp hgain, one_mul]
      rfl

theorem deconvolve_linear_fullLength :
    ∃ result, deconvolve realTrig [1, 2, 3] [1, -1]
        { sampleRate := 48000, harmonicSpacingL := 1, normalisationGain := 2, excitationLowHz := 20,
          excitationHighHz := 20000, trustedLowHz := 40, trustedHighHz := 18000 } = .ok result ∧
      result.samples = [2, 2, 2, -6] := by
  obtain ⟨⟨result, hok, hlength, hsamples⟩, -⟩ := deconvolve_linear [1, 2, 3] [1, -1]
    { sampleRate := 48000, harmonicSpacingL := 1, normalisationGain := 2, excitationLowHz := 20,
      excitationHighHz := 20000, trustedLowHz := 40, trustedHighHz := 18000 }
    (by simp) (by simp) (by norm_num)
  refine ⟨result, hok, ?_⟩
  obtain ⟨a, b, c, d, hresult⟩ : ∃ a b c d, result.samples = [a, b, c, d] :=
    List.length_eq_four.mp (by simpa using hlength)
  have ha := hsamples 0 a (by simp [hresult])
  have hb := hsamples 1 b (by simp [hresult])
  have hc := hsamples 2 c (by simp [hresult])
  have hd := hsamples 3 d (by simp [hresult])
  rw [hresult, ha, hb, hc, hd]
  norm_num [Finset.sum_range_succ]

end Ir

end RtaTool
