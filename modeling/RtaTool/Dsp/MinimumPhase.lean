import RtaTool.Dsp.FftSpectrum

/-!
# Minimum phase from a magnitude

`MinimumPhase.cpp`. The logarithm of a magnitude is transformed back to its cepstrum, the second
half of that is folded onto the first, and the exponential function is taken of the transform. The
magnitude is even, so its cepstrum is: what is folded away comes back as the conjugate half, and the
real part of the transform is the logarithm that was put in.

## Main definitions

* `isPowerOfTwo`, `CepstrumMath`
* `foldWeight`, `minimumPhaseFromMagnitude`

## Main results

* `TrigRoots.dft_fold` -- the transform of a folded even sequence, and its conjugate
* `minimumPhaseFromMagnitude_spec` -- **Headline.** The magnitude, the symmetry and the cepstrum
-/

namespace RtaTool

namespace Dsp

open Fft

variable {K : Type*} [Field K]

/-! ### `MinimumPhase.cpp` -/

/-- `isPowerOfTwo(n)`. -/
def isPowerOfTwo (n : ℕ) : Bool := n != 0 && n &&& (n - 1) == 0

/-- The functions of the standard library: those of the transform, ten to a power, the logarithm,
and the exponential of a complex number. -/
structure CepstrumMath (K : Type*) [CommRing K] where
  trig : Trig K
  pow10 : K → K
  log : K → K
  exp : Cplx K → Cplx K

/-- `MinimumPhaseResult`. -/
structure MinimumPhaseResult (K : Type*) [CommRing K] where
  spectrum : List (Cplx K)

/-- `kMinPhaseFloorDb`. -/
def kMinPhaseFloorDb : K := -120

/-- The weight of a place of the cepstrum. -/
def foldWeight (half k : ℕ) : K := if k = 0 ∨ k = half then 1 else if k < half then 2 else 0

/-- `minimumPhaseFromMagnitude(magnitudeFullGrid, floorDb)`. -/
def minimumPhaseFromMagnitude [LinearOrder K] (math : CepstrumMath K) (magnitudeFullGrid : List K)
    (floorDb : K) : Except String (MinimumPhaseResult K) :=
  let n := magnitudeFullGrid.length
  if n < 4 || !isPowerOfTwo n then
    .error "minimumPhaseFromMagnitude: size must be a power of two, >= 4"
  else do
    let floorLinear := math.pow10 (floorDb / 20)
    let logarithm : ℕ → Cplx K := fun k =>
      ⟨math.log (max (magnitudeFullGrid.getD k 0) floorLinear), 0⟩
    let fft ← FftTables.make math.trig n
    let cepstrum ← fft.inverse n logarithm
    let half := n / 2
    let folded : ℕ → Cplx K := fun k => ⟨(cepstrum k).re * foldWeight half k, 0⟩
    let spectrum ← fft.forward n folded
    return ⟨(List.range n).map fun k => math.exp (spectrum k)⟩

theorem isPowerOfTwo_two_pow (levels : ℕ) : isPowerOfTwo (2 ^ levels) = true := by
  have hne : 2 ^ levels ≠ 0 := (Nat.two_pow_pos levels).ne'
  rw [isPowerOfTwo, Nat.and_two_pow_sub_one_eq_mod, Nat.mod_self]
  simpa using hne

/-! ### Folding -/

/-- A place and its mirror image have the weight two between them. -/
theorem foldWeight_add {half k : ℕ} (hpos : 0 < k) (hk : k < 2 * half) :
    (foldWeight half k : K) + foldWeight half (2 * half - k) = 2 := by
  obtain hlt | rfl | hgt := Nat.lt_trichotomy k half
  · rw [foldWeight, if_neg (by omega), if_pos hlt, foldWeight, if_neg (by omega),
      if_neg (by omega), add_zero]
  · rw [foldWeight, if_pos (.inr rfl), foldWeight, if_pos (.inr (by omega)), one_add_one_eq_two]
  · rw [foldWeight, if_neg (by omega), if_neg (by omega), foldWeight, if_neg (by omega),
      if_pos (by omega), zero_add]

theorem foldWeight_of_lt {half k : ℕ} (hk : half < k) : (foldWeight half k : K) = 0 := by
  rw [foldWeight, if_neg (by omega), if_neg (by omega)]

theorem ofReal_add (x y : K) : (ofReal (x + y) : Cplx K) = ofReal x + ofReal y := by
  ext <;> simp [ofReal]

section Roots

variable {trig : Trig K} {ζ : ℕ → Cplx K}

theorem dft_add (ω : Cplx K) (n : ℕ) (x y : ℕ → Cplx K) (k : ℕ) :
    dft ω n (fun j => x j + y j) k = dft ω n x k + dft ω n y k := by
  rw [dft, dft, dft, ← Finset.sum_add_distrib]
  exact Finset.sum_congr rfl fun j _ => add_mul ..

namespace TrigRoots

variable (h : TrigRoots trig ζ)
include h

theorem star_dft_mirror (levels : ℕ) (x : ℕ → K) (k : ℕ) :
    star (dft (ζ levels) (2 ^ levels) (fun n => ofReal (x n)) k) =
      dft (ζ levels) (2 ^ levels)
        (fun n => ofReal (if n = 0 then x 0 else x (2 ^ levels - n))) k := by
  have hunit : ∀ j, ζ levels ^ j * star (ζ levels) ^ j = 1 := fun j => by
    rw [← mul_pow, h.unit, one_pow]
  rw [dft, star_sum, sum_range_mirror (Nat.two_pow_pos levels), dft]
  refine Finset.sum_congr rfl fun n hn => ?_
  have hn := Finset.mem_range.mp hn
  split_ifs with hzero
  · rw [hzero, star_mul', star_ofReal, Nat.zero_mul, pow_zero, star_one]
  · have hturn : ζ levels ^ ((2 ^ levels - n) * k) * ζ levels ^ (n * k) = 1 := by
      rw [← pow_add, ← Nat.add_mul, Nat.sub_add_cancel hn.le, pow_mul, h.tower.pow_full, one_pow]
    rw [star_mul', star_ofReal, star_pow]
    congr 1
    calc star (ζ levels) ^ ((2 ^ levels - n) * k)
        = star (ζ levels) ^ ((2 ^ levels - n) * k) *
            (ζ levels ^ ((2 ^ levels - n) * k) * ζ levels ^ (n * k)) := by rw [hturn, mul_one]
      _ = ζ levels ^ ((2 ^ levels - n) * k) * star (ζ levels) ^ ((2 ^ levels - n) * k) *
            ζ levels ^ (n * k) := by ring
      _ = ζ levels ^ (n * k) := by rw [hunit, one_mul]

variable {x : ℕ → K} {levels k : ℕ}

theorem star_dft_even {levels : ℕ}
    (heven : ∀ n, 0 < n → n < 2 ^ levels → x (2 ^ levels - n) = x n) (k : ℕ) :
    star (dft (ζ levels) (2 ^ levels) (fun n => ofReal (x n)) k) =
      dft (ζ levels) (2 ^ levels) (fun n => ofReal (x n)) k := by
  rw [h.star_dft_mirror]
  refine dft_congr (fun n hn => ?_) k
  split_ifs with hzero
  · rw [hzero]
  · rw [heven n (Nat.pos_of_ne_zero hzero) hn]

omit h in
theorem dft_star_root (ω : Cplx K) (n : ℕ) (x : ℕ → K) (k : ℕ) :
    dft (star ω) n (fun j => ofReal (x j)) k = star (dft ω n (fun j => ofReal (x j)) k) := by
  rw [dft, dft, star_sum]
  refine Finset.sum_congr rfl fun j _ => ?_
  rw [star_mul', star_ofReal, star_pow]

theorem fftInverse_even [CharZero K] (hk : k < 2 ^ levels)
    (heven : ∀ n, 0 < n → n < 2 ^ levels → x (2 ^ levels - n) = x n) :
    fftInverse trig (2 ^ levels) (fun n => ofReal (x n)) k =
      ofReal (fftInverse trig (2 ^ levels) (fun n => ofReal (x n)) k).re := by
  have hreal : fftInverse trig (2 ^ levels) (fun n => ofReal (x n)) k =
      (1 / ((2 ^ levels : ℕ) : K)) • dft (ζ levels) (2 ^ levels) (fun n => ofReal (x n)) k := by
    rw [h.fftInverse_eq_dft hk, dft_star_root, h.star_dft_even heven]
  refine (ofReal_re ?_).symm
  rw [hreal, QuadraticAlgebra.im_smul, im_eq_zero (h.star_dft_even heven k), smul_zero]

theorem fftInverse_mirror {levels k k' : ℕ} (hk : k < 2 ^ levels) (hk' : k' < 2 ^ levels)
    (hsum : k + k' = 2 ^ levels)
    (heven : ∀ n, 0 < n → n < 2 ^ levels → x (2 ^ levels - n) = x n) :
    fftInverse trig (2 ^ levels) (fun n => ofReal (x n)) k' =
      fftInverse trig (2 ^ levels) (fun n => ofReal (x n)) k := by
  rw [h.fftInverse_eq_dft hk, h.fftInverse_eq_dft hk', dft_star_root, dft_star_root,
    ← h.star_dft hsum, h.star_dft_even heven, h.star_dft_even heven]

theorem dft_fftInverse [CharZero K] (hk : k < 2 ^ levels) (x : ℕ → Cplx K) :
    dft (ζ levels) (2 ^ levels) (fftInverse trig (2 ^ levels) x) k = x k := by
  have hunit : ∀ s, star (ζ s) * ζ s = 1 := fun s => by rw [mul_comm, h.unit]
  rw [dft_congr (fun n hn => h.fftInverse_eq_dft hn x), dft_smul,
    dft_inverse (starTower h.tower) h.tower hunit x hk, one_div_two_pow_smul]

/-- The transform of a folded even sequence and its conjugate add up to twice the transform of the
sequence. -/
theorem dft_fold (levels : ℕ) {c : ℕ → K}
    (heven : ∀ n, 0 < n → n < 2 ^ (levels + 1) → c (2 ^ (levels + 1) - n) = c n) (k : ℕ) :
    dft (ζ (levels + 1)) (2 ^ (levels + 1)) (fun n => ofReal (c n * foldWeight (2 ^ levels) n)) k +
        star (dft (ζ (levels + 1)) (2 ^ (levels + 1))
          (fun n => ofReal (c n * foldWeight (2 ^ levels) n)) k) =
      dft (ζ (levels + 1)) (2 ^ (levels + 1)) (fun n => ofReal (c n)) k +
        dft (ζ (levels + 1)) (2 ^ (levels + 1)) (fun n => ofReal (c n)) k := by
  rw [h.star_dft_mirror, ← dft_add, ← dft_add]
  refine dft_congr (fun n hn => ?_) k
  rw [← ofReal_add, ← ofReal_add]
  congr 1
  split_ifs with hzero
  · rw [hzero, foldWeight, if_pos (.inl rfl), mul_one]
  · have hsize : 2 ^ (levels + 1) = 2 * 2 ^ levels := pow_succ' 2 levels
    have hpos : 0 < n := Nat.pos_of_ne_zero hzero
    have hweight := foldWeight_add (K := K) hpos (hn.trans_eq hsize)
    rw [heven n hpos hn, ← mul_add, hsize, hweight, mul_two]

end TrigRoots

end Roots

/-! ### The real functions -/

/-- The exponential function of a complex number. -/
noncomputable def cexp (z : Cplx ℝ) : Cplx ℝ :=
  ⟨Real.exp z.re * Real.cos z.im, Real.exp z.re * Real.sin z.im⟩

/-- The real ones. -/
noncomputable def realCepstrum : CepstrumMath ℝ where
  trig := realTrig
  pow10 x := 10 ^ x
  log := Real.log
  exp := cexp

theorem toComplex_cexp (z : Cplx ℝ) : toComplex (cexp z) = Complex.exp (toComplex z) := by
  apply Complex.ext
  · rw [Complex.exp_re]
    rfl
  · rw [Complex.exp_im]
    rfl

theorem cexp_star (z : Cplx ℝ) : cexp (star z) = star (cexp z) := by
  ext
  · simp [cexp]
  · simp [cexp]

theorem abs_toComplex_cexp (z : Cplx ℝ) : ‖toComplex (cexp z)‖ = Real.exp z.re := by
  rw [toComplex_cexp, Complex.norm_exp]
  rfl

/-! ### All of it -/

/-- With a grid of a size that is taken, the spectrum is the exponential of the transform of the
folded cepstrum. -/
theorem minimumPhaseFromMagnitude_eq {A : List ℝ} {levels : ℕ} (hsize : A.length = 2 ^ (levels + 2))
    (floorDb : ℝ) :
    let logarithm : ℕ → Cplx ℝ := fun k => ofReal (Real.log (max (A.getD k 0) (10 ^ (floorDb / 20))))
    let cepstrum : ℕ → ℝ := fun k => (fftInverse realTrig (2 ^ (levels + 2)) logarithm k).re
    minimumPhaseFromMagnitude realCepstrum A floorDb =
      .ok ⟨(List.range (2 ^ (levels + 2))).map fun k => cexp (fftForward realTrig (2 ^ (levels + 2))
        (fun n => ofReal (cepstrum n * foldWeight (2 ^ (levels + 1)) n)) k)⟩ := by
  have hfour : ¬ 2 ^ (levels + 2) < 4 := by
    have := Nat.two_pow_pos levels
    rw [pow_succ, pow_succ]
    omega
  have hhalf : 2 ^ (levels + 2) / 2 = 2 ^ (levels + 1) := Fft.two_pow_half _
  obtain ⟨fft, hmake⟩ : ∃ fft, FftTables.make realTrig (2 ^ (levels + 2)) = .ok fft :=
    ⟨_, FftTables.make_eq_ok.mpr ⟨levels + 1, rfl, rfl⟩⟩
  rw [minimumPhaseFromMagnitude, hsize]
  simp only [hfour, decide_false, isPowerOfTwo_two_pow, Bool.not_true, Bool.or_self,
    Bool.false_eq_true, if_false]
  rw [show realCepstrum.trig = realTrig from rfl, hmake]
  simp only [Except.bind, bind, FftTables.inverse_eq hmake, FftTables.forward_eq hmake, hhalf]
  rfl

/-- **Headline.** The magnitude of the spectrum is the one that was given, but for the floor; the
spectrum is conjugate symmetric; and it is the exponential of a spectrum whose inverse transform is
real and is zero in its second half. -/
theorem minimumPhaseFromMagnitude_spec (levels : ℕ) (A : List ℝ) (floorDb : ℝ)
    (hsize : A.length = 2 ^ (levels + 2))
    (heven : ∀ k, 0 < k → k < 2 ^ (levels + 2) → A.getD (2 ^ (levels + 2) - k) 0 = A.getD k 0) :
    ∃ H L : ℕ → Cplx ℝ,
      minimumPhaseFromMagnitude realCepstrum A floorDb =
        .ok ⟨(List.range (2 ^ (levels + 2))).map H⟩ ∧
      (∀ k < 2 ^ (levels + 2), ‖toComplex (H k)‖ = max (A.getD k 0) (10 ^ (floorDb / 20))) ∧
      (∀ k, 0 < k → k < 2 ^ (levels + 2) → H (2 ^ (levels + 2) - k) = star (H k)) ∧
      (∀ k < 2 ^ (levels + 2), toComplex (H k) = Complex.exp (toComplex (L k))) ∧
      ∃ c : ℕ → ℝ, (∀ n, 2 ^ (levels + 1) < n → c n = 0) ∧
        ∀ n < 2 ^ (levels + 2), (c n : ℂ) = 1 / (2 ^ (levels + 2) : ℕ) *
          ∑ k ∈ Finset.range (2 ^ (levels + 2)), toComplex (L k) *
            Complex.exp (2 * Real.pi * Complex.I * (k * n : ℕ) / (2 ^ (levels + 2) : ℕ)) := by
  have h := trigRoots_real
  set floored : ℕ → ℝ := fun k => max (A.getD k 0) (10 ^ (floorDb / 20)) with hfloored
  set logarithm : ℕ → Cplx ℝ := fun k => ofReal (Real.log (floored k)) with hlogarithm
  set cepstrum : ℕ → ℝ := fun k => (fftInverse realTrig (2 ^ (levels + 2)) logarithm k).re
    with hcepstrum
  set folded : ℕ → ℝ := fun n => cepstrum n * foldWeight (2 ^ (levels + 1)) n with hfolded
  set L : ℕ → Cplx ℝ := fun k => fftForward realTrig (2 ^ (levels + 2)) (fun n => ofReal (folded n)) k
    with hL
  have hpos : ∀ k, 0 < floored k := fun k =>
    lt_max_of_lt_right (Real.rpow_pos_of_pos (by norm_num) _)
  have hlog : ∀ n, 0 < n → n < 2 ^ (levels + 2) →
      Real.log (floored (2 ^ (levels + 2) - n)) = Real.log (floored n) := by
    intro n hn hlt
    simp only [hfloored]
    rw [heven n hn hlt]
  have hLdft : ∀ k < 2 ^ (levels + 2),
      L k = dft (realRoot (levels + 2)) (2 ^ (levels + 2)) (fun n => ofReal (folded n)) k :=
    fun k hk => h.fftForward_apply hk _
  -- the cepstrum is real and even, so the fold keeps the real part of its transform
  have hcepstrum_even : ∀ n, 0 < n → n < 2 ^ (levels + 2) →
      cepstrum (2 ^ (levels + 2) - n) = cepstrum n := by
    intro n hn hlt
    exact congrArg QuadraticAlgebra.re (h.fftInverse_mirror hlt (by omega) (by omega) hlog)
  have hcepstrum_dft : ∀ k < 2 ^ (levels + 2),
      dft (realRoot (levels + 2)) (2 ^ (levels + 2)) (fun n => ofReal (cepstrum n)) k =
        logarithm k := by
    intro k hk
    rw [← h.dft_fftInverse hk logarithm]
    exact dft_congr (fun n hn => (h.fftInverse_even hn hlog).symm) k
  have hre : ∀ k < 2 ^ (levels + 2), (L k).re = Real.log (floored k) := by
    intro k hk
    have hfold := congrArg QuadraticAlgebra.re (h.dft_fold (levels + 1) hcepstrum_even k)
    rw [← hLdft k hk, hcepstrum_dft k hk, QuadraticAlgebra.re_add, QuadraticAlgebra.re_add,
      QuadraticAlgebra.re_star] at hfold
    have hself : (L k).re + (L k).re = Real.log (floored k) + Real.log (floored k) := by
      simpa [hlogarithm, ofReal] using hfold
    linarith
  refine ⟨fun k => cexp (L k), L, minimumPhaseFromMagnitude_eq hsize floorDb, fun k hk => ?_,
    fun k hk hlt => ?_, fun k _ => toComplex_cexp (L k), folded, fun n hn => ?_, fun n hn => ?_⟩
  · rw [abs_toComplex_cexp, hre k hk, Real.exp_log (hpos k)]
  · have hmirror : L (2 ^ (levels + 2) - k) = star (L k) := by
      rw [hLdft _ (by omega), hLdft k hlt, h.star_dft (Nat.add_sub_cancel' hlt.le)]
    rw [← cexp_star, ← hmirror]
  · simp only [hfolded]
    rw [foldWeight_of_lt hn, mul_zero]
  · have hback : fftInverse realTrig (2 ^ (levels + 2)) L n = ofReal (folded n) :=
      h.fftInverse_apply hn hLdft
    rw [← toComplex_ofReal, ← hback, h.fftInverse_eq_dft hn, toComplex_smul, toComplex_dft_star]
    push_cast
    rfl

/-- Four bins, of which the Nyquist one is raised to the floor. -/
theorem minimumPhaseFromMagnitude_spec_fourBins : ∃ H : ℕ → Cplx ℝ,
    minimumPhaseFromMagnitude realCepstrum [2, 1, 0, 1] kMinPhaseFloorDb =
        .ok ⟨(List.range 4).map H⟩ ∧
      ‖toComplex (H 0)‖ = 2 ∧ ‖toComplex (H 2)‖ = 10 ^ (-6 : ℝ) ∧ H 3 = star (H 1) := by
  have heven : ∀ k, 0 < k → k < 2 ^ (0 + 2) →
      ([2, 1, 0, 1] : List ℝ).getD (2 ^ (0 + 2) - k) 0 = ([2, 1, 0, 1] : List ℝ).getD k 0 := by
    intro k hk hlt
    obtain rfl | rfl | rfl : k = 1 ∨ k = 2 ∨ k = 3 := by omega
    · rfl
    · rfl
    · rfl
  obtain ⟨H, L, hH, habs, hstar, -⟩ := minimumPhaseFromMagnitude_spec 0 [2, 1, 0, 1]
    kMinPhaseFloorDb rfl heven
  have hfloor : (kMinPhaseFloorDb : ℝ) / 20 = -6 := by
    rw [kMinPhaseFloorDb]
    norm_num
  have hpos : (0 : ℝ) < 10 ^ (-6 : ℝ) := Real.rpow_pos_of_pos (by norm_num) _
  have hsmall : (10 : ℝ) ^ (-6 : ℝ) ≤ 1 :=
    Real.rpow_le_one_of_one_le_of_nonpos (by norm_num) (by norm_num)
  rw [hfloor] at habs
  refine ⟨H, hH, ?_, ?_, hstar 1 (by norm_num) (by norm_num)⟩
  · rw [habs 0 (by norm_num)]
    exact max_eq_left (hsmall.trans (by norm_num))
  · rw [habs 2 (by norm_num)]
    exact max_eq_right hpos.le

end Dsp

end RtaTool
