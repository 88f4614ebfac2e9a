import RtaTool.Dsp.FftTables

/-!
# Spectra in the complex numbers

What the transforms compute with the real cosine and sine, as sums over the exponential function.
The half spectrum that an inverse is given stands for its Hermitian extension, whose two real bins
have no imaginary part.

## Main definitions

* `hermitian` -- the spectrum of which the bins up to the Nyquist one are given
* `toComplex` -- the pairs as complex numbers

## Main results

* `TrigRoots.realFftInverse_hermitian` -- the real inverse is that of the Hermitian extension
* `toComplex_dft` -- the transform as a sum of exponentials
* `fft_exact`, `realFft_exact` -- the transforms and their inverses
-/

namespace RtaTool

namespace Dsp

open Fft

/-! ### Hermitian spectra -/

section Hermitian

variable {K : Type*} [Field K] {trig : Trig K} {ζ : ℕ → Cplx K}

/-- The spectrum of twice `m` bins whose first `m + 1` are `spectrum`, the end ones taken real. -/
def hermitian (m : ℕ) (spectrum : ℕ → Cplx K) (k : ℕ) : Cplx K :=
  if k = 0 then ofReal (spectrum 0).re
  else if k < m then spectrum k
  else if k = m then ofReal (spectrum m).re
  else star (spectrum (2 * m - k))

theorem hermitian_zero (m : ℕ) (spectrum : ℕ → Cplx K) :
    hermitian m spectrum 0 = ofReal (spectrum 0).re := if_pos rfl

theorem hermitian_of_lt {m k : ℕ} (hpos : 0 < k) (hk : k < m) (spectrum : ℕ → Cplx K) :
    hermitian m spectrum k = spectrum k := by
  rw [hermitian, if_neg hpos.ne', if_pos hk]

theorem hermitian_self {m : ℕ} (hm : 0 < m) (spectrum : ℕ → Cplx K) :
    hermitian m spectrum m = ofReal (spectrum m).re := by
  rw [hermitian, if_neg hm.ne', if_neg (lt_irrefl m), if_pos rfl]

/-- A bin and its mirror image are conjugate. -/
theorem star_hermitian {m k : ℕ} (hpos : 0 < k) (hk : k < 2 * m) (spectrum : ℕ → Cplx K) :
    star (hermitian m spectrum k) = hermitian m spectrum (2 * m - k) := by
  obtain hlt | rfl | hgt := Nat.lt_trichotomy k m
  · have hback : 2 * m - (2 * m - k) = k := by omega
    rw [hermitian_of_lt hpos hlt, hermitian, if_neg (by omega), if_neg (by omega),
      if_neg (by omega), hback]
  · have hself : 2 * k - k = k := by omega
    rw [hself, hermitian_self hpos, star_ofReal]
  · rw [hermitian, if_neg (by omega), if_neg (by omega), if_neg (by omega), star_star,
      hermitian_of_lt (by omega) (by omega)]

theorem sum_range_mirror {M : Type*} [AddCommMonoid M] {n : ℕ} (hn : 0 < n) (f : ℕ → M) :
    ∑ k ∈ Finset.range n, f k = ∑ k ∈ Finset.range n, if k = 0 then f 0 else f (n - k) := by
  obtain ⟨n, rfl⟩ := Nat.exists_eq_add_of_le' hn
  rw [Finset.sum_range_succ', Finset.sum_range_succ', ← Finset.sum_range_reflect]
  congr 1
  refine Finset.sum_congr rfl fun j hj => ?_
  have hj := Finset.mem_range.mp hj
  rw [if_neg (Nat.succ_ne_zero j)]
  congr 1
  omega

theorem dft_smul (ω : Cplx K) (n : ℕ) (a : K) (x : ℕ → Cplx K) (k : ℕ) :
    dft ω n (fun j => a • x j) k = a • dft ω n x k := by
  rw [dft, dft, Finset.smul_sum]
  exact Finset.sum_congr rfl fun j _ => smul_mul_assoc ..

namespace TrigRoots

variable (h : TrigRoots trig ζ)
include h

theorem star_dft_hermitian (levels : ℕ) (spectrum : ℕ → Cplx K) (n : ℕ) :
    star (dft (star (ζ (levels + 1))) (2 ^ (levels + 1)) (hermitian (2 ^ levels) spectrum) n) =
      dft (star (ζ (levels + 1))) (2 ^ (levels + 1)) (hermitian (2 ^ levels) spectrum) n := by
  set w := ζ (levels + 1) with hw
  have hsize : 2 ^ (levels + 1) = 2 * 2 ^ levels := pow_succ' 2 levels
  have hunit : ∀ j, w ^ j * star w ^ j = 1 := fun j => by rw [← mul_pow, h.unit, one_pow]
  rw [dft, star_sum, sum_range_mirror (Nat.two_pow_pos _)]
  refine Finset.sum_congr rfl fun k hk => ?_
  have hk := Finset.mem_range.mp hk
  rw [star_mul', star_pow, star_star]
  split_ifs with hzero
  · rw [hzero, hermitian_zero, star_ofReal, Nat.zero_mul, pow_zero, pow_zero]
  · have hturn : w ^ ((2 ^ (levels + 1) - k) * n) * w ^ (k * n) = 1 := by
      rw [← pow_add, ← Nat.add_mul, Nat.sub_add_cancel hk.le, pow_mul, h.tower.pow_full, one_pow]
    have hback : 2 * 2 ^ levels - (2 * 2 ^ levels - k) = k := by omega
    rw [star_mul', star_pow, star_star, hsize, star_hermitian (by omega) (by omega), hback]
    rw [hsize] at hturn
    congr 1
    calc w ^ ((2 * 2 ^ levels - k) * n)
        = w ^ ((2 * 2 ^ levels - k) * n) * (w ^ (k * n) * star w ^ (k * n)) := by
          rw [hunit, mul_one]
      _ = w ^ ((2 * 2 ^ levels - k) * n) * w ^ (k * n) * star w ^ (k * n) := by ring
      _ = star w ^ (k * n) := by rw [hturn, one_mul]

/-- **Headline.** The real inverse of a half spectrum is that of its Hermitian extension. -/
theorem realFftInverse_hermitian [CharZero K] {levels p : ℕ} (hp : p < 2 ^ (levels + 1))
    (spectrum : ℕ → Cplx K) :
    ofReal (realFftInverse trig (2 ^ (levels + 1)) spectrum p) =
      (1 / ((2 ^ (levels + 1) : ℕ) : K)) •
        dft (star (ζ (levels + 1))) (2 ^ (levels + 1)) (hermitian (2 ^ levels) spectrum) p := by
  set full := hermitian (2 ^ levels) spectrum with hfull
  have hm : 2 ^ (levels + 1) / 2 = 2 ^ levels := Fft.two_pow_half _
  have hpos := Nat.two_pow_pos levels
  -- the inverse transform of the extension, a real signal whose spectrum it is
  let signal (n : ℕ) : K := ((1 / ((2 ^ (levels + 1) : ℕ) : K)) •
    dft (star (ζ (levels + 1))) (2 ^ (levels + 1)) full n).re
  have hsignal : ∀ n, ofReal (signal n) = (1 / ((2 ^ (levels + 1) : ℕ) : K)) •
      dft (star (ζ (levels + 1))) (2 ^ (levels + 1)) full n := by
    intro n
    refine ofReal_re ?_
    rw [QuadraticAlgebra.im_smul, im_eq_zero (h.star_dft_hermitian levels spectrum n), smul_zero]
  have hunit : ∀ s, star (ζ s) * ζ s = 1 := fun s => by rw [mul_comm, h.unit]
  have hspectrum : ∀ k ≤ 2 ^ levels, full k =
      dft (ζ (levels + 1)) (2 ^ (levels + 1)) (fun n => ofReal (signal n)) k := by
    intro k hk
    have hlt : k < 2 ^ (levels + 1) := by
      rw [pow_succ]
      omega
    rw [dft_congr (fun n _ => hsignal n), dft_smul,
      dft_inverse (starTower h.tower) h.tower hunit full hlt, one_div_two_pow_smul]
  rw [← hsignal, ← h.realFftInverse_apply hp hspectrum, realFftInverse, realFftInverse, hm]
  have hbelow : p / 2 < 2 ^ levels := by
    rw [pow_succ] at hp
    omega
  -- only the real parts of the end bins are read
  refine congrArg (fun z : Cplx K => ofReal (if p % 2 = 0 then z.re else z.im))
    (h.fftInverse_congr hbelow fun k hk => ?_)
  dsimp only
  split_ifs with hzero
  · rw [hfull, hermitian_zero, hermitian_self hpos]
    rfl
  · rw [hfull, hermitian_of_lt (by omega) hk, hermitian_of_lt (by omega) (by omega)]

end TrigRoots

end Hermitian

/-! ### Exponentials -/

/-- The pair as a complex number. -/
def toComplex : Cplx ℝ →+* ℂ where
  toFun z := ⟨z.re, z.im⟩
  map_zero' := rfl
  map_one' := by
    apply Complex.ext
    · simp [QuadraticAlgebra.re_one]
    · simp [QuadraticAlgebra.im_one]
  map_add' z w := by
    apply Complex.ext <;> simp
  map_mul' z w := by
    apply Complex.ext
    · simp
      ring
    · simp

theorem toComplex_ofReal (x : ℝ) : toComplex (ofReal x) = x := rfl

theorem toComplex_cis (angle : ℝ) :
    toComplex (cis realTrig angle) = Complex.exp (angle * Complex.I) := by
  apply Complex.ext
  · exact (Complex.exp_ofReal_mul_I_re angle).symm
  · exact (Complex.exp_ofReal_mul_I_im angle).symm

theorem toComplex_smul (a : ℝ) (z : Cplx ℝ) : toComplex (a • z) = a * toComplex z := by
  apply Complex.ext <;> simp [toComplex]

theorem toComplex_injective : Function.Injective toComplex := by
  intro z w h
  exact QuadraticAlgebra.ext (congrArg Complex.re h) (congrArg Complex.im h)

theorem toComplex_star (z : Cplx ℝ) : toComplex (star z) = (starRingEnd ℂ) (toComplex z) := by
  apply Complex.ext <;> simp [toComplex]

theorem toComplex_realRoot (s k : ℕ) :
    toComplex (realRoot s ^ k) = Complex.exp (-(2 * Real.pi * Complex.I * k) / (2 ^ s : ℕ)) := by
  rw [map_pow, realRoot, toComplex_cis, ← Complex.exp_nat_mul]
  congr 1
  push_cast
  ring

theorem toComplex_star_realRoot (s k : ℕ) :
    toComplex (star (realRoot s) ^ k) =
      Complex.exp (2 * Real.pi * Complex.I * k / (2 ^ s : ℕ)) := by
  have hinv : realRoot s ^ k * star (realRoot s) ^ k = 1 := by
    rw [← mul_pow, trigRoots_real.unit, one_pow]
  have hexp := congrArg toComplex hinv
  rw [map_mul, map_one, toComplex_realRoot, neg_div, Complex.exp_neg] at hexp
  have hne := Complex.exp_ne_zero (2 * Real.pi * Complex.I * k / (2 ^ s : ℕ))
  exact (inv_mul_eq_one₀ hne).mp hexp |>.symm

/-- The transform with the real roots is a sum of exponentials. -/
theorem toComplex_dft (levels : ℕ) (x : ℕ → Cplx ℝ) (k : ℕ) :
    toComplex (dft (realRoot levels) (2 ^ levels) x k) =
      ∑ n ∈ Finset.range (2 ^ levels), toComplex (x n) *
        Complex.exp (-(2 * Real.pi * Complex.I * (k * n : ℕ)) / (2 ^ levels : ℕ)) := by
  rw [dft, map_sum]
  refine Finset.sum_congr rfl fun n _ => ?_
  rw [map_mul, toComplex_realRoot, Nat.mul_comm]

theorem toComplex_dft_star (levels : ℕ) (x : ℕ → Cplx ℝ) (n : ℕ) :
    toComplex (dft (star (realRoot levels)) (2 ^ levels) x n) =
      ∑ k ∈ Finset.range (2 ^ levels), toComplex (x k) *
        Complex.exp (2 * Real.pi * Complex.I * (k * n : ℕ) / (2 ^ levels : ℕ)) := by
  rw [dft, map_sum]
  refine Finset.sum_congr rfl fun k _ => ?_
  rw [map_mul, toComplex_star_realRoot]

/-! ### The transforms -/

/-- **Headline.** The complex transform, of every size that it takes: `forward` gives the sums of
exponentials, and `inverse` gives the samples back. -/
theorem fft_exact :
    (∀ size, (∃ fft, FftTables.make realTrig size = .ok fft) ↔ ∃ levels, size = 2 ^ (levels + 1)) ∧
    ∀ size fft, FftTables.make realTrig size = .ok fft → ∀ x : ℕ → Cplx ℝ,
      ∃ spectrum back, fft.forward size x = .ok spectrum ∧ fft.inverse size spectrum = .ok back ∧
        (∀ k < size, toComplex (spectrum k) = ∑ n ∈ Finset.range size, toComplex (x n) *
          Complex.exp (-(2 * Real.pi * Complex.I * (k * n : ℕ)) / size)) ∧
        ∀ n < size, back n = x n := by
  refine ⟨fun size => ?_, fun size fft hmake x => ?_⟩
  · constructor
    · rintro ⟨fft, hmake⟩
      obtain ⟨levels, hsize, _⟩ := FftTables.make_eq_ok.mp hmake
      exact ⟨levels, hsize⟩
    · rintro ⟨levels, hsize⟩
      exact ⟨_, FftTables.make_eq_ok.mpr ⟨levels, hsize, rfl⟩⟩
  · obtain ⟨levels, rfl, _⟩ := FftTables.make_eq_ok.mp hmake
    have h := trigRoots_real
    refine ⟨_, _, FftTables.forward_eq hmake x, FftTables.inverse_eq hmake _, fun k hk => ?_,
      fun n hn => ?_⟩
    · rw [h.fftForward_apply hk, toComplex_dft]
    · exact h.fftInverse_apply hn fun k hk => h.fftForward_apply hk x

/-- **Headline.** The real transform, of every size that it takes: `forward` gives the bins up to
the Nyquist one by a complex transform of half the size, `inverse` gives the samples back, and of
any half spectrum the inverse transform of its Hermitian extension. -/
theorem realFft_exact :
    (∀ size, (∃ fft, RealFftTables.make realTrig size = .ok fft) ↔
      ∃ levels, size = 2 ^ (levels + 2)) ∧
    ∀ size fft, RealFftTables.make realTrig size = .ok fft →
      fft.half.size = size / 2 ∧
      (∀ x : ℕ → ℝ, ∃ spectrum back, fft.forward size x (size / 2 + 1) = .ok spectrum ∧
        fft.inverse (size / 2 + 1) spectrum size = .ok back ∧
        (∀ k ≤ size / 2, toComplex (spectrum k) = ∑ n ∈ Finset.range size, (x n : ℂ) *
          Complex.exp (-(2 * Real.pi * Complex.I * (k * n : ℕ)) / size)) ∧
        ∀ n < size, back n = x n) ∧
      ∀ spectrum : ℕ → Cplx ℝ, ∃ samples,
        fft.inverse (size / 2 + 1) spectrum size = .ok samples ∧
        ∀ n < size, (samples n : ℂ) = 1 / size *
          ∑ k ∈ Finset.range size, toComplex (hermitian (size / 2) spectrum k) *
            Complex.exp (2 * Real.pi * Complex.I * (k * n : ℕ) / size) := by
  refine ⟨fun size => ?_, fun size fft hmake => ?_⟩
  · constructor
    · rintro ⟨fft, hmake⟩
      obtain ⟨levels, _, hsize, _⟩ := RealFftTables.make_eq_ok.mp hmake
      exact ⟨levels, hsize⟩
    · rintro ⟨levels, hsize⟩
      have hhalf := (@FftTables.make_eq_ok ℝ _ realTrig _ _).mpr ⟨levels, rfl, rfl⟩
      exact ⟨_, RealFftTables.make_eq_ok.mpr ⟨levels, _, hsize, hhalf, rfl⟩⟩
  · obtain ⟨levels, half, rfl, hhalf, hfft⟩ := RealFftTables.make_eq_ok.mp hmake
    have h := trigRoots_real
    have hm : 2 ^ (levels + 2) / 2 = 2 ^ (levels + 1) := Fft.two_pow_half _
    refine ⟨?_, fun x => ?_, fun spectrum => ?_⟩
    · obtain ⟨_, _, hsize⟩ := FftTables.make_eq_ok.mp hhalf
      rw [hfft, hsize, hm]
    · obtain ⟨spectrum, hforward, hbins⟩ := RealFftTables.forward_eq hmake x
      obtain ⟨back, hinverse, hback⟩ := RealFftTables.inverse_eq h hmake spectrum
      rw [hm] at hbins
      have hdft : ∀ k ≤ 2 ^ (levels + 1), spectrum k =
          dft (realRoot (levels + 2)) (2 ^ (levels + 2)) (fun n => ofReal (x n)) k := fun k hk => by
        rw [hbins k hk, h.realFftForward_apply hk]
      refine ⟨spectrum, back, hforward, hinverse, fun k hk => ?_, fun n hn => ?_⟩
      · rw [hdft k (hk.trans_eq hm), toComplex_dft]
        rfl
      · rw [hback n hn, h.realFftInverse_apply hn hdft]
    · obtain ⟨samples, hinverse, hsamples⟩ := RealFftTables.inverse_eq h hmake spectrum
      refine ⟨samples, hinverse, fun n hn => ?_⟩
      rw [hsamples n hn, ← toComplex_ofReal, h.realFftInverse_hermitian hn, toComplex_smul,
        toComplex_dft_star, hm]
      push_cast
      rfl

end Dsp

end RtaTool
