import RtaTool.Dsp.FftSpectrum

/-!
# The real inverse as a sum over the half spectrum

A bin between the two ends of a half spectrum stands for two of the whole one, that are conjugate.
So a sample of the inverse transform is the sum of the real parts of the turned bins, those between
the ends counted twice, over the size.

## Main definitions

* `turned` -- the real part of a bin that is turned
* `halfWeight` -- how often a bin of a half spectrum counts
* `trigInterpolation` -- the trigonometric polynomial with given real bins

## Main results

* `realFftInverse_eq_sum` -- **Headline.** The inverse as a sum over the half spectrum
* `abs_realFftInverse_le` -- how large a sample can be
-/

namespace RtaTool

namespace Dsp

open Fft

/-! ### Sums over a turn -/

/-- A sum over a turn of twice `m` places, by the ends and the pairs between them. -/
theorem sum_range_two_mul_pairs {M : Type*} [AddCommMonoid M] {m : ℕ} (hm : 0 < m) (f : ℕ → M) :
    ∑ k ∈ Finset.range (2 * m), f k =
      f 0 + f m + ∑ k ∈ Finset.Ico 1 m, (f k + f (2 * m - k)) := by
  have hreflect : ∑ k ∈ Finset.Ico (m + 1) (2 * m), f k =
      ∑ k ∈ Finset.Ico 1 m, f (2 * m - k) := by
    have h := Finset.sum_Ico_reflect (fun k => f k) 1 (n := 2 * m) (m := m) (by omega)
    have hleft : 2 * m + 1 - m = m + 1 := by omega
    have hright : 2 * m + 1 - 1 = 2 * m := by omega
    rw [hleft, hright] at h
    exact h.symm
  rw [Finset.sum_add_distrib, ← hreflect, Finset.range_eq_Ico,
    ← Finset.sum_Ico_consecutive f (Nat.zero_le 1) (by omega : 1 ≤ 2 * m),
    ← Finset.sum_Ico_consecutive f (by omega : 1 ≤ m) (by omega : m ≤ 2 * m),
    ← Finset.sum_Ico_consecutive f (by omega : m ≤ m + 1) (by omega : m + 1 ≤ 2 * m),
    Nat.Ico_succ_singleton, Nat.Ico_succ_singleton, Finset.sum_singleton, Finset.sum_singleton]
  abel

/-! ### The inverse -/

/-- The real part of a bin turned by an angle. -/
noncomputable def turned (z : Cplx ℝ) (angle : ℝ) : ℝ :=
  z.re * Real.cos angle - z.im * Real.sin angle

/-- A bin of a half spectrum of `m + 1` bins counts twice between the ends. -/
noncomputable def halfWeight (m k : ℕ) : ℝ := if k = 0 ∨ k = m then 1 else 2

theorem toComplex_mul_exp_re (z : Cplx ℝ) (angle : ℝ) :
    (toComplex z * Complex.exp (angle * Complex.I)).re = turned z angle := by
  rw [Complex.mul_re, Complex.exp_ofReal_mul_I_re, Complex.exp_ofReal_mul_I_im]
  rfl

theorem exp_turn (k p : ℕ) (n : ℝ) :
    Complex.exp (2 * Real.pi * Complex.I * (k * p : ℕ) / n) =
      Complex.exp ((2 * Real.pi * k * p / n : ℝ) * Complex.I) := by
  congr 1
  push_cast
  ring

variable {levels p : ℕ}

section

variable (hp : p < 2 ^ (levels + 1)) (spectrum : ℕ → Cplx ℝ)

include hp

/-- **Headline.** A sample of the inverse, as a sum over the half spectrum. -/
theorem realFftInverse_eq_sum :
    realFftInverse realTrig (2 ^ (levels + 1)) spectrum p =
      1 / (2 ^ (levels + 1) : ℕ) * ((spectrum 0).re +
        (spectrum (2 ^ levels)).re * Real.cos (Real.pi * p) +
        2 * ∑ k ∈ Finset.Ico 1 (2 ^ levels),
          turned (spectrum k) (2 * Real.pi * k * p / (2 ^ (levels + 1) : ℕ))) := by
  set m := 2 ^ levels with hm
  have hsize : 2 ^ (levels + 1) = 2 * m := pow_succ' 2 levels
  have hpos : 0 < m := Nat.two_pow_pos levels
  have hn : ((2 * m : ℕ) : ℝ) ≠ 0 := by
    rw [Nat.cast_ne_zero]
    omega
  have hre : ∀ k, (toComplex (hermitian m spectrum k) *
      Complex.exp (2 * Real.pi * Complex.I * (k * p : ℕ) / (2 ^ (levels + 1) : ℕ))).re =
      turned (hermitian m spectrum k) (2 * Real.pi * k * p / (2 ^ (levels + 1) : ℕ)) := by
    intro k
    have hturn := exp_turn k p ((2 ^ (levels + 1) : ℕ) : ℝ)
    push_cast at hturn ⊢
    rw [hturn, ← toComplex_mul_exp_re]
    push_cast
    rfl
  have hsum := congrArg (fun z => (toComplex z).re)
    (trigRoots_real.realFftInverse_hermitian hp spectrum)
  rw [toComplex_smul, toComplex_dft_star, Complex.re_ofReal_mul, Complex.re_sum,
    Finset.sum_congr rfl fun k _ => hre k, hsize, sum_range_two_mul_pairs hpos] at hsum
  rw [hsize]
  have hpair : ∀ k ∈ Finset.Ico 1 m,
      turned (hermitian m spectrum k) (2 * Real.pi * k * p / (2 * m : ℕ)) +
        turned (hermitian m spectrum (2 * m - k))
          (2 * Real.pi * (2 * m - k : ℕ) * p / (2 * m : ℕ)) =
      2 * turned (spectrum k) (2 * Real.pi * k * p / (2 * m : ℕ)) := by
    intro k hk
    obtain ⟨hone, hlt⟩ := Finset.mem_Ico.mp hk
    have hangle : 2 * Real.pi * ((2 * m - k : ℕ) : ℝ) * p / (2 * m : ℕ) =
        p * (2 * Real.pi) - 2 * Real.pi * k * p / (2 * m : ℕ) := by
      rw [Nat.cast_sub (by omega : k ≤ 2 * m)]
      field_simp
    rw [← star_hermitian hone (by omega), hermitian_of_lt hone hlt, hangle, turned, turned,
      QuadraticAlgebra.re_star, QuadraticAlgebra.im_star, Real.cos_nat_mul_two_pi_sub,
      Real.sin_nat_mul_two_pi_sub]
    ring
  have hzero : turned (hermitian m spectrum 0) (2 * Real.pi * (0 : ℕ) * p / (2 * m : ℕ)) =
      (spectrum 0).re := by
    rw [hermitian_zero, turned]
    simp [ofReal]
  have hnyquist : turned (hermitian m spectrum m) (2 * Real.pi * m * p / (2 * m : ℕ)) =
      (spectrum m).re * Real.cos (Real.pi * p) := by
    have hangle : 2 * Real.pi * m * p / ((2 * m : ℕ) : ℝ) = Real.pi * p := by
      rw [div_eq_iff hn]
      push_cast
      ring
    rw [hermitian_self hpos, turned, hangle]
    simp [ofReal]
  rw [Finset.sum_congr rfl hpair, hzero, hnyquist, ← Finset.mul_sum] at hsum
  exact hsum

omit hp in
theorem hermitian_eq_dft {k : ℕ} (hk : k < 2 ^ (levels + 1)) (spectrum : ℕ → Cplx ℝ) :
    hermitian (2 ^ levels) spectrum k = dft (realRoot (levels + 1)) (2 ^ (levels + 1))
      (fun n => ofReal (realFftInverse realTrig (2 ^ (levels + 1)) spectrum n)) k := by
  have h := trigRoots_real
  have hunit : ∀ s, star (realRoot s) * realRoot s = 1 := fun s => by rw [mul_comm, h.unit]
  rw [dft_congr (fun n hn => h.realFftInverse_hermitian hn spectrum), dft_smul,
    dft_inverse (starTower h.tower) h.tower hunit _ hk,
    TrigRoots.one_div_two_pow_smul]

/-! ### How large it is -/

omit hp in
theorem abs_turned_le (z : Cplx ℝ) (angle : ℝ) : |turned z angle| ≤ ‖toComplex z‖ := by
  rw [← toComplex_mul_exp_re]
  refine (Complex.abs_re_le_norm _).trans_eq ?_
  rw [norm_mul, Complex.norm_exp_ofReal_mul_I, mul_one]

omit hp in
theorem sum_halfWeight {m : ℕ} (hm : 0 < m) (f : ℕ → ℝ) :
    ∑ k ∈ Finset.range (m + 1), halfWeight m k * f k =
      f 0 + f m + 2 * ∑ k ∈ Finset.Ico 1 m, f k := by
  have hinterior : ∑ k ∈ Finset.Ico 1 m, halfWeight m k * f k =
      2 * ∑ k ∈ Finset.Ico 1 m, f k := by
    rw [Finset.mul_sum]
    refine Finset.sum_congr rfl fun k hk => ?_
    obtain ⟨hone, hlt⟩ := Finset.mem_Ico.mp hk
    rw [halfWeight, if_neg (by omega)]
  rw [Finset.sum_range_succ, Finset.range_eq_Ico,
    ← Finset.sum_Ico_consecutive _ (Nat.zero_le 1) hm, hinterior, Nat.Ico_succ_singleton,
    Finset.sum_singleton, halfWeight, halfWeight, if_pos (.inl rfl), if_pos (.inr rfl), one_mul,
    one_mul]
  ring

theorem realFftInverse_eq_sum_halfWeight :
    realFftInverse realTrig (2 ^ (levels + 1)) spectrum p =
      1 / (2 ^ (levels + 1) : ℕ) * ∑ k ∈ Finset.range (2 ^ levels + 1), halfWeight (2 ^ levels) k *
        turned (spectrum k) (2 * Real.pi * k * p / (2 ^ (levels + 1) : ℕ)) := by
  have hzero : turned (spectrum 0) (2 * Real.pi * (0 : ℕ) * p / (2 ^ (levels + 1) : ℕ)) =
      (spectrum 0).re := by
    simp [turned]
  have hangle : 2 * Real.pi * (2 ^ levels : ℕ) * p / (2 ^ (levels + 1) : ℕ) = p * Real.pi := by
    push_cast
    rw [pow_succ]
    field_simp
  have hnyquist : turned (spectrum (2 ^ levels))
      (2 * Real.pi * (2 ^ levels : ℕ) * p / (2 ^ (levels + 1) : ℕ)) =
      (spectrum (2 ^ levels)).re * Real.cos (Real.pi * p) := by
    rw [hangle, turned, Real.sin_nat_mul_pi, mul_zero, sub_zero, mul_comm Real.pi]
  rw [realFftInverse_eq_sum hp, sum_halfWeight (Nat.two_pow_pos levels), hzero, hnyquist]

/-- A sample of the inverse is at most what its bins add up to. -/
theorem abs_realFftInverse_le :
    |realFftInverse realTrig (2 ^ (levels + 1)) spectrum p| ≤
      1 / (2 ^ (levels + 1) : ℕ) * ∑ k ∈ Finset.range (2 ^ levels + 1),
        halfWeight (2 ^ levels) k * ‖toComplex (spectrum k)‖ := by
  have hre : ∀ k, |(spectrum k).re| ≤ ‖toComplex (spectrum k)‖ := fun k =>
    Complex.abs_re_le_norm (toComplex (spectrum k))
  have hnyquist : |(spectrum (2 ^ levels)).re * Real.cos (Real.pi * p)| ≤
      ‖toComplex (spectrum (2 ^ levels))‖ := by
    rw [abs_mul]
    exact (mul_le_of_le_one_right (abs_nonneg _) (Real.abs_cos_le_one _)).trans (hre _)
  have hinterior : |∑ k ∈ Finset.Ico 1 (2 ^ levels),
      turned (spectrum k) (2 * Real.pi * k * p / (2 ^ (levels + 1) : ℕ))| ≤
      ∑ k ∈ Finset.Ico 1 (2 ^ levels), ‖toComplex (spectrum k)‖ :=
    (Finset.abs_sum_le_sum_abs _ _).trans (Finset.sum_le_sum fun k _ => abs_turned_le _ _)
  have hsize : (0 : ℝ) ≤ 1 / (2 ^ (levels + 1) : ℕ) := by positivity
  rw [realFftInverse_eq_sum hp, abs_mul, abs_of_nonneg hsize,
    sum_halfWeight (Nat.two_pow_pos levels)]
  refine mul_le_mul_of_nonneg_left ?_ hsize
  refine (abs_add_le _ _).trans (add_le_add ((abs_add_le _ _).trans ?_) ?_)
  · exact add_le_add (hre 0) hnyquist
  · rw [abs_mul, abs_two]
    exact mul_le_mul_of_nonneg_left hinterior zero_le_two

end

/-! ### Trigonometric interpolation -/

/-- The trigonometric polynomial whose bins, up to the Nyquist one, are real and given. -/
noncomputable def trigInterpolation (m : ℕ) (A : ℕ → ℝ) (t : ℝ) : ℝ :=
  1 / (2 * m : ℕ) * (A 0 + A m * Real.cos (Real.pi * t) +
    2 * ∑ k ∈ Finset.Ico 1 m, A k * Real.cos (2 * Real.pi * k * t / (2 * m : ℕ)))

theorem trigInterpolation_neg (m : ℕ) (A : ℕ → ℝ) (t : ℝ) :
    trigInterpolation m A (-t) = trigInterpolation m A t := by
  have hinterior : ∀ k : ℕ, 2 * Real.pi * k * -t / (2 * m : ℕ) =
      -(2 * Real.pi * k * t / (2 * m : ℕ)) := fun k => by ring
  simp only [trigInterpolation, mul_neg Real.pi, Real.cos_neg, hinterior]

/-- It comes back after a turn. -/
theorem trigInterpolation_add_turn {m : ℕ} (hm : 0 < m) (A : ℕ → ℝ) (t : ℝ) :
    trigInterpolation m A (t + (2 * m : ℕ)) = trigInterpolation m A t := by
  have hn : ((2 * m : ℕ) : ℝ) ≠ 0 := by
    rw [Nat.cast_ne_zero]
    omega
  have hnyquist : Real.pi * (t + (2 * m : ℕ)) = Real.pi * t + m * (2 * Real.pi) := by
    push_cast
    ring
  have hinterior : ∀ k : ℕ, 2 * Real.pi * k * (t + (2 * m : ℕ)) / (2 * m : ℕ) =
      2 * Real.pi * k * t / (2 * m : ℕ) + k * (2 * Real.pi) := by
    intro k
    field_simp
  simp only [trigInterpolation, hnyquist, hinterior, Real.cos_add_nat_mul_two_pi]

theorem realFftInverse_ofReal (hp : p < 2 ^ (levels + 1)) (A : ℕ → ℝ) :
    realFftInverse realTrig (2 ^ (levels + 1)) (fun k => ofReal (A k)) p =
      trigInterpolation (2 ^ levels) A p := by
  have hturned : ∀ k : ℕ, ∀ angle, turned (ofReal (A k)) angle = A k * Real.cos angle := by
    intro k angle
    simp [turned, ofReal]
  rw [realFftInverse_eq_sum hp, trigInterpolation, pow_succ' 2 levels]
  simp only [hturned]
  rfl

end Dsp

end RtaTool
