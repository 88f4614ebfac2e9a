import RtaTool.Lib.Fft
import RtaTool.Lib.Numerals
import Mathlib

/-!
# The real transform

`Fft` and `RealFft`. The complex transform is the radix-2 algorithm with twiddles read off a table;
the inverse is the same with conjugate twiddles, and the scale. The real one packs even and odd
samples into the two parts of half as many complex ones, and takes their spectra apart again.

Complex numbers are pairs over the field of the samples. An array is a function of its index; the
lengths that the source checks of its spans are those of its callers' arrays throughout.

## Main definitions

* `Cplx`, `Trig`, `cis`
* `fftForward`, `fftInverse`
* `realFftForward`, `realFftInverse`
* `TrigRoots` -- the twiddles are powers of roots of unity

## Main results

* `fftForward_apply`, `fftInverse_apply` -- the complex transform and its inverse
* `realFftForward_apply` -- the bins up to the Nyquist one
* `realFftInverse_apply` -- the real signal that has a given spectrum up to the Nyquist bin
-/

namespace RtaTool

namespace Dsp

open Fft

/-! ### Complex numbers -/

/-- `std::complex`. -/
abbrev Cplx (K : Type*) [CommRing K] := QuadraticAlgebra K (-1) 0

/-- `std::numbers::pi`, `std::cos` and `std::sin`. -/
structure Trig (K : Type*) where
  pi : K
  cos : K → K
  sin : K → K

/-- The real ones. -/
noncomputable def realTrig : Trig ℝ := { pi := Real.pi, cos := Real.cos, sin := Real.sin }

variable {K : Type*} [Field K]

/-- `{ cos(angle), sin(angle) }`. -/
def cis (trig : Trig K) (angle : K) : Cplx K := ⟨trig.cos angle, trig.sin angle⟩

/-- A real number as a complex one. -/
def ofReal (x : K) : Cplx K := ⟨x, 0⟩

/-- `timesI`. -/
def timesI (z : Cplx K) : Cplx K := ⟨-z.im, z.re⟩

/-- `overI`. -/
def overI (z : Cplx K) : Cplx K := ⟨z.im, -z.re⟩

/-! ### The complex transform -/

variable (trig : Trig K)

/-- Entry `j` of the table of the stage with butterflies of span `2 * half`. -/
def stageTwiddle (size half j : ℕ) : Cplx K :=
  cis trig (-(2 * trig.pi) * (j * (size / (2 * half)) : ℕ) / size)

/-- `Fft::transform`. -/
def fftTransform (size : ℕ) (conjugate : Bool) (data : ℕ → Cplx K) : ℕ → Cplx K :=
  transform
    (fun s j =>
      let w := stageTwiddle trig size (2 ^ s) j
      if conjugate then star w else w)
    size.log2 data

/-- `Fft::forward`. -/
def fftForward (size : ℕ) (data : ℕ → Cplx K) : ℕ → Cplx K := fftTransform trig size false data

/-- `Fft::inverse`. -/
def fftInverse (size : ℕ) (data : ℕ → Cplx K) : ℕ → Cplx K := fun i =>
  (1 / (size : K)) • fftTransform trig size true data i

/-! ### The real transform -/

/-- `unpack_[k]`. -/
def unpack (size k : ℕ) : Cplx K := cis trig (-(2 * trig.pi) * k / size)

/-- `RealFft::forward`, for `k <= size / 2`. -/
def realFftForward (size : ℕ) (input : ℕ → K) : ℕ → Cplx K := fun k =>
  let m := size / 2
  let scratch := fftForward trig m fun n => ⟨input (2 * n), input (2 * n + 1)⟩
  let zk := scratch (k % m)
  let zmk := scratch ((m - k) % m)
  let even := (1 / 2 : K) • (zk + star zmk)
  let odd := overI ((1 / 2 : K) • (zk - star zmk))
  even + unpack trig size k * odd

/-- `RealFft::inverse`, for a place below `size`. -/
def realFftInverse (size : ℕ) (spectrum : ℕ → Cplx K) : ℕ → K := fun p =>
  let m := size / 2
  let dc : Cplx K := ⟨(spectrum 0).re, 0⟩
  let nyquist : Cplx K := ⟨(spectrum m).re, 0⟩
  let scratch := fftInverse trig m fun k =>
    let xk := if k = 0 then dc else spectrum k
    let xmk := if k = 0 then nyquist else spectrum (m - k)
    let even := (1 / 2 : K) • (xk + star xmk)
    let odd := (1 / 2 : K) • (xk - star xmk) * star (unpack trig size k)
    even + timesI odd
  if p % 2 = 0 then (scratch (p / 2)).re else (scratch (p / 2)).im

/-! ### Roots of unity -/

/-- The twiddles are powers of roots of unity: `ζ s` is `cis` of the `2 ^ s`-th part of a turn
back. -/
structure TrigRoots (ζ : ℕ → Cplx K) : Prop where
  tower : RootTower ζ
  unit : ∀ s, ζ s * star (ζ s) = 1
  cis_eq : ∀ s j : ℕ, cis trig (-(2 * trig.pi) * j / (2 ^ s : ℕ)) = ζ s ^ j

variable {trig} {ζ : ℕ → Cplx K}

theorem starTower (h : RootTower ζ) : RootTower fun s => star (ζ s) where
  one := by rw [h.one, star_one]
  half := by rw [h.half, star_neg, star_one]
  square s := by rw [← star_pow, h.square]

namespace TrigRoots

variable (h : TrigRoots trig ζ)
include h

theorem stageTwiddle_eq {levels s : ℕ} (hs : s < levels) (j : ℕ) :
    stageTwiddle trig (2 ^ levels) (2 ^ s) j = ζ (s + 1) ^ j := by
  have hstep : 2 ^ levels / (2 * 2 ^ s) = 2 ^ (levels - (s + 1)) := by
    rw [← pow_succ', Nat.pow_div (by omega) Nat.two_pos]
  have hsum : s + 1 + (levels - (s + 1)) = levels := by omega
  rw [stageTwiddle, hstep, h.cis_eq, Nat.mul_comm, pow_mul]
  nth_rewrite 1 [← hsum]
  rw [h.tower.pow_tower]

theorem unpack_eq (levels k : ℕ) : unpack trig (2 ^ levels) k = ζ levels ^ k := h.cis_eq levels k

/-- The complex transform. -/
theorem fftForward_apply {levels k : ℕ} (hk : k < 2 ^ levels) (data : ℕ → Cplx K) :
    fftForward trig (2 ^ levels) data k = dft (ζ levels) (2 ^ levels) data k := by
  rw [fftForward, fftTransform, Nat.log2_two_pow]
  exact transform_apply h.tower (fun s hs j _ => h.stageTwiddle_eq hs j) data hk

/-- The inverse transform, as a sum over the conjugate roots. -/
theorem fftInverse_eq_dft {levels j : ℕ} (hj : j < 2 ^ levels) (data : ℕ → Cplx K) :
    fftInverse trig (2 ^ levels) data j =
      (1 / ((2 ^ levels : ℕ) : K)) • dft (star (ζ levels)) (2 ^ levels) data j := by
  have htables : ∀ s < levels, ∀ j < 2 ^ s,
      (if true = true then star (stageTwiddle trig (2 ^ levels) (2 ^ s) j)
        else stageTwiddle trig (2 ^ levels) (2 ^ s) j) = (star (ζ (s + 1))) ^ j := by
    intro s hs j _
    rw [if_pos rfl, h.stageTwiddle_eq hs, star_pow]
  rw [fftInverse, fftTransform, Nat.log2_two_pow,
    transform_apply (starTower h.tower) htables data hj]

theorem fftInverse_congr {levels j : ℕ} (hj : j < 2 ^ levels) {data data' : ℕ → Cplx K}
    (heq : ∀ k < 2 ^ levels, data k = data' k) :
    fftInverse trig (2 ^ levels) data j = fftInverse trig (2 ^ levels) data' j := by
  rw [h.fftInverse_eq_dft hj, h.fftInverse_eq_dft hj, dft_congr heq]

omit h in
theorem one_div_two_pow_smul [CharZero K] (levels : ℕ) (z : Cplx K) :
    (1 / ((2 ^ levels : ℕ) : K)) • ((2 : Cplx K) ^ levels * z) = z := by
  have hcast : (2 : Cplx K) ^ levels = QuadraticAlgebra.C ((2 : K) ^ levels) := by
    rw [QuadraticAlgebra.C_pow]
    rfl
  rw [hcast, QuadraticAlgebra.C_mul_eq_smul, smul_smul, Nat.cast_pow, Nat.cast_ofNat,
    one_div_mul_cancel (pow_ne_zero _ two_ne_zero), one_smul]

/-- The inverse transform gives back the samples of a spectrum. -/
theorem fftInverse_apply [CharZero K] {levels j : ℕ} (hj : j < 2 ^ levels)
    {data spectrum : ℕ → Cplx K}
    (hspectrum : ∀ k < 2 ^ levels, spectrum k = dft (ζ levels) (2 ^ levels) data k) :
    fftInverse trig (2 ^ levels) spectrum j = data j := by
  rw [h.fftInverse_eq_dft hj, dft_congr hspectrum,
    dft_inverse h.tower (starTower h.tower) h.unit data hj, one_div_two_pow_smul]

end TrigRoots

/-! ### Real signals -/

/-- The imaginary unit. -/
def imaginary : Cplx K := ⟨0, 1⟩

theorem timesI_eq (z : Cplx K) : timesI z = imaginary * z := by
  ext <;> simp [timesI, imaginary]

theorem overI_imaginary (z : Cplx K) : overI (imaginary * z) = z := by
  ext <;> simp [overI, imaginary]

theorem star_imaginary : star (imaginary : Cplx K) = -imaginary := by
  ext <;> simp [imaginary]

theorem star_ofReal (x : K) : star (ofReal x) = ofReal x := by
  ext <;> simp [ofReal]

theorem ofReal_re {z : Cplx K} (h : z.im = 0) : (⟨z.re, 0⟩ : Cplx K) = z := by
  ext <;> simp [h]

theorem mk_eq_add (x y : K) : (⟨x, y⟩ : Cplx K) = ofReal x + imaginary * ofReal y := by
  ext <;> simp [ofReal, imaginary]

theorem half_smul_add [CharZero K] (z : Cplx K) : (1 / 2 : K) • (z + z) = z := by
  ext <;> simp <;> ring

namespace TrigRoots

variable (h : TrigRoots trig ζ)
include h

/-- The spectrum of a real signal is conjugate symmetric. -/
theorem star_dft {levels k k' : ℕ} (hk : k + k' = 2 ^ levels) (x : ℕ → K) :
    star (dft (ζ levels) (2 ^ levels) (fun n => ofReal (x n)) k) =
      dft (ζ levels) (2 ^ levels) (fun n => ofReal (x n)) k' := by
  rw [dft, star_sum, dft]
  refine Finset.sum_congr rfl fun j _ => ?_
  have hturn : ζ levels ^ (j * k) * ζ levels ^ (j * k') = 1 := by
    rw [← pow_add, ← Nat.mul_add, hk, Nat.mul_comm, pow_mul, h.tower.pow_full, one_pow]
  have hunit : ζ levels ^ (j * k) * star (ζ levels) ^ (j * k) = 1 := by
    rw [← mul_pow, h.unit, one_pow]
  rw [star_mul', star_ofReal, star_pow]
  congr 1
  calc star (ζ levels) ^ (j * k)
      = star (ζ levels) ^ (j * k) * (ζ levels ^ (j * k) * ζ levels ^ (j * k')) := by
        rw [hturn, mul_one]
    _ = ζ levels ^ (j * k) * star (ζ levels) ^ (j * k) * ζ levels ^ (j * k') := by ring
    _ = ζ levels ^ (j * k') := by rw [hunit, one_mul]

omit h in
/-- The transform of the packed samples, from those of the even and of the odd ones. -/
theorem dft_packed (ω : Cplx K) (n : ℕ) (x : ℕ → K) (k : ℕ) :
    dft ω n (fun j => ⟨x (2 * j), x (2 * j + 1)⟩) k =
      dft ω n (fun j => ofReal (x (2 * j))) k +
        imaginary * dft ω n (fun j => ofReal (x (2 * j + 1))) k := by
  rw [dft, dft, dft, Finset.mul_sum, ← Finset.sum_add_distrib]
  refine Finset.sum_congr rfl fun j _ => ?_
  rw [mk_eq_add]
  ring

/-- **Headline.** `forward` gives the bins of the transform up to the Nyquist one. -/
theorem realFftForward_apply [CharZero K] {levels k : ℕ} (hk : k ≤ 2 ^ levels) (x : ℕ → K) :
    realFftForward trig (2 ^ (levels + 1)) x k =
      dft (ζ (levels + 1)) (2 ^ (levels + 1)) (fun n => ofReal (x n)) k := by
  have hm : 2 ^ (levels + 1) / 2 = 2 ^ levels := Fft.two_pow_half _
  set even := dft (ζ levels) (2 ^ levels) fun n => ofReal (x (2 * n)) with heven
  set odd := dft (ζ levels) (2 ^ levels) fun n => ofReal (x (2 * n + 1)) with hodd
  have hscratch : ∀ k, fftForward trig (2 ^ levels)
      (fun n => ⟨x (2 * n), x (2 * n + 1)⟩) (k % 2 ^ levels) = even k + imaginary * odd k := by
    intro k
    rw [h.fftForward_apply (Nat.mod_lt _ (Nat.two_pow_pos levels)), dft_mod h.tower, dft_packed]
  have hmirror : star (even (2 ^ levels - k) + imaginary * odd (2 ^ levels - k)) =
      even k - imaginary * odd k := by
    rw [star_add, star_mul', star_imaginary, h.star_dft (Nat.sub_add_cancel hk),
      h.star_dft (Nat.sub_add_cancel hk)]
    ring
  have hsum : even k + imaginary * odd k + (even k - imaginary * odd k) = even k + even k := by ring
  have hdiff : even k + imaginary * odd k - (even k - imaginary * odd k) =
      imaginary * odd k + imaginary * odd k := by ring
  rw [realFftForward, hm, hscratch, hscratch, hmirror, hsum, hdiff, half_smul_add, half_smul_add,
    overI_imaginary, h.unpack_eq, dft_split h.tower]

omit h in
theorem im_eq_zero [CharZero K] {z : Cplx K} (hz : star z = z) : z.im = 0 := by
  have him := congrArg QuadraticAlgebra.im hz
  rw [QuadraticAlgebra.im_star] at him
  exact neg_eq_self.mp him

/-- **Headline.** `inverse` gives back the real signal that has the spectrum. -/
theorem realFftInverse_apply [CharZero K] {levels p : ℕ} (hp : p < 2 ^ (levels + 1)) {x : ℕ → K}
    {spectrum : ℕ → Cplx K}
    (hspectrum : ∀ k ≤ 2 ^ levels,
      spectrum k = dft (ζ (levels + 1)) (2 ^ (levels + 1)) (fun n => ofReal (x n)) k) :
    realFftInverse trig (2 ^ (levels + 1)) spectrum p = x p := by
  have hm : 2 ^ (levels + 1) / 2 = 2 ^ levels := Fft.two_pow_half _
  have hdouble : 2 ^ (levels + 1) = 2 ^ levels + 2 ^ levels := by ring
  set even := dft (ζ levels) (2 ^ levels) fun n => ofReal (x (2 * n)) with heven
  set odd := dft (ζ levels) (2 ^ levels) fun n => ofReal (x (2 * n + 1)) with hodd
  set w := ζ (levels + 1) with hw
  -- the two end bins are real, so forcing them real changes nothing
  have hdc : (⟨(spectrum 0).re, 0⟩ : Cplx K) = spectrum 0 := by
    refine ofReal_re (im_eq_zero ?_)
    rw [hspectrum 0 (Nat.zero_le _), h.star_dft (Nat.zero_add _), ← dft_mod h.tower, Nat.mod_self]
  have hnyquist : (⟨(spectrum (2 ^ levels)).re, 0⟩ : Cplx K) = spectrum (2 ^ levels) := by
    refine ofReal_re (im_eq_zero ?_)
    rw [hspectrum _ le_rfl, h.star_dft hdouble.symm]
  have hbins : ∀ k ≤ 2 ^ levels, spectrum k = even k + w ^ k * odd k ∧
      star (spectrum (2 ^ levels - k)) = even k - w ^ k * odd k := by
    intro k hk
    refine ⟨by rw [hspectrum k hk, dft_split h.tower], ?_⟩
    have hmirror : 2 ^ levels - k + (2 ^ levels + k) = 2 ^ (levels + 1) := by omega
    rw [hspectrum _ (Nat.sub_le _ _), h.star_dft hmirror,
      dft_split h.tower, dft_add_full h.tower, dft_add_full h.tower, h.tower.pow_add_half]
    ring
  have hscratch : ∀ n < 2 ^ levels, fftInverse trig (2 ^ levels)
      (fun k =>
        let xk := if k = 0 then ⟨(spectrum 0).re, 0⟩ else spectrum k
        let xmk := if k = 0 then ⟨(spectrum (2 ^ levels)).re, 0⟩ else spectrum (2 ^ levels - k)
        let even := (1 / 2 : K) • (xk + star xmk)
        let odd := (1 / 2 : K) • (xk - star xmk) * star (unpack trig (2 ^ (levels + 1)) k)
        even + timesI odd) n = ⟨x (2 * n), x (2 * n + 1)⟩ := by
    intro n hn
    refine @fftInverse_apply _ _ _ _ h _ levels n hn (fun n => ⟨x (2 * n), x (2 * n + 1)⟩) _
      fun k hk => ?_
    obtain ⟨hbin, hmirror⟩ := hbins k hk.le
    have hxk : (if k = 0 then (⟨(spectrum 0).re, 0⟩ : Cplx K) else spectrum k) = spectrum k := by
      split_ifs with hzero
      · rw [hzero, hdc]
      · rfl
    have hxmk : (if k = 0 then (⟨(spectrum (2 ^ levels)).re, 0⟩ : Cplx K)
        else spectrum (2 ^ levels - k)) = spectrum (2 ^ levels - k) := by
      split_ifs with hzero
      · rw [hzero, Nat.sub_zero, hnyquist]
      · rfl
    have hsum : even k + w ^ k * odd k + (even k - w ^ k * odd k) = even k + even k := by ring
    have hdiff : even k + w ^ k * odd k - (even k - w ^ k * odd k) =
        w ^ k * odd k + w ^ k * odd k := by ring
    have hrotate : w ^ k * odd k * star (w ^ k) = odd k := by
      calc w ^ k * odd k * star (w ^ k) = (w * star w) ^ k * odd k := by rw [star_pow]; ring
        _ = odd k := by rw [h.unit, one_pow, one_mul]
    dsimp only
    rw [hxk, hxmk, hmirror, hbin, hsum, hdiff, half_smul_add, half_smul_add, h.unpack_eq, hrotate,
      timesI_eq, dft_packed]
  have hbelow : p / 2 < 2 ^ levels := by omega
  rw [realFftInverse, hm]
  dsimp only
  rw [hscratch (p / 2) hbelow]
  split_ifs with hparity
  · rw [Nat.mul_div_cancel' (Nat.dvd_of_mod_eq_zero hparity)]
  · rw [show 2 * (p / 2) + 1 = p by omega]

end TrigRoots

/-! ### The real functions -/

/-- The roots of the real cosine and sine. -/
noncomputable def realRoot (s : ℕ) : Cplx ℝ := cis realTrig (-(2 * Real.pi) / (2 ^ s : ℕ))

theorem cis_add (a b : ℝ) : cis realTrig (a + b) = cis realTrig a * cis realTrig b := by
  ext
  · simp [cis, realTrig, Real.cos_add]
    ring
  · simp [cis, realTrig, Real.sin_add]
    ring

theorem cis_mul (j : ℕ) (a : ℝ) : cis realTrig (j * a) = cis realTrig a ^ j := by
  induction j with
  | zero =>
    rw [Nat.cast_zero, zero_mul, pow_zero]
    ext <;> simp [cis, realTrig, QuadraticAlgebra.re_one, QuadraticAlgebra.im_one]
  | succ j ih => rw [Nat.cast_succ, add_mul, one_mul, cis_add, ih, pow_succ]

theorem trigRoots_real : TrigRoots realTrig realRoot where
  tower :=
    { one := by
        ext <;> simp [realRoot, cis, realTrig, QuadraticAlgebra.re_one, QuadraticAlgebra.im_one]
      half := by
        have hangle : -(2 * Real.pi) / ((2 ^ 1 : ℕ) : ℝ) = -Real.pi := by
          push_cast
          ring
        rw [realRoot, hangle]
        ext <;> simp [cis, realTrig, QuadraticAlgebra.re_one, QuadraticAlgebra.im_one]
      square := by
        intro s
        rw [realRoot, ← cis_mul, realRoot]
        congr 1
        push_cast
        rw [pow_succ]
        field_simp }
  unit s := by
    ext
    · simp only [realRoot, cis, realTrig, QuadraticAlgebra.re_mul, QuadraticAlgebra.re_star,
        QuadraticAlgebra.im_star, QuadraticAlgebra.re_one]
      have := Real.cos_sq_add_sin_sq (-(2 * Real.pi) / ((2 ^ s : ℕ) : ℝ))
      linarith
    · simp only [realRoot, cis, realTrig, QuadraticAlgebra.im_mul, QuadraticAlgebra.re_star,
        QuadraticAlgebra.im_star, QuadraticAlgebra.im_one]
      ring
  cis_eq s j := by
    rw [realRoot, ← cis_mul]
    congr 1
    rw [show realTrig.pi = Real.pi from rfl]
    ring

end Dsp

end RtaTool
