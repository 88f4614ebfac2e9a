import RtaTool.Gen.Prng
import Mathlib.Analysis.SpecialFunctions.Pow.Real
import Mathlib.Analysis.SpecialFunctions.Sqrt

/-!
# The level of white noise

`WhiteNoise` of `Noise.cpp`, in exact arithmetic: the narrowing of each sample to a `float` is left
out. Over a period of the generator every output comes equally often, so sums along it are sums over
all outputs.

## Main results

* `Pcg32.sum_period` -- a sum along a period
* `whiteNoise_level` -- **Headline.** The level is the one that was set
-/

namespace RtaTool

namespace Gen

/-- `nextUniform()`, of the word it draws. -/
noncomputable def uniform (x : BitVec 32) : ℝ := x.toNat * (2 : ℝ) ^ (-32 : ℤ) * 2 - 1

/-- `WhiteNoise`. -/
structure WhiteNoise where
  rng : Pcg32
  levelDbFsRms : ℝ
  scale : ℝ

namespace WhiteNoise

/-- `setLevelDbFsRms(db)`. -/
noncomputable def setLevelDbFsRms (noise : WhiteNoise) (db : ℝ) : WhiteNoise :=
  { noise with levelDbFsRms := db, scale := (10 : ℝ) ^ (db / 20) * √3 }

/-- `nextSample()`. -/
noncomputable def nextSample (noise : WhiteNoise) : ℝ × WhiteNoise :=
  let (x, rng) := noise.rng.nextUInt32
  (uniform x * noise.scale, { noise with rng })

/-- The sample of the `n`-th call. -/
noncomputable def sample (noise : WhiteNoise) (n : ℕ) : ℝ :=
  ((fun noise => noise.nextSample.2)^[n] noise).nextSample.1

/-- The samples are those of the generator's words. -/
theorem sample_eq (noise : WhiteNoise) (n : ℕ) :
    noise.sample n = uniform (noise.rng.after n).nextUInt32.1 * noise.scale := by
  have hafter : (fun noise => noise.nextSample.2)^[n] noise =
      { noise with rng := noise.rng.after n } := by
    induction n with
    | zero => rfl
    | succ n ih =>
      rw [Function.iterate_succ_apply', ih, Pcg32.after_succ]
      rfl
  rw [sample, hafter]
  rfl

end WhiteNoise

/-- A sum along a period is one over all words. -/
theorem Pcg32.sum_period (rng : Pcg32) (F : ℕ → ℝ) :
    ∑ n ∈ Finset.range (2 ^ 64), F (rng.after n).nextUInt32.1.toNat =
      2 ^ 32 * ∑ m ∈ Finset.range (2 ^ 32), F m := by
  rw [← Finset.sum_fiberwise_of_maps_to (g := fun n => (rng.after n).nextUInt32.1.toNat)
    (t := Finset.range (2 ^ 32)) fun n _ => Finset.mem_range.mpr (BitVec.isLt _), Finset.mul_sum]
  refine Finset.sum_congr rfl fun m hm => ?_
  have hcount := rng.card_filter_nextUInt32 (BitVec.ofNat 32 m)
  have hiff : ∀ n, (rng.after n).nextUInt32.1 = BitVec.ofNat 32 m ↔
      (rng.after n).nextUInt32.1.toNat = m := by
    intro n
    rw [← BitVec.toNat_inj, BitVec.toNat_ofNat, Nat.mod_eq_of_lt (Finset.mem_range.mp hm)]
  simp only [hiff] at hcount
  rw [Finset.sum_congr rfl fun n hn => congrArg F (Finset.mem_filter.mp hn).2, Finset.sum_const,
    hcount, nsmul_eq_mul]
  norm_num

/-- The first two moments of `2 * m / k - 1` over a range. -/
theorem sum_ramp (k : ℝ) (n : ℕ) :
    ∑ m ∈ Finset.range n, ((m : ℝ) * k * 2 - 1) = k * n * (n - 1) - n ∧
      ∑ m ∈ Finset.range n, ((m : ℝ) * k * 2 - 1) ^ 2 =
        k ^ 2 * (2 * n * (n - 1) * (2 * n - 1) / 3) - 2 * k * (n * (n - 1)) + n := by
  induction n with
  | zero => simp
  | succ n ih =>
    rw [Finset.sum_range_succ, Finset.sum_range_succ, ih.1, ih.2]
    push_cast
    constructor <;> ring

/-- **Headline.** Over one period of the generator, wherever it starts, the mean square of the
samples is that of the level but for a part in `2 ^ 63`, and their mean is that of half a step. -/
theorem whiteNoise_level (noise : WhiteNoise) (db : ℝ) :
    (∑ n ∈ Finset.range (2 ^ 64), (noise.setLevelDbFsRms db).sample n ^ 2) / 2 ^ 64 =
        (10 : ℝ) ^ (db / 10) * (1 + 1 / 2 ^ 63) ∧
      (∑ n ∈ Finset.range (2 ^ 64), (noise.setLevelDbFsRms db).sample n) / 2 ^ 64 =
        -((10 : ℝ) ^ (db / 20) * √3 / 2 ^ 32) := by
  obtain ⟨hmean, hsquare⟩ := sum_ramp ((2 : ℝ) ^ (-32 : ℤ)) (2 ^ 32)
  have hcast : ((2 ^ 32 : ℕ) : ℝ) = 4294967296 := by norm_num
  have hstep : (2 : ℝ) ^ (-32 : ℤ) = 1 / 4294967296 := by norm_num
  have hscale : ((10 : ℝ) ^ (db / 20) * √3) ^ 2 = (10 : ℝ) ^ (db / 10) * 3 := by
    have hexp : db / 20 * (2 : ℕ) = db / 10 := by
      push_cast
      ring
    rw [mul_pow, Real.sq_sqrt (by norm_num), ← Real.rpow_natCast, ← Real.rpow_mul (by norm_num),
      hexp]
  simp only [WhiteNoise.sample_eq, uniform]
  constructor
  · simp only [mul_pow, ← Finset.sum_mul]
    rw [Pcg32.sum_period _ fun m => ((m : ℝ) * 2 ^ (-32 : ℤ) * 2 - 1) ^ 2, hsquare]
    rw [WhiteNoise.setLevelDbFsRms, hscale, hcast, hstep]
    ring
  · rw [← Finset.sum_mul, Pcg32.sum_period _ fun m => (m : ℝ) * 2 ^ (-32 : ℤ) * 2 - 1, hmean]
    rw [WhiteNoise.setLevelDbFsRms, hcast, hstep]
    ring

end Gen

end RtaTool
