import RtaTool.Lib.AffineCycle
import Mathlib.Data.BitVec
import Mathlib.Data.FinEnum
import Mathlib.SetTheory.Cardinal.Finite
import Mathlib.Tactic.IntervalCases
import Mathlib.Tactic.NormNum

/-!
# The random numbers of the generators

`Prng.h`. The state of a `Pcg32` is stepped by an affine map whose increment is odd, so it goes
through every word of 64 bits, and an output is a permutation of the state, less 32 of its bits.
The generators of the channels are seeded by two words each of one stream, which does not come to a
word again before its `2 ^ 64`-th.

## Main definitions

* `Pcg32` -- a generator, whose increment is odd
* `Pcg32.reseed`, `Pcg32.nextUInt32`, `splitMix64`, `forChannel`

## Main results

* `Pcg32.period_and_counts` -- **Headline.** The period, and every output equally often in it
* `forChannel_eq_iff` -- **Headline.** Which channels share a generator
-/

namespace RtaTool

namespace Gen

/-- `Pcg32`. The constructor is `reseed`. -/
@[ext]
structure Pcg32 where
  state : BitVec 64
  inc : BitVec 64
  inc_odd : inc.getLsbD 0 = true
  deriving DecidableEq

/-- The multiplier of the steps. -/
def kMultiplier : BitVec 64 := 6364136223846793005#64

namespace Pcg32

/-- `step()`. -/
def step (rng : Pcg32) : Pcg32 := { rng with state := rng.state * kMultiplier + rng.inc }

/-- `reseed(seed, sequence)`. -/
def reseed (seed sequence : BitVec 64) : Pcg32 :=
  let rng := step ⟨0, (sequence <<< 1) ||| 1, by simp⟩
  step { rng with state := rng.state + seed }

/-- What `nextUInt32` makes of the state it finds. -/
def permute (old : BitVec 64) : BitVec 32 :=
  let xorshifted := (((old >>> 18) ^^^ old) >>> 27).setWidth 32
  let rot := (old >>> 59).setWidth 32
  (xorshifted >>> rot) ||| (xorshifted <<< ((0 - rot) &&& 31))

/-- `nextUInt32()`. -/
def nextUInt32 (rng : Pcg32) : BitVec 32 × Pcg32 := (permute rng.state, rng.step)

/-- The generator after `n` calls. -/
def after (rng : Pcg32) (n : ℕ) : Pcg32 := step^[n] rng

end Pcg32

/-- What `splitMix64` adds to its state. -/
def kGamma : BitVec 64 := 0x9E3779B97F4A7C15#64

/-- `splitMix64(state)`: the word, and the state that is left. -/
def splitMix64 (state : BitVec 64) : BitVec 64 × BitVec 64 :=
  let state := state + kGamma
  let z := state
  let z := (z ^^^ (z >>> 30)) * 0xBF58476D1CE4E5B9#64
  let z := (z ^^^ (z >>> 27)) * 0x94D049BB133111EB#64
  (z ^^^ (z >>> 31), state)

/-- `ChannelSeeds::forChannel(master, channel)`. -/
def forChannel (master : BitVec 64) (channel : ℕ) : Pcg32 :=
  let drawn := (List.range (channel + 1)).foldl
    (fun (drawn : BitVec 64 × BitVec 64 × BitVec 64) _ =>
      let seed := splitMix64 drawn.1
      let sequence := splitMix64 seed.2
      (sequence.2, seed.1, sequence.1))
    (master, 0, 0)
  .reseed drawn.2.1 drawn.2.2

/-! ### Words that are permuted -/

theorem natCard_bitVec (w : ℕ) : Nat.card (BitVec w) = 2 ^ w := by
  rw [Nat.card_congr BitVec.equivFin.toEquiv, Nat.card_fin]

theorem injective_xor_shiftRight {w k : ℕ} (hk : 0 < k) :
    Function.Injective fun x : BitVec w => x ^^^ (x >>> k) := by
  intro x y h
  have hdiff : x ^^^ y = (x ^^^ y) >>> k := by
    have hzero : x ^^^ (x >>> k) ^^^ (y ^^^ (y >>> k)) = 0#w := BitVec.xor_eq_zero_iff.mpr h
    rw [BitVec.ushiftRight_xor_distrib, ← BitVec.xor_eq_zero_iff, ← hzero]
    ac_rfl
  have hnat := congrArg BitVec.toNat hdiff
  rw [BitVec.toNat_ushiftRight, Nat.shiftRight_eq_div_pow] at hnat
  rw [← BitVec.xor_eq_zero_iff]
  apply BitVec.eq_of_toNat_eq
  by_contra hne
  exact (Nat.div_lt_self (Nat.pos_of_ne_zero hne) (Nat.one_lt_two_pow hk.ne')).ne' hnat

theorem injective_mul {w : ℕ} {c d : BitVec w} (h : c * d = 1) :
    Function.Injective fun x : BitVec w => x * c := by
  intro x y hxy
  have hmul := congrArg (· * d) hxy
  simp only [mul_assoc, h, mul_one] at hmul
  exact hmul

namespace Pcg32

theorem rotate_eq (x : BitVec 32) (rot : BitVec 32) (hrot : rot.toNat < 32) :
    (x >>> rot) ||| (x <<< ((0 - rot) &&& 31)) = x.rotateRight rot.toNat := by
  obtain ⟨r, hr⟩ : ∃ r, r = rot.toNat := ⟨_, rfl⟩
  obtain rfl : rot = BitVec.ofNat 32 r := by rw [hr, BitVec.ofNat_toNat, BitVec.setWidth_eq]
  rw [← hr] at hrot ⊢
  clear hr
  interval_cases r <;> simp [BitVec.rotateRight, BitVec.rotateRightAux]

theorem injective_rotateRight {r : ℕ} (hr : r < 32) :
    Function.Injective fun x : BitVec 32 => x.rotateRight r := by
  intro x y h
  have h : x.rotateRight r = y.rotateRight r := h
  apply BitVec.eq_of_getLsbD_eq
  intro i hi
  have hbit := congrArg (BitVec.getLsbD · ((i + (32 - r)) % 32)) h
  simp only [BitVec.getLsbD_rotateRight_of_lt hr] at hbit
  by_cases hir : i < r
  · have hmod : (i + (32 - r)) % 32 = i + (32 - r) := Nat.mod_eq_of_lt (by omega)
    have hge : ¬ i + (32 - r) < 32 - r := by omega
    have hlt : i + (32 - r) < 32 := by omega
    simpa [hmod, hge, hlt] using hbit
  · have hmod : (i + (32 - r)) % 32 = i - r := by omega
    have hlt : i - r < 32 - r := by omega
    have hback : r + (i - r) = i := by omega
    simpa [hmod, hlt, hback] using hbit

theorem ncard_middle {σ : ℕ → BitVec 32 → BitVec 32} (hσ : ∀ r < 32, Function.Injective (σ r))
    (v : BitVec 32) :
    {y : BitVec 64 | σ (y.toNat / 2 ^ 59) (BitVec.ofNat 32 (y.toNat / 2 ^ 27)) = v}.ncard =
      2 ^ 32 := by
  let parts (y : BitVec 64) : BitVec 32 × Fin 32 × Fin (2 ^ 27) :=
    (σ (y.toNat / 2 ^ 59) (BitVec.ofNat 32 (y.toNat / 2 ^ 27)), ⟨y.toNat / 2 ^ 59, by omega⟩,
      ⟨y.toNat % 2 ^ 27, Nat.mod_lt _ (by norm_num)⟩)
  have hinj : Function.Injective parts := by
    intro y y' h
    simp only [parts, Prod.mk.injEq, Fin.mk.injEq] at h
    obtain ⟨hmid, htop, hlow⟩ := h
    rw [htop] at hmid
    have hmid := congrArg BitVec.toNat (hσ _ (by omega) hmid)
    rw [BitVec.toNat_ofNat, BitVec.toNat_ofNat] at hmid
    apply BitVec.eq_of_toNat_eq
    omega
  have hcard : Nat.card (BitVec 64) = Nat.card (BitVec 32 × Fin 32 × Fin (2 ^ 27)) := by
    rw [Nat.card_prod, Nat.card_prod, natCard_bitVec, natCard_bitVec, Nat.card_fin, Nat.card_fin]
    norm_num
  have hbij := (Nat.bijective_iff_injective_and_card parts).mpr ⟨hinj, hcard⟩
  have hset : {y : BitVec 64 | σ (y.toNat / 2 ^ 59) (BitVec.ofNat 32 (y.toNat / 2 ^ 27)) = v} =
      Set.preimage parts ({v} ×ˢ Set.univ) := by
    ext y
    simp [parts]
  rw [hset, Set.ncard_preimage_of_injective_subset_range hinj fun y _ => hbij.2 y, Set.ncard_prod,
    Set.ncard_singleton, Set.ncard_univ, Nat.card_prod, Nat.card_fin, Nat.card_fin]
  norm_num

/-- The output is a rotation, by the top five bits, of the bits that follow them. -/
theorem permute_eq (old : BitVec 64) :
    permute old = (BitVec.ofNat 32 ((old ^^^ (old >>> 18)).toNat / 2 ^ 27)).rotateRight
      ((old ^^^ (old >>> 18)).toNat / 2 ^ 59) := by
  have htop : (old ^^^ (old >>> 18)).toNat / 2 ^ 59 = old.toNat / 2 ^ 59 := by
    have hzero : old >>> 18 >>> 59 = 0#64 := by
      rw [← BitVec.shiftRight_add]
      exact BitVec.ushiftRight_eq_zero (by decide)
    have hshift := BitVec.ushiftRight_xor_distrib old (old >>> 18) 59
    rw [hzero, BitVec.xor_zero] at hshift
    simpa only [BitVec.toNat_ushiftRight, Nat.shiftRight_eq_div_pow] using
      congrArg BitVec.toNat hshift
  have hrot : ((old >>> 59).setWidth 32).toNat = old.toNat / 2 ^ 59 := by
    rw [BitVec.toNat_setWidth, BitVec.toNat_ushiftRight, Nat.shiftRight_eq_div_pow]
    omega
  have hlt : ((old >>> 59).setWidth 32).toNat < 32 := by
    rw [hrot]
    omega
  rw [permute, rotate_eq _ _ hlt, hrot, htop, BitVec.xor_comm]
  congr 1
  apply BitVec.eq_of_toNat_eq
  rw [BitVec.toNat_setWidth, BitVec.toNat_ushiftRight, Nat.shiftRight_eq_div_pow,
    BitVec.toNat_ofNat]

/-- Every word comes of `2 ^ 32` states. -/
theorem ncard_permute (v : BitVec 32) : {old | permute old = v}.ncard = 2 ^ 32 := by
  have hinj : Function.Injective fun x : BitVec 64 => x ^^^ (x >>> 18) :=
    injective_xor_shiftRight (by decide)
  have hset : {old | permute old = v} = Set.preimage (fun x : BitVec 64 => x ^^^ (x >>> 18))
      {y : BitVec 64 |
        (BitVec.ofNat 32 (y.toNat / 2 ^ 27)).rotateRight (y.toNat / 2 ^ 59) = v} := by
    ext old
    show permute old = v ↔ _ = v
    rw [permute_eq]
  rw [hset, Set.ncard_preimage_of_injective_subset_range hinj
    fun y _ => Finite.injective_iff_surjective.mp hinj y]
  exact ncard_middle (fun r hr => injective_rotateRight hr) v

/-! ### The period -/

theorem after_succ (rng : Pcg32) (n : ℕ) : rng.after (n + 1) = (rng.after n).step := by
  rw [after, after, Function.iterate_succ_apply']

theorem step_state (rng : Pcg32) : rng.step.state = kMultiplier * rng.state + rng.inc := by
  have hproj : ∀ x c h, (Pcg32.mk x c h).state = x := fun _ _ _ => rfl
  rw [step, hproj, mul_comm]

theorem step_inc (rng : Pcg32) : rng.step.inc = rng.inc := by
  have hproj : ∀ x c h, (Pcg32.mk x c h).inc = c := fun _ _ _ => rfl
  rw [step, hproj]

theorem after_inc (rng : Pcg32) (n : ℕ) : (rng.after n).inc = rng.inc := by
  induction n with
  | zero => rfl
  | succ n ih => rw [after_succ, step_inc, ih]

theorem after_state (rng : Pcg32) (n : ℕ) :
    (rng.after n).state = (fun x => kMultiplier * x + rng.inc)^[n] rng.state := by
  induction n with
  | zero => rfl
  | succ n ih => rw [after_succ, Function.iterate_succ_apply', ← ih, step_state, after_inc]

theorem two_pow_eq (w n : ℕ) : (2 : BitVec w) ^ n = BitVec.ofNat w (2 ^ n) := by
  rw [← BitVec.natCast_eq_ofNat, Nat.cast_pow, Nat.cast_ofNat]

theorem minimalPeriod_state (rng : Pcg32) :
    Function.minimalPeriod (fun x => kMultiplier * x + rng.inc) rng.state = 2 ^ 64 := by
  refine AffineCycle.minimalPeriod_affine (n := 63) (by rw [two_pow_eq]; rfl)
    (by rw [two_pow_eq]; decide)
    ⟨kMultiplier >>> 2, by decide⟩ ⟨rng.inc >>> 1, ?_⟩ _
  have hodd := rng.inc_odd
  rw [BitVec.getLsbD, Nat.testBit_zero, decide_eq_true_iff] at hodd
  apply BitVec.eq_of_toNat_eq
  have hlt := rng.inc.isLt
  have hhalf : (rng.inc >>> 1).toNat = rng.inc.toNat / 2 := by
    rw [BitVec.toNat_ushiftRight, Nat.shiftRight_eq_div_pow, pow_one]
  rw [BitVec.toNat_add, BitVec.toNat_mul, hhalf]
  show _ = (1 + 2 * (rng.inc.toNat / 2) % 2 ^ 64) % 2 ^ 64
  omega

/-- In a period every output comes as often as any other. -/
theorem card_filter_nextUInt32 (rng : Pcg32) (v : BitVec 32) :
    ((Finset.range (2 ^ 64)).filter fun n => (nextUInt32 (rng.after n)).1 = v).card = 2 ^ 32 := by
  rw [← ncard_permute v, ← AffineCycle.card_filter_orbit (minimalPeriod_state rng)
    (natCard_bitVec 64)]
  simp only [nextUInt32, after_state]

/-- **Headline.** However it was seeded, the generator is back where it was after `2 ^ 64` calls and
no sooner, and by then has given each word of 32 bits `2 ^ 32` times. -/
theorem period_and_counts (rng : Pcg32) :
    (∀ n, rng.after n = rng ↔ 2 ^ 64 ∣ n) ∧
    ∀ v, ((Finset.range (2 ^ 64)).filter fun n => (nextUInt32 (rng.after n)).1 = v).card =
      2 ^ 32 := by
  refine ⟨fun n => ?_, rng.card_filter_nextUInt32⟩
  rw [← minimalPeriod_state rng, ← Function.isPeriodicPt_iff_minimalPeriod_dvd]
  have hstate := after_state rng n
  constructor
  · intro h
    exact hstate.symm.trans (congrArg state h)
  · intro h
    exact Pcg32.ext (hstate.trans h) (after_inc rng n)

/-- Two seeds give two states, whatever the sequence. -/
theorem reseed_seed_inj {seed seed' sequence sequence' : BitVec 64}
    (h : reseed seed sequence = reseed seed' sequence') : seed = seed' := by
  have hinc := congrArg inc h
  have hstate := congrArg state h
  simp only [reseed, step_inc, step_state] at hinc hstate
  rw [hinc] at hstate
  have hinv : kMultiplier * 13877824140714322085#64 = 1 := by decide
  have hmul := add_right_cancel hstate
  exact add_left_cancel
    (injective_mul hinv ((mul_comm _ _).trans (hmul.trans (mul_comm _ _))))

end Pcg32

/-! ### Seeds of channels -/

/-- The words of the stream that starts at `master`. -/
def word (master : BitVec 64) (i : ℕ) : BitVec 64 :=
  (splitMix64 (master + i * kGamma)).1

theorem injective_splitMix64 : Function.Injective fun state => (splitMix64 state).1 := by
  have hA : 0xBF58476D1CE4E5B9#64 * 10871156337175269513#64 = 1 := by decide
  have hB : 0x94D049BB133111EB#64 * 3573116690164977347#64 = 1 := by decide
  intro x y h
  simp only [splitMix64] at h
  have h31 := injective_xor_shiftRight (w := 64) (k := 31) (by decide) h
  have h27 := injective_xor_shiftRight (w := 64) (k := 27) (by decide) (injective_mul hB h31)
  have h30 := injective_xor_shiftRight (w := 64) (k := 30) (by decide) (injective_mul hA h27)
  exact add_right_cancel h30

/-- No word of the stream comes twice among `2 ^ 64`. -/
theorem word_eq_iff (master : BitVec 64) (i j : ℕ) :
    word master i = word master j ↔ i % 2 ^ 64 = j % 2 ^ 64 := by
  have hinv : kGamma * 17428512612931826493#64 = 1 := by decide
  have hcast : (i : BitVec 64) = j ↔ i % 2 ^ 64 = j % 2 ^ 64 := by
    rw [BitVec.natCast_eq_ofNat, BitVec.natCast_eq_ofNat, ← BitVec.toNat_inj,
      BitVec.toNat_ofNat, BitVec.toNat_ofNat]
  rw [word, word, ← hcast]
  constructor
  · intro h
    exact injective_mul hinv (add_left_cancel (injective_splitMix64 h))
  · intro h
    rw [h]

theorem splitMix64_snd (state : BitVec 64) : (splitMix64 state).2 = state + kGamma := by
  rw [splitMix64]

theorem forChannel_eq (master : BitVec 64) (channel : ℕ) :
    forChannel master channel =
      .reseed (word master (2 * channel)) (word master (2 * channel + 1)) := by
  have hloop : ∀ n : ℕ, (List.range (n + 1)).foldl
      (fun (drawn : BitVec 64 × BitVec 64 × BitVec 64) _ =>
        ((splitMix64 (splitMix64 drawn.1).2).2, (splitMix64 drawn.1).1,
          (splitMix64 (splitMix64 drawn.1).2).1)) (master, 0, 0) =
      (master + (2 * n + 1 + 1 : ℕ) * kGamma, word master (2 * n), word master (2 * n + 1)) := by
    have hnext : ∀ i : ℕ, master + i * kGamma + kGamma = master + (i + 1 : ℕ) * kGamma := by
      intro i
      rw [Nat.cast_succ, add_mul, one_mul, add_assoc]
    have hturn : ∀ (n : ℕ) (m : BitVec 64), m = master + (2 * n : ℕ) * kGamma →
        ((splitMix64 (splitMix64 m).2).2, (splitMix64 m).1, (splitMix64 (splitMix64 m).2).1) =
        (master + (2 * n + 1 + 1 : ℕ) * kGamma, word master (2 * n),
          word master (2 * n + 1)) := by
      rintro n m rfl
      rw [splitMix64_snd, splitMix64_snd, hnext, hnext, word, word]
    intro n
    induction n with
    | zero => exact hturn 0 master (by simp)
    | succ n ih =>
      rw [List.range_succ, List.foldl_append, ih]
      exact hturn (n + 1) _ rfl
  rw [forChannel]
  dsimp only
  rw [hloop]

/-- **Headline.** Two channels have the same generator exactly when their numbers differ by a
multiple of `2 ^ 63`. -/
theorem forChannel_eq_iff (master : BitVec 64) (c c' : ℕ) :
    forChannel master c = forChannel master c' ↔ c % 2 ^ 63 = c' % 2 ^ 63 := by
  rw [forChannel_eq, forChannel_eq]
  constructor
  · intro h
    have := (word_eq_iff master _ _).mp (Pcg32.reseed_seed_inj h)
    omega
  · intro h
    rw [(word_eq_iff master (2 * c) (2 * c')).mpr (by omega),
      (word_eq_iff master (2 * c + 1) (2 * c' + 1)).mpr (by omega)]

end Gen

end RtaTool
