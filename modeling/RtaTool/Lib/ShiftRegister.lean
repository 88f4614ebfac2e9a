import RtaTool.Lib.Numerals
import Mathlib.Algebra.BigOperators.Intervals
import Mathlib.Algebra.BigOperators.Ring.Finset
import Mathlib.Data.BitVec
import Mathlib.Data.Int.Basic
import Mathlib.Data.List.Prime
import Mathlib.Data.Nat.Prime.Basic
import Mathlib.Dynamics.PeriodicPts.Defs
import Mathlib.Tactic.Ring

/-!
# Linear shift registers

A register of `n` bits that is stepped by a map which respects exclusive or and shifts an even word
to the right. Every word is a sum of steps of the word whose top bit alone is set, so the words of
that one register are multiplied by `mul`, and `power` finds a late word by squaring.

## Main results

* `ShiftRegister.minimalPeriod_top` -- the period, from the primes that divide it
* `ShiftRegister.sum_orbit` -- a register of full period goes through every word but zero
* `ShiftRegister.sum_sign_mul` -- its lowest bits agree with themselves later as often as not, but
  for one
-/

namespace RtaTool

namespace ShiftRegister

variable {w n : ℕ}

/-- The step of a register of `n` bits. -/
structure Linear (n : ℕ) (T : BitVec w → BitVec w) : Prop where
  width : 0 < n ∧ n ≤ w
  xor : ∀ x y, T (x ^^^ y) = T x ^^^ T y
  shift : ∀ x, x.getLsbD 0 = false → T x = x >>> 1
  fits : ∀ x, x.toNat < 2 ^ n → (T x).toNat < 2 ^ n

/-- The word whose top bit alone is set. -/
def top (w n : ℕ) : BitVec w := BitVec.twoPow w (n - 1)

section Multiply

variable (T : BitVec w → BitVec w)

/-- The sum of the steps of `b` that the bits of `a` below `j` say. -/
def mul (a b : BitVec w) : ℕ → BitVec w
  | 0 => 0#w
  | j + 1 => T (mul a b j) ^^^ if a.getLsbD j then b else 0#w

/-- The word after `k` steps, if `k` is below `2 ^ fuel`. -/
def power (n : ℕ) : ℕ → ℕ → BitVec w
  | 0, _ => top w n
  | fuel + 1, k =>
    let half := power n fuel (k / 2)
    if k % 2 = 1 then T (mul T half half n) else mul T half half n

end Multiply

namespace Linear

variable {T : BitVec w → BitVec w} (h : Linear n T)

include h

theorem zero : T 0#w = 0#w := by
  have := h.xor 0#w 0#w
  rwa [BitVec.xor_self, BitVec.xor_self] at this

theorem iterate_xor (k : ℕ) (x y : BitVec w) : T^[k] (x ^^^ y) = T^[k] x ^^^ T^[k] y := by
  induction k with
  | zero => rfl
  | succ k ih => rw [Function.iterate_succ_apply', ih, h.xor, ← Function.iterate_succ_apply' T,
      ← Function.iterate_succ_apply' T]

theorem iterate_zero (k : ℕ) : T^[k] 0#w = 0#w := Function.iterate_fixed h.zero k

theorem iterate_fits {x : BitVec w} (hx : x.toNat < 2 ^ n) (k : ℕ) : (T^[k] x).toNat < 2 ^ n := by
  induction k with
  | zero => exact hx
  | succ k ih =>
    rw [Function.iterate_succ_apply']
    exact h.fits _ ih

theorem top_fits : (top w n).toNat < 2 ^ n := by
  obtain ⟨hpos, hle⟩ := h.width
  rw [top, BitVec.toNat_twoPow, Nat.mod_eq_of_lt (Nat.pow_lt_pow_right (by decide) (by omega))]
  exact Nat.pow_lt_pow_right (by decide) (by omega)

theorem iterate_mul (k : ℕ) (a b : BitVec w) (j : ℕ) :
    T^[k] (mul T a b j) = mul T a (T^[k] b) j := by
  induction j with
  | zero => exact h.iterate_zero k
  | succ j ih =>
    rw [mul, mul, h.iterate_xor, ← ih, ← Function.iterate_succ_apply,
      Function.iterate_succ_apply']
    split
    · rfl
    · rw [h.iterate_zero]

/-- The bits of `a` come in from the top. -/
theorem getLsbD_mul_top (a : BitVec w) (j : ℕ) (hj : j ≤ n) (p : ℕ) :
    (mul T a (top w n) j).getLsbD p =
      (decide (n ≤ p + j ∧ p < n) && a.getLsbD (p + j - n)) := by
  obtain ⟨hpos, hle⟩ := h.width
  induction j generalizing p with
  | zero =>
    rw [mul, decide_eq_false (by omega)]
    simp
  | succ j ih =>
    have hlow : (mul T a (top w n) j).getLsbD 0 = false := by
      rw [ih (by omega), decide_eq_false (by omega), Bool.false_and]
    rw [mul, BitVec.getLsbD_xor, h.shift _ hlow, BitVec.getLsbD_ushiftRight, ih (by omega)]
    have hbit : (if a.getLsbD j then top w n else 0#w).getLsbD p =
        (a.getLsbD j && decide (p = n - 1)) := by
      cases a.getLsbD j
      · simp
      · rw [if_pos rfl, top, BitVec.getLsbD_twoPow, Bool.true_and]
        grind
    rw [hbit]
    by_cases hp : p = n - 1
    · rw [decide_eq_true hp, decide_eq_false (by omega), decide_eq_true (by omega),
        Bool.false_and, Bool.false_xor, Bool.and_true, Bool.true_and,
        show p + (j + 1) - n = j by omega]
    · rw [decide_eq_false hp, Bool.and_false, Bool.xor_false,
        show 1 + p + j - n = p + (j + 1) - n by omega]
      grind

theorem mul_top {a : BitVec w} (ha : a.toNat < 2 ^ n) : mul T a (top w n) n = a := by
  apply BitVec.eq_of_getLsbD_eq
  intro p _
  rw [h.getLsbD_mul_top a n le_rfl p, Nat.add_sub_cancel]
  by_cases hp : p < n
  · rw [decide_eq_true (by omega), Bool.true_and]
  · rw [decide_eq_false (by omega), Bool.false_and, BitVec.getLsbD]
    exact (Nat.testBit_lt_two_pow (ha.trans_le (Nat.pow_le_pow_right (by decide)
      (not_lt.mp hp)))).symm

/-- Products of words are later words. -/
theorem mul_iterate (k m : ℕ) :
    mul T (T^[k] (top w n)) (T^[m] (top w n)) n = T^[m + k] (top w n) := by
  rw [← h.iterate_mul, h.mul_top (h.iterate_fits h.top_fits k), Function.iterate_add_apply]

theorem power_eq {fuel k : ℕ} (hk : k < 2 ^ fuel) : power T n fuel k = T^[k] (top w n) := by
  induction fuel generalizing k with
  | zero =>
    obtain rfl : k = 0 := by omega
    rfl
  | succ fuel ih =>
    rw [pow_succ] at hk
    rw [power, ih (by omega), h.mul_iterate]
    split
    · rw [← Function.iterate_succ_apply' T]
      congr 2
      omega
    · congr 2
      omega

/-! ### The period -/

/-- A number of steps is the period, if it leads back and its quotients by its primes do not. -/
theorem minimalPeriod_top {primes : List ℕ} (hprimes : ∀ q ∈ primes, q.Prime) {fuel : ℕ}
    (hfuel : primes.prod < 2 ^ fuel) (hback : power T n fuel primes.prod = top w n)
    (hearly : ∀ q ∈ primes, power T n fuel (primes.prod / q) ≠ top w n) :
    Function.minimalPeriod T (top w n) = primes.prod := by
  rw [h.power_eq hfuel] at hback
  obtain ⟨c, hc⟩ := Function.IsPeriodicPt.minimalPeriod_dvd (f := T) hback
  by_contra hne
  have hc1 : c ≠ 1 := by
    rintro rfl
    exact hne (by rw [hc, mul_one])
  obtain ⟨q, hq, hqc⟩ := Nat.exists_prime_and_dvd hc1
  have hmem : q ∈ primes := mem_list_primes_of_dvd_prod hq.prime
    (fun p hp => (hprimes p hp).prime) (hc ▸ hqc.mul_left _)
  apply hearly q hmem
  rw [h.power_eq ((Nat.div_le_self _ _).trans_lt hfuel)]
  obtain ⟨d, rfl⟩ := hqc
  have hdvd : Function.minimalPeriod T (top w n) ∣ primes.prod / q := by
    rw [hc, mul_left_comm, Nat.mul_div_cancel_left _ hq.pos]
    exact Dvd.intro _ rfl
  exact Function.isPeriodicPt_iff_minimalPeriod_dvd.mpr hdvd

/-! ### Every word but zero -/

section Orbit

variable {v : BitVec w} (hv : v.toNat ∈ Finset.Ico 1 (2 ^ n))
  (hperiod : Function.minimalPeriod T v = 2 ^ n - 1)

include hv hperiod

theorem iterate_mem (k : ℕ) : (T^[k] v).toNat ∈ Finset.Ico 1 (2 ^ n) := by
  rw [Finset.mem_Ico] at hv ⊢
  refine ⟨Nat.one_le_iff_ne_zero.mpr fun hzero => ?_, h.iterate_fits hv.2 k⟩
  have hback := Function.isPeriodicPt_minimalPeriod T v
  have hlater : (k + 1) * (2 ^ n - 1) = (k + 1) * (2 ^ n - 1) - k + k := by
    have : k + 1 ≤ (k + 1) * (2 ^ n - 1) := Nat.le_mul_of_pos_right _ (by omega)
    omega
  have hloop : T^[(k + 1) * (2 ^ n - 1)] v = v := by
    rw [← hperiod]
    exact hback.const_mul (k + 1)
  rw [hlater, Function.iterate_add_apply, BitVec.eq_of_toNat_eq (y := 0#w) hzero,
    h.iterate_zero] at hloop
  rw [← hloop] at hv
  exact Nat.lt_irrefl 0 hv.1

omit h hv in
theorem injOn_orbit : Set.InjOn (fun k => (T^[k] v).toNat) (Finset.range (2 ^ n - 1)) := by
  intro i hi j hj heq
  rw [Finset.coe_range, ← hperiod] at hi hj
  exact Function.iterate_injOn_Iio_minimalPeriod hi hj (BitVec.eq_of_toNat_eq heq)

theorem image_orbit : (Finset.range (2 ^ n - 1)).image (fun k => (T^[k] v).toNat) =
    Finset.Ico 1 (2 ^ n) := by
  apply Finset.eq_of_subset_of_card_le
  · intro m hm
    obtain ⟨k, -, rfl⟩ := Finset.mem_image.mp hm
    exact h.iterate_mem hv hperiod k
  · rw [Finset.card_image_of_injOn (injOn_orbit hperiod), Finset.card_range, Nat.card_Ico]

theorem sum_orbit (F : BitVec w → ℤ) : ∑ k ∈ Finset.range (2 ^ n - 1), F (T^[k] v) =
    ∑ m ∈ Finset.Ico 1 (2 ^ n), F (BitVec.ofNat w m) := by
  rw [← h.image_orbit hv hperiod, Finset.sum_image (injOn_orbit hperiod)]
  simp only [BitVec.ofNat_toNat, BitVec.setWidth_eq]

theorem exists_iterate {x : BitVec w} (hx : x.toNat ∈ Finset.Ico 1 (2 ^ n)) :
    ∃ k, T^[k] v = x := by
  rw [← h.image_orbit hv hperiod] at hx
  obtain ⟨k, -, hk⟩ := Finset.mem_image.mp hx
  exact ⟨k, BitVec.eq_of_toNat_eq hk⟩

/-- The period of every word. -/
theorem minimalPeriod_eq {x : BitVec w} (hx : x.toNat ∈ Finset.Ico 1 (2 ^ n)) :
    Function.minimalPeriod T x = 2 ^ n - 1 := by
  obtain ⟨k, rfl⟩ := h.exists_iterate hv hperiod hx
  rw [Function.minimalPeriod_apply_iterate, hperiod]
  refine Function.minimalPeriod_pos_iff_mem_periodicPts.mp ?_
  rw [Finset.mem_Ico] at hv
  omega

end Orbit

end Linear

/-! ### The lowest bit -/

/-- One for a lowest bit that is set, and minus one else. -/
def sign (x : BitVec w) : ℤ := if x.getLsbD 0 then 1 else -1

theorem sign_mul (x y : BitVec w) : sign x * sign y = -sign (x ^^^ y) := by
  rw [sign, sign, sign, BitVec.getLsbD_xor]
  cases x.getLsbD 0 <;> cases y.getLsbD 0 <;> rfl

theorem sum_sign (hw : 0 < w) (hn : 0 < n) :
    ∑ m ∈ Finset.Ico 1 (2 ^ n), sign (BitVec.ofNat w m) = 1 := by
  have hsign : ∀ m, sign (BitVec.ofNat w m) = if m % 2 = 1 then 1 else -1 := by
    intro m
    rw [sign, BitVec.getLsbD_ofNat, decide_eq_true hw, Bool.true_and, Nat.testBit_zero]
    simp
  have hpairs : ∀ k, ∑ m ∈ Finset.range (2 * k), sign (BitVec.ofNat w m) = 0 := by
    intro k
    induction k with
    | zero => rfl
    | succ k ih =>
      rw [show 2 * (k + 1) = 2 * k + 1 + 1 by ring, Finset.sum_range_succ,
        Finset.sum_range_succ, ih, hsign, hsign, if_neg (by omega), if_pos (by omega)]
      rfl
  have htwo : 2 ^ n = 2 * 2 ^ (n - 1) := by rw [← pow_succ', Nat.sub_add_cancel hn]
  have hall := hpairs (2 ^ (n - 1))
  rw [← htwo, Finset.range_eq_Ico, Finset.sum_eq_sum_Ico_succ_bot (Nat.two_pow_pos n), hsign,
    if_neg (by decide)] at hall
  rw [Nat.zero_add] at hall
  omega

namespace Linear

variable {T : BitVec w → BitVec w} (h : Linear n T) {v : BitVec w}
  (hv : v.toNat ∈ Finset.Ico 1 (2 ^ n)) (hperiod : Function.minimalPeriod T v = 2 ^ n - 1)

include h hv hperiod

theorem sum_sign_orbit : ∑ k ∈ Finset.range (2 ^ n - 1), sign (T^[k] v) = 1 := by
  rw [h.sum_orbit hv hperiod sign, sum_sign (h.width.1.trans_le h.width.2) h.width.1]

/-- Two orbits agree once less often than they differ. -/
theorem sum_sign_mul {x : BitVec w} (hx : x.toNat < 2 ^ n) (hne : v ≠ x) :
    ∑ k ∈ Finset.range (2 ^ n - 1), sign (T^[k] v) * sign (T^[k] x) = -1 := by
  have hmem : (v ^^^ x).toNat ∈ Finset.Ico 1 (2 ^ n) := by
    rw [Finset.mem_Ico] at hv ⊢
    refine ⟨Nat.one_le_iff_ne_zero.mpr fun hzero => hne ?_, ?_⟩
    · exact BitVec.xor_eq_zero_iff.mp (BitVec.eq_of_toNat_eq (y := 0#w) hzero)
    · rw [BitVec.toNat_xor]
      exact Nat.xor_lt_two_pow hv.2 hx
  simp only [sign_mul, ← h.iterate_xor, Finset.sum_neg_distrib]
  rw [h.sum_sign_orbit hmem (h.minimalPeriod_eq hv hperiod hmem)]

end Linear

end ShiftRegister

end RtaTool
